import Mathlib.Data.List.Count
import Mathlib.Data.List.Range
import Mathlib.Tactic

/-! The sink that batches the events of a session and posts them. A text is the list of its
characters; times are milliseconds. -/

namespace Maple.EventSink

abbrev Text := List Char

def FLUSH_BYTES : ℕ := 32 * 1024
def MAX_BUFFER_BYTES : ℕ := 256 * 1024
def RETRY_BACKOFF_MS : ℕ := 5000
def MAX_RETRY_BACKOFF_MS : ℕ := 60000
def MAX_REPEATED_ERRORS : ℕ := 5
def REPEATED_ERROR_WINDOW_MS : ℕ := 60000

inductive EventType
  | navigation | click | input | console | network | error | custom
deriving DecidableEq

structure SessionEvent where
  type : EventType
  level : Option Text := none
  message : Option Text := none
  errorStack : Option Text := none
  /-- What `approximateSize` says. -/
  size : ℕ
  /-- The bytes of the line its row becomes. -/
  lineBytes : ℕ
deriving DecidableEq

structure BufferedEvent where
  ev : SessionEvent
  seq : ℕ
deriving DecidableEq

/-! ### Answers -/

inductive PostOutcome
  | accepted | retry | refused | rejected | failed
deriving DecidableEq

/-- A status, or no response at all. -/
abbrev Answer := Option ℕ

def outcomeOf (status : ℕ) : PostOutcome :=
  if 200 ≤ status ∧ status < 300 then .accepted
  else if status = 429 ∨ 500 ≤ status then .retry
  else if status = 401 ∨ status = 402 ∨ status = 403 then .refused
  else .rejected

def outcomeOfAnswer (answer : Answer) : PostOutcome := (answer.map outcomeOf).getD .failed

def OUTCOME_RANK : PostOutcome → ℕ
  | .refused => 0
  | .failed => 1
  | .retry => 2
  | .rejected => 3
  | .accepted => 4

def worse (worst outcome : PostOutcome) : PostOutcome :=
  if OUTCOME_RANK outcome < OUTCOME_RANK worst then outcome else worst

/-! ### The state -/

/-- A POST, as the network sees it. -/
structure Request where
  rows : List BufferedEvent
  keepalive : Bool
  /-- How many page transitions there had been. -/
  sentAt : ℕ
  /-- The answer, and how many page transitions there had been by then. -/
  answer : Option (Answer × ℕ) := none
deriving DecidableEq

/-- A call of `postSessionEvents` that `send` waits for. -/
structure Post where
  fresh : List BufferedEvent
  keepalive : Bool
  transitionsAtSend : ℕ
  /-- The page transitions there really had been. -/
  sentAt : ℕ
  requests : List ℕ
deriving DecidableEq

/-- Where the one loop of ordinary flushes is. -/
inductive Loop
  | posting
  /-- Its `send` is over and it goes on. -/
  | resuming
deriving DecidableEq

structure Seen where
  count : ℕ
  since : ℕ
deriving DecidableEq

structure Sink where
  buffer : List BufferedEvent := []
  bufferBytes : ℕ := 0
  retry : List BufferedEvent := []
  resend : List BufferedEvent := []
  inFlight : Option Loop := none
  flushAgain : Bool := false
  retryAt : ℕ := 0
  retriesInARow : ℕ := 0
  refused : Bool := false
  repeatedErrors : List (Text × Seen) := []
  seq : ℕ := 0
  pageViews : ℕ := 0
  clickCount : ℕ := 0
  errorCount : ℕ := 0
  pageTransitions : ℕ := 0
  /-- Whether it still listens for page transitions: until it is stopped. -/
  listening : Bool := true
  posts : List Post := []
  /-- All requests there have been, the oldest first. -/
  requests : List Request := []
  /-- All page transitions there have been. -/
  transitions : ℕ := 0
deriving DecidableEq

/-- What the code reads of its surroundings. -/
structure Env where
  now : ℕ
  /-- The keepalive budget that is left. -/
  keepaliveRoom : ℕ
  /-- Whether the endpoint has refused the key. -/
  isRefused : Bool

/-! ### Posting -/

/-- How many of the oldest rows fit the room. -/
def fits : ℕ → List BufferedEvent → ℕ
  | _, [] => 0
  | room, row :: rows =>
    if room < row.ev.lineBytes then 0 else fits (room - row.ev.lineBytes) rows + 1

def keepaliveBodies (rows : List BufferedEvent) (room : ℕ) : List (List BufferedEvent × Bool) :=
  let fits := fits room rows
  [(rows.take fits, true), (rows.drop fits, false)].filter fun body => !body.1.isEmpty

def bodies (rows : List BufferedEvent) (keepalive : Bool) (env : Env) :
    List (List BufferedEvent × Bool) :=
  if env.isRefused then []
  else if keepalive then keepaliveBodies rows env.keepaliveRoom
  else [(rows, false)]

/-- `postSessionEvents` up to the answers. -/
def postSessionEvents (s : Sink) (rows fresh : List BufferedEvent) (keepalive : Bool) (env : Env) :
    Sink :=
  let parts := bodies rows keepalive env
  { s with
    posts := s.posts ++
      [{ fresh, keepalive, transitionsAtSend := s.pageTransitions, sentAt := s.transitions,
         requests := List.range' s.requests.length parts.length }]
    requests := s.requests ++
      parts.map fun part => { rows := part.1, keepalive := part.2, sentAt := s.transitions } }

/-- `send` up to the answer, and whether there is one to wait for. -/
def send (s : Sink) (keepalive : Bool) (env : Env) : Sink × Bool :=
  if !keepalive && env.now < s.retryAt then (s, false)
  else
    let fresh := s.buffer
    let rows := if keepalive then s.resend ++ fresh else s.retry ++ (s.resend ++ fresh)
    if rows.isEmpty then (s, false)
    else
      let kept := if keepalive then s.retry else []
      let s := { s with retry := kept, resend := [], buffer := [], bufferBytes := 0 }
      (postSessionEvents s rows fresh keepalive env, true)

/-- A round of the flush loop, up to where it waits. -/
def runOnce (s : Sink) (env : Env) : Sink :=
  let sent := send { s with flushAgain := false } false env
  { sent.1 with inFlight := some (if sent.2 then .posting else .resuming) }

def flush (s : Sink) (keepalive : Bool) (env : Env) : Sink :=
  if keepalive then (send s true env).1
  else if s.inFlight.isSome then { s with flushAgain := true }
  else runOnce s env

/-- The flush loop goes on after a `send`. -/
def resume (s : Sink) (env : Env) : Sink :=
  if s.flushAgain then runOnce s env else { s with inFlight := none }

/-! ### Answers come in -/

def answer (s : Sink) (index : ℕ) (found : Answer) : Sink :=
  { s with
    requests := s.requests.modify index fun request =>
      if request.answer.isSome then request
      else { request with answer := some (found, s.transitions) } }

def Sink.answerOf (s : Sink) (index : ℕ) : Option Answer :=
  (s.requests[index]?).bind fun request => request.answer.map Prod.fst

/-- The worst of the outcomes; without a request there was a refusal. -/
def worst : List PostOutcome → PostOutcome
  | [] => .refused
  | first :: outcomes => outcomes.foldl worse first

/-- The outcome of a post, once all of its requests are answered. -/
def outcome (s : Sink) (post : Post) : Option PostOutcome :=
  if post.requests.all fun index => (s.answerOf index).isSome then
    some (worst ((post.requests.filterMap s.answerOf).map outcomeOfAnswer))
  else none

/-- What `send` does with an outcome. -/
def afterPost (s : Sink) (post : Post) (now : ℕ) : PostOutcome → Sink
  | .refused => { s with refused := true, buffer := [], bufferBytes := 0, retry := [] }
  | .retry =>
    { s with
      retriesInARow := s.retriesInARow + 1
      retryAt := now + min MAX_RETRY_BACKOFF_MS (RETRY_BACKOFF_MS * 2 ^ s.retriesInARow)
      resend := post.fresh ++ s.resend }
  | .failed =>
    let s := { s with retriesInARow := 0 }
    if !post.keepalive && s.pageTransitions = post.transitionsAtSend then
      { s with retry := post.fresh ++ s.retry }
    else s
  | .accepted | .rejected => { s with retriesInARow := 0 }

/-- A post whose requests are all answered is over. -/
def settle (s : Sink) (index now : ℕ) : Sink :=
  match s.posts[index]? with
  | none => s
  | some post =>
    match outcome s post with
    | none => s
    | some outcome =>
      let s :=
        { s with
          posts := s.posts.eraseIdx index
          inFlight := if post.keepalive then s.inFlight else some .resuming }
      afterPost s post now outcome

/-! ### Events -/

def isError (ev : SessionEvent) : Bool :=
  ev.type = .error || (ev.type = .console && ev.level = some "error".toList)

def errorKey (ev : SessionEvent) : Text :=
  (if ev.type = .error then "error".toList else "console".toList) ++ '|' :: ev.message.getD [] ++
    '|' :: (ev.errorStack.getD []).take 500

/-- Whether an error was sent often enough in its window, and the counts after it. -/
def isRepeatedError (seen : List (Text × Seen)) (ev : SessionEvent) (now : ℕ) :
    Bool × List (Text × Seen) :=
  if !isError ev then (false, seen)
  else
    let key := errorKey ev
    let others := seen.filter fun entry => entry.1 ≠ key
    match seen.lookup key with
    | some found =>
      if REPEATED_ERROR_WINDOW_MS < now - found.since then
        let others := if 100 ≤ seen.length then [] else others
        (false, (key, ⟨1, now⟩) :: others)
      else
        (MAX_REPEATED_ERRORS < found.count + 1,
          (key, { found with count := found.count + 1 }) :: others)
    | none =>
      let others := if 100 ≤ seen.length then [] else others
      (false, (key, ⟨1, now⟩) :: others)

/-- Drop the oldest events until the rest fits. -/
def dropOldest : List BufferedEvent → ℕ → List BufferedEvent × ℕ
  | first :: second :: rest, bytes =>
    if MAX_BUFFER_BYTES < bytes then dropOldest (second :: rest) (bytes - first.ev.size)
    else (first :: second :: rest, bytes)
  | buffer, bytes => (buffer, bytes)

def Sink.count (s : Sink) (ev : SessionEvent) : Sink :=
  if ev.type = .navigation then { s with pageViews := s.pageViews + 1 }
  else if ev.type = .click then { s with clickCount := s.clickCount + 1 }
  else if isError ev then { s with errorCount := s.errorCount + 1 }
  else s

/-- What `markActivity` answers. -/
inductive Activity
  /-- The event belongs to no session. -/
  | none
  /-- The session has been replaced by another. -/
  | other
  | same

def stop (s : Sink) : Sink := { s with listening := false }

def emit (s : Sink) (ev : SessionEvent) (activity : Activity) (env : Env) : Sink :=
  match activity with
  | .none => s
  -- The sink of the new session drains and stops this one, unless that has happened before.
  | .other => if s.listening then stop (flush s false env) else s
  | .same =>
    let s := s.count ev
    if s.refused then s
    else
      let repeated := isRepeatedError s.repeatedErrors ev env.now
      let s := { s with repeatedErrors := repeated.2 }
      if repeated.1 then s
      else
        let kept := dropOldest (s.buffer ++ [⟨ev, s.seq⟩]) (s.bufferBytes + ev.size)
        let s := { s with seq := s.seq + 1, buffer := kept.1, bufferBytes := kept.2 }
        if FLUSH_BYTES ≤ s.bufferBytes then flush s false env else s

def onPageTransition (s : Sink) (isPagehide : Bool) : Sink :=
  let s := { s with transitions := s.transitions + 1 }
  if s.listening then
    { s with
      pageTransitions := s.pageTransitions + 1
      retry := if isPagehide then [] else s.retry }
  else s

inductive Step
  | emit (ev : SessionEvent) (activity : Activity) (env : Env)
  | flush (keepalive : Bool) (env : Env)
  | pageTransition (isPagehide : Bool)
  | answer (index : ℕ) (found : Answer)
  | settle (index now : ℕ)
  | resume (env : Env)
  | stop

def step (s : Sink) : Step → Sink
  | .emit ev activity env => emit s ev activity env
  | .flush keepalive env => flush s keepalive env
  | .pageTransition isPagehide => onPageTransition s isPagehide
  | .answer index found => answer s index found
  | .settle index now => settle s index now
  | .resume env => if s.inFlight = some .resuming then resume s env else s
  | .stop => stop s

def run (steps : List Step) : Sink := steps.foldl step {}

/-! ### What a run may show -/

def Request.Carries (request : Request) (seq : ℕ) : Prop := ∃ row ∈ request.rows, row.seq = seq

instance (request : Request) (seq : ℕ) : Decidable (request.Carries seq) :=
  inferInstanceAs (Decidable (∃ row ∈ request.rows, row.seq = seq))

/-- The rows of the request may be sent again: it was answered, though not with a 2xx, or it was an
ordinary one, no response came, and no page transition happened while it was in flight. -/
def Request.MayRepeat (request : Request) : Prop :=
  ∃ found time, request.answer = some (found, time) ∧ outcomeOfAnswer found ≠ .accepted ∧
    (found = none → request.keepalive = false ∧ time = request.sentAt)

/-- No accepted row is duplicated. -/
structure Once (s : Sink) : Prop where
  distinct : (s.buffer.map BufferedEvent.seq).Nodup
  twice : ∀ seq, (s.requests.countP fun request => request.Carries seq) ≤ 2
  again : ∀ (i j : ℕ) (before after : Request) (seq : ℕ), i < j → s.requests[i]? = some before →
    s.requests[j]? = some after → before.Carries seq → after.Carries seq → before.MayRepeat

/-- The requests of a post are not answered with a 2xx here and a 429 or 5xx there. -/
def Undivided (s : Sink) (post : Post) : Prop :=
  ∀ i ∈ post.requests, ∀ j ∈ post.requests, ∀ found ∈ s.answerOf i, ∀ other ∈ s.answerOf j,
    outcomeOfAnswer found = .accepted → outcomeOfAnswer other ≠ .retry

instance (s : Sink) (post : Post) : Decidable (Undivided s post) :=
  inferInstanceAs (Decidable (∀ i ∈ post.requests, ∀ j ∈ post.requests,
    ∀ found ∈ s.answerOf i, ∀ other ∈ s.answerOf j,
      outcomeOfAnswer found = .accepted → outcomeOfAnswer other ≠ .retry))

/-- A post that settles is undivided, and a sink that was stopped has missed no page transition
during it. -/
def Sound (s : Sink) : Step → Prop
  | .settle index _ => ∀ post ∈ s.posts[index]?, Undivided s post ∧
    (s.listening = true ∨ s.transitions = post.sentAt)
  | _ => True

instance (s : Sink) (l : Step) : Decidable (Sound s l) :=
  match l with
  | .settle index _ =>
    inferInstanceAs (Decidable (∀ post ∈ s.posts[index]?, Undivided s post ∧
      (s.listening = true ∨ s.transitions = post.sentAt)))
  | .emit _ _ _ | .flush _ _ | .pageTransition _ | .answer _ _ | .resume _ | .stop =>
    isTrue trivial

end Maple.EventSink
