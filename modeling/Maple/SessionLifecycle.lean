import Maple.SessionStore

/-! The session lifecycle of a page: runs that start, pause, resume and end, and the metadata rows
posted on the way. The page has one copy of the session module; its storage may fail or lose what it
holds. -/

namespace Maple.SessionLifecycle
open SessionStore

inductive Status
  | active | ended
deriving DecidableEq

structure SessionCounts where
  clickCount : ℤ
  pageViews : ℤ
  errorCount : ℤ
deriving DecidableEq

structure SessionMetaRow where
  sessionId : ℕ
  startedAt : ℤ
  version : ℤ
  status : Status
  counts : SessionCounts
  lastUrl : Option String
  keepalive : Bool
deriving DecidableEq

/-- The tallies of the event sink that is published, and the session it is of. -/
structure Sink where
  sessionId : ℕ
  pageViews : ℤ := 0
  clickCount : ℤ := 0
  errorCount : ℤ := 0
deriving DecidableEq

/-- What the owner and the network see. -/
inductive Shown
  | onStart (sessionId : ℕ)
  /-- A row, with the clicks and errors it should report. -/
  | row (row : SessionMetaRow) (clicks errors : ℤ)
  | onPause
  | onSuspend (flush keepalive : Bool)
deriving DecidableEq

structure Hooks where
  onPause : Bool
  /-- Whether the owner counts clicks itself. -/
  clicksSinceStart : Bool

structure Page where
  hooks : Hooks
  session : World
  sink : Option Sink := none
  visible : Bool := true
  /-- Whether the lifecycle has been started. -/
  started : Bool := false
  current : SessionRecord
  stopped : Bool := false
  running : Bool := false
  paused : Bool := false
  pauseTimer : Option ℕ := none
  heartbeat : Option ℕ := none
  clickCountBase : ℤ := 0
  errorCountBase : ℤ := 0
  sinkClickCountAtStart : ℤ := 0
  sinkErrorCountAtStart : ℤ := 0
  /-- The intervals and timeouts that have not been cleared, and how many there have been. -/
  intervals : List ℕ := []
  timeouts : List ℕ := []
  timers : ℕ := 0
  /-- How many deferred starts are queued. -/
  microtasks : ℕ := 0
  shown : List Shown := []
  /-- The counts of a session's record when a run of it first started. -/
  firstRun : ℕ → Option (ℤ × ℤ) := fun _ => none
  /-- The clicks and errors that sinks published under a session counted while it was run. -/
  tally : ℕ → ℤ × ℤ := fun _ => (0, 0)

/-- What a step meets: the time and the storage, and what the owner's own click source says. -/
structure Moment where
  env : Env
  clicks : ℤ := 0

/-! ### Rows -/

def peekSession (p : Page) (m : Moment) : Option SessionRecord :=
  readRecord p.session 0 m.env.readThrows

def liveRecord (p : Page) (m : Moment) : SessionRecord :=
  match peekSession p m with
  | some stored => if stored.id = p.current.id then stored else p.current
  | none => p.current

def rebaseCounts (p : Page) (record : SessionRecord) : Page :=
  { p with
    clickCountBase := record.clickCount.getD 0
    errorCountBase := record.errorCount.getD 0
    sinkClickCountAtStart := (p.sink.map Sink.clickCount).getD 0
    sinkErrorCountAtStart := (p.sink.map Sink.errorCount).getD 0 }

def countsOf (p : Page) (record : SessionRecord) (m : Moment) : SessionCounts :=
  let sink := p.sink.filter fun sink => sink.sessionId = record.id
  let fromSink := (sink.map fun sink => sink.clickCount - p.sinkClickCountAtStart).getD 0
  let clicks := if p.hooks.clicksSinceStart then m.clicks else fromSink
  let errors := (sink.map fun sink => sink.errorCount - p.sinkErrorCountAtStart).getD 0
  { clickCount := p.clickCountBase + max 0 clicks
    errorCount := p.errorCountBase + max 0 errors
    pageViews := record.pageViews.getD ((sink.map Sink.pageViews).getD 0) }

/-- The counts of a row, which are also noted on the session's own record. -/
def countsFor (p : Page) (record : SessionRecord) (m : Moment) : SessionCounts × Page :=
  let counts := countsOf p record m
  let own := (peekSession p m).any fun stored => stored.id = record.id
  (counts,
    if own then
      { p with
        session := noteCounts p.session 0 (some counts.clickCount) (some counts.errorCount)
          m.env }
    else p)

/-- The version `nextMetaVersion` returns. -/
def metaVersionOf (w : World) (sessionId : ℕ) (env : Env) : Option ℤ :=
  let record := (readRecord w 0 env.readThrows).filter fun record => record.id = sessionId
  let counters :=
    match record with
    | some record => some record.counters
    | none => (w.copies 0).recentCounters.lookup sessionId
  counters.map fun counters => (takeMetaVersion counters).1

/-- What the rows of a session should report. -/
def due (p : Page) (sessionId : ℕ) : ℤ × ℤ :=
  (p.firstRun sessionId).getD (0, 0) + p.tally sessionId

def post (p : Page) (status : Status) (keepalive : Bool) (m : Moment) : Page :=
  let record := liveRecord p m
  match metaVersionOf p.session record.id m.env with
  | none => p
  | some version =>
    let p := { p with session := nextMetaVersion p.session 0 record.id m.env }
    let counted := countsFor p record m
    let row : SessionMetaRow :=
      { sessionId := record.id
        startedAt := record.startedAt
        version
        status
        counts := counted.1
        lastUrl := record.lastUrl
        keepalive }
    let due := due p record.id
    { counted.2 with shown := counted.2.shown ++ [.row row due.1 due.2] }

/-! ### Timers -/

def stopHeartbeat (p : Page) : Page :=
  match p.heartbeat with
  | none => p
  | some handle => { p with intervals := p.intervals.erase handle, heartbeat := none }

def startHeartbeat (p : Page) : Page :=
  let p := stopHeartbeat p
  { p with
    intervals := p.timers :: p.intervals
    heartbeat := some p.timers
    timers := p.timers + 1 }

def clearPauseTimer (p : Page) : Page :=
  match p.pauseTimer with
  | none => p
  | some handle => { p with timeouts := p.timeouts.erase handle, pauseTimer := none }

/-! ### Runs -/

def startRun (p : Page) (m : Moment) : Page :=
  if p.stopped || p.running then p
  else
    let record := liveRecord p m
    let p := rebaseCounts { p with running := true } record
    let first := (record.clickCount.getD 0, record.errorCount.getD 0)
    let p :=
      { p with
        shown := p.shown ++ [.onStart record.id]
        firstRun := Function.update p.firstRun record.id
          (some ((p.firstRun record.id).getD first)) }
    startHeartbeat (post p .active false m)

def endRun (p : Page) (flush keepalive : Bool) (m : Moment) : Page :=
  if !p.running then p
  else
    let p := clearPauseTimer (stopHeartbeat { p with running := false })
    let p := if flush && !p.paused then post p .ended keepalive m else p
    { p with paused := false, shown := p.shown ++ [.onSuspend flush keepalive] }

def pauseRun (p : Page) (m : Moment) : Page :=
  if !p.running || p.paused then p
  else
    let p := post (stopHeartbeat { p with paused := true }) .ended true m
    { p with
      shown := p.shown ++ [.onPause]
      timeouts := p.timers :: p.timeouts
      pauseTimer := some p.timers
      timers := p.timers + 1 }

def resumeRun (p : Page) (m : Moment) : Page :=
  let p := { clearPauseTimer p with paused := false }
  startHeartbeat (post p .active false m)

/-- The listener of the lifecycle, while it listens. -/
def onSessionRotate (p : Page) (previous next : SessionRecord) (m : Moment) : Page :=
  if !p.started || p.stopped || previous.id ≠ p.current.id then p
  else
    let p := endRun p true false m
    { p with current := next, microtasks := p.microtasks + 1 }

/-- A call of the session module: where it rotates the session, the listener runs before the new
record is written. -/
def withSession (p : Page) (call : World → World) (m : Moment) : Page :=
  let previous := peekSession p m
  let p := { p with session := call p.session }
  match p.session.rotations with
  | [] => p
  | rotation :: _ =>
    let p :=
      match previous, rotation.writes.head? with
      | some previous, some next => onSessionRotate p previous next m
      | _, _ => p
    { p with session := finishRotation p.session 0 [m.env.write, m.env.writeAgain] }

/-! ### Events of the page -/

def heartbeatTick (p : Page) (m : Moment) : Page :=
  if !p.visible then p
  else if isSessionExpired (liveRecord p m) m.env.now then endRun p true false m
  else post p .active false m

def onHidden (p : Page) (m : Moment) : Page :=
  if p.hooks.onPause then pauseRun p m else endRun p true true m

def onVisible (p : Page) (m : Moment) : Page :=
  if isSessionExpired (liveRecord p m) m.env.now then
    withSession p (fun w => getSession w 0 m.env) m
  else if p.paused then resumeRun p m
  else startRun p m

def announce (p : Page) (m : Moment) : Page :=
  if p.running then post p (if p.paused then .ended else .active) false m else p

def shutdown (p : Page) (flush : Bool) (m : Moment) : Page :=
  if p.stopped then p else endRun { p with stopped := true } flush flush m

def startSessionLifecycle (p : Page) (m : Moment) : Page :=
  if p.started then p
  else
    let p := withSession p (fun w => getSession w 0 m.env) m
    startRun { p with started := true, current := (peekSession p m).getD p.current } m

/-! ### The event sink -/

inductive EventType
  | navigation (url : String)
  | click
  | input
  | custom
  | error
  | other
deriving DecidableEq

/-- Only what a person does keeps a session from going idle. -/
def EventType.isUser : EventType → Bool
  | .navigation _ | .click | .input | .custom => true
  | .error | .other => false

/-- The session an event belongs to, if any. -/
def markActivity (p : Page) (ev : EventType) (m : Moment) : Page × Option ℕ :=
  if ev.isUser then
    let p := withSession p (fun w => touchSession w 0 m.env) m
    (p, (peekSession p m).map SessionRecord.id)
  else
    (p, ((peekSession p m).filter fun record => !isSessionExpired record m.env.now).map
      SessionRecord.id)

/-- Tally an event on the published sink. -/
def capture (p : Page) (ev : EventType) (m : Moment) : Page :=
  match p.sink with
  | none => p
  | some sink =>
    let live := p.running && p.current.id = sink.sessionId
    let tally := p.tally sink.sessionId
    match ev with
    | .navigation url =>
      withSession { p with sink := some { sink with pageViews := sink.pageViews + 1 } }
        (fun w => noteNavigation w 0 url m.env) m
    | .click =>
      { p with
        sink := some { sink with clickCount := sink.clickCount + 1 }
        tally := if live then Function.update p.tally sink.sessionId (tally.1 + 1, tally.2)
          else p.tally }
    | .error =>
      { p with
        sink := some { sink with errorCount := sink.errorCount + 1 }
        tally := if live then Function.update p.tally sink.sessionId (tally.1, tally.2 + 1)
          else p.tally }
    | .input | .custom | .other => p

/-- An event of a sink that has just been started for the session it belongs to. -/
def emitNew (p : Page) (ev : EventType) (m : Moment) : Page :=
  let marked := markActivity p ev m
  if marked.2.isSome && marked.2 = p.sink.map Sink.sessionId then capture marked.1 ev m
  else marked.1

/-- A sink of another session is replaced; the new one begins with the page view. -/
def startEventSink (p : Page) (sessionId : ℕ) (href : String) (m : Moment) : Page :=
  if p.sink.any fun sink => sink.sessionId = sessionId then p
  else emitNew { p with sink := some { sessionId } } (.navigation href) m

def emit (p : Page) (ev : EventType) (href : String) (m : Moment) : Page :=
  match p.sink with
  | none => p
  | some sink =>
    let marked := markActivity p ev m
    match marked.2 with
    | none => marked.1
    | some sessionId =>
      if sessionId = sink.sessionId then capture marked.1 ev m
      else
        let p := startEventSink marked.1 sessionId href m
        match ev with
        | .navigation _ => p
        | _ => emitNew p ev m

/-! ### Steps -/

inductive Step
  | start
  | hidden
  | visible
  | pagehide
  | heartbeat (handle : ℕ)
  | pauseTimeout (handle : ℕ)
  /-- A touch of the session that is no event of the sink, such as a span asking for the id. -/
  | touch
  | microtask
  | announce
  | shutdown (flush : Bool)
  | startSink (href : String)
  | emit (ev : EventType) (href : String)
  /-- The storage loses the record, or is given up. -/
  | removeKey
  | corruptKey
  | memoryOnly

/-- Until it is started and once it is stopped, the lifecycle hears nothing of the page. -/
def Page.listens (p : Page) : Bool := p.started && !p.stopped

def step (p : Page) (l : Step) (m : Moment) : Page :=
  match l with
  | .start => startSessionLifecycle p m
  | .hidden =>
    let p := { p with visible := false }
    if p.listens then onHidden p m else p
  | .visible =>
    let p := { p with visible := true }
    if p.listens then onVisible p m else p
  | .pagehide => if p.listens then endRun p true true m else p
  | .heartbeat handle => if handle ∈ p.intervals then heartbeatTick p m else p
  | .pauseTimeout handle =>
    if handle ∈ p.timeouts then
      endRun { p with timeouts := p.timeouts.erase handle, pauseTimer := none } true false m
    else p
  | .touch => withSession p (fun w => touchSession w 0 m.env) m
  | .microtask =>
    if p.microtasks = 0 then p else startRun { p with microtasks := p.microtasks - 1 } m
  | .announce => if p.started then announce p m else p
  | .shutdown flush => if p.started then shutdown p flush m else p
  | .startSink href =>
    let p := withSession p (fun w => getSession w 0 m.env) m
    match peekSession p m with
    | none => p
    | some record => startEventSink p record.id href m
  | .emit ev href => emit p ev href m
  | .removeKey => { p with session := SessionStore.step p.session .removeKey }
  | .corruptKey => { p with session := SessionStore.step p.session .corruptKey }
  | .memoryOnly => { p with session := SessionStore.step p.session .memoryOnly }

def opened (hooks : Hooks) (stored : Option Stored) (memoryOnly : Bool) (current : SessionRecord) :
    Page :=
  { hooks, session := SessionStore.opened stored memoryOnly, current }

def run (p : Page) (steps : List (Step × Moment)) : Page :=
  steps.foldl (fun p entry => step p entry.1 entry.2) p

end Maple.SessionLifecycle
