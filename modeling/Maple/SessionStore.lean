import Maple.InsertMap
import Mathlib.Data.Int.Order.Basic

/-! The session record of a browser tab: each copy of the module keeps one in memory, and all share
the one in session storage. Times are milliseconds, and session ids are numbered as they are
minted. -/

namespace Maple.SessionStore

def IDLE_TIMEOUT_MS : ℤ := 30 * 60000
def MAX_SESSION_MS : ℤ := 24 * 60 * 60000
def ACTIVITY_TOUCH_THROTTLE_MS : ℤ := 5000
def MAX_RECENT_COUNTERS : ℕ := 4

structure SessionCounters where
  chunkSeq : ℤ
  metaVersion : Option ℤ
deriving DecidableEq

structure SessionRecord where
  id : ℕ
  startedAt : ℤ
  lastActivityAt : ℤ
  chunkSeq : ℤ
  metaVersion : Option ℤ := none
  billable : Option Bool := none
  visitorIsNew : Option Bool := none
  lastUrl : Option String := none
  pageViews : Option ℤ := none
  clickCount : Option ℤ := none
  errorCount : Option ℤ := none
  replaySampled : Option Bool := none
  replayBuffered : Option Bool := none
  replayTriggered : Bool := false
  replayHalted : Option Bool := none
deriving DecidableEq

def SessionRecord.counters (record : SessionRecord) : SessionCounters :=
  { chunkSeq := record.chunkSeq, metaVersion := record.metaVersion }

/-- What stands under the key in session storage. -/
inductive Stored
  | record (record : SessionRecord)
  | corrupt
deriving DecidableEq

def parseSessionRecord : Stored → Option SessionRecord
  | .record record => some record
  | .corrupt => none

/-- A copy of the module. -/
structure Copy where
  ephemeral : Option SessionRecord := none
  /-- Whether `ephemeral` was last written to this storage. -/
  ephemeralStorage : Bool := false
  writesFailed : Bool := false
  recentCounters : List (ℕ × SessionCounters) := []
  verifiedSessionId : Option ℕ := none
deriving DecidableEq

/-- A rotation whose listeners are running, with the records it writes after them. -/
structure Rotation where
  copy : ℕ
  id : ℕ
  writes : List SessionRecord
deriving DecidableEq

structure World where
  copies : ℕ → Copy
  stored : Option Stored
  memoryOnly : Bool
  /-- How many session ids there have been. -/
  minted : ℕ
  rotations : List Rotation
  /-- The copies that have done something. -/
  acted : List ℕ
  /-- The counters last written for a session, by whichever copy. -/
  latest : ℕ → Option SessionCounters
  /-- What `nextChunkSeq` and `nextMetaVersion` have returned, with the session, the first first. -/
  chunks : List (ℕ × ℤ)
  versions : List (ℕ × ℤ)

/-- How a write ends: it succeeds, the storage itself cannot be had, or it has no room. -/
inductive WriteResult
  | ok | noStorage | noRoom
deriving DecidableEq

/-- What one call meets. -/
structure Env where
  now : ℤ
  readThrows : Bool := false
  /-- For a second read of the call. -/
  readAgainThrows : Bool := false
  write : WriteResult := .ok
  writeAgain : WriteResult := .ok
  /-- Whether another tab holds the lease of the session that was read. -/
  leased : Bool := false
  /-- What `claimNewVisitor` says. -/
  isNewVisitor : Bool := false
  href : String := ""

/-! ### Reading and writing -/

def World.setCopy (w : World) (c : ℕ) (copy : Copy) : World :=
  { w with copies := Function.update w.copies c copy }

/-- A key that is gone, or unreadable, leaves the copy in memory. -/
def readStored (copy : Copy) : Option Stored → Option SessionRecord
  | none => if copy.ephemeralStorage then copy.ephemeral else none
  | some raw => (parseSessionRecord raw).orElse fun _ => copy.ephemeral

def readRecord (w : World) (c : ℕ) (throws : Bool) : Option SessionRecord :=
  let copy := w.copies c
  if w.memoryOnly || (copy.writesFailed && copy.ephemeral.isSome) then copy.ephemeral
  else if throws then copy.ephemeral
  else readStored copy w.stored

def rememberCounters (recent : List (ℕ × SessionCounters)) (record : SessionRecord) :
    List (ℕ × SessionCounters) :=
  let recent := recent.filter (fun entry => entry.1 ≠ record.id) ++ [(record.id, record.counters)]
  recent.drop (recent.length - MAX_RECENT_COUNTERS)

def writeRecord (w : World) (c : ℕ) (record : SessionRecord) (result : WriteResult) : World :=
  let copy := w.copies c
  let copy :=
    { copy with
      ephemeral := some record
      recentCounters := rememberCounters copy.recentCounters record }
  let w := { w with latest := Function.update w.latest record.id (some record.counters) }
  if w.memoryOnly then w.setCopy c copy
  else
    -- `claimTab` ends every write that may use storage.
    let copy := { copy with verifiedSessionId := some record.id }
    match result with
    | .ok =>
      { w with stored := some (.record record) }.setCopy c
        { copy with ephemeralStorage := true, writesFailed := false }
    | .noStorage => w.setCopy c { copy with writesFailed := true }
    | .noRoom => w.setCopy c { copy with ephemeralStorage := true, writesFailed := true }

/-! ### Sessions -/

def isSessionExpired (record : SessionRecord) (now : ℤ) : Bool :=
  IDLE_TIMEOUT_MS < now - record.lastActivityAt || MAX_SESSION_MS < now - record.startedAt

def ownedByAnotherTab (copy : Copy) (record : SessionRecord) (leased : Bool) : Bool :=
  copy.verifiedSessionId ≠ some record.id && leased

def freshRecord (w : World) (env : Env) : SessionRecord :=
  { id := w.minted
    startedAt := env.now
    lastActivityAt := env.now
    chunkSeq := 0
    metaVersion := some 0
    visitorIsNew := some env.isNewVisitor
    lastUrl := some env.href
    pageViews := some 0
    clickCount := some 0
    errorCount := some 0 }

def migrateRecord (record : SessionRecord) (isNewVisitor : Bool) : SessionRecord :=
  if record.visitorIsNew.isNone then { record with visitorIsNew := some isNewVisitor } else record

def writeAll (w : World) (c : ℕ) (records : List SessionRecord) (results : List WriteResult) :
    World :=
  records.zipIdx.foldl
    (fun w entry => writeRecord w c entry.1 (results.getD entry.2 .ok)) w

/-- Mint a session. Where there was one before, the listeners of the rotation run before the new
record is written; what the caller writes over it follows. -/
def installRotatedRecord (w : World) (c : ℕ) (previous : Option SessionRecord) (env : Env)
    (more : SessionRecord → List SessionRecord) : World :=
  let next := freshRecord w env
  let w := { w with minted := w.minted + 1 }
  let writes := next :: more next
  if previous.isSome then
    { w with rotations := { copy := c, id := next.id, writes } :: w.rotations }
  else writeAll w c writes [env.write, env.writeAgain]

/-- The listeners of a rotation are done. -/
def finishRotation (w : World) (index : ℕ) (results : List WriteResult) : World :=
  match w.rotations[index]? with
  | none => w
  | some rotation =>
    writeAll { w with rotations := w.rotations.eraseIdx index } rotation.copy rotation.writes
      results

/-- The record that was read, if its session goes on. -/
def liveRecord (w : World) (c : ℕ) (existing : Option SessionRecord) (env : Env) :
    Option SessionRecord :=
  existing.filter fun record =>
    !isSessionExpired record env.now && !ownedByAnotherTab (w.copies c) record env.leased

/-- The record of a session that goes on. -/
def touched (record : SessionRecord) (env : Env) : SessionRecord :=
  { migrateRecord record env.isNewVisitor with lastActivityAt := env.now }

def getSession (w : World) (c : ℕ) (env : Env) : World :=
  let existing := readRecord w c env.readThrows
  match liveRecord w c existing env with
  | some live => writeRecord w c (touched live env) env.write
  | none => installRotatedRecord w c existing env fun _ => []

/-- `getSessionId`, and `markActivity` for an input. -/
def touchSession (w : World) (c : ℕ) (env : Env) : World :=
  let existing := readRecord w c env.readThrows
  match liveRecord w c existing env with
  | some live =>
    if live.visitorIsNew.isNone || (w.copies c).verifiedSessionId ≠ some live.id ||
        ACTIVITY_TOUCH_THROTTLE_MS < env.now - live.lastActivityAt then
      writeRecord w c (touched live env) env.write
    else w
  | none => installRotatedRecord w c existing env fun _ => []

def rotateSession (w : World) (c : ℕ) (env : Env) : World :=
  installRotatedRecord w c (readRecord w c env.readThrows) env fun _ => []

def withNavigation (record : SessionRecord) (url : String) (now : ℤ) : SessionRecord :=
  { record with
    lastUrl := some url
    pageViews := some (record.pageViews.getD 0 + 1)
    lastActivityAt := now }

/-- The record touched on the way is written first where it is due. -/
def noteNavigation (w : World) (c : ℕ) (url : String) (env : Env) : World :=
  let existing := readRecord w c env.readThrows
  match liveRecord w c existing env with
  | some live =>
    writeRecord (touchSession w c env) c (withNavigation (touched live env) url env.now)
      env.writeAgain
  | none => installRotatedRecord w c existing env fun next => [withNavigation next url env.now]

/-- Change the record that is read, unless there is nothing to change. -/
def changeRecord (w : World) (c : ℕ) (skip : SessionRecord → Bool)
    (change : SessionRecord → SessionRecord) (env : Env) : World :=
  match readRecord w c env.readThrows with
  | none => w
  | some record => if skip record then w else writeRecord w c (change record) env.write

def noteCounts (w : World) (c : ℕ) (clickCount errorCount : Option ℤ) (env : Env) : World :=
  changeRecord w c (fun _ => false)
    (fun record =>
      { record with
        clickCount := some (clickCount.getD (record.clickCount.getD 0))
        errorCount := some (errorCount.getD (record.errorCount.getD 0)) }) env

def resolveBillable (w : World) (c sessionId : ℕ) (claim : Bool) (env : Env) : World :=
  changeRecord w c (fun record => record.id ≠ sessionId || record.billable.isSome)
    (fun record => { record with billable := some claim }) env

def isNewVisitorSession (w : World) (c : ℕ) (env : Env) : World :=
  changeRecord w c (fun record => record.visitorIsNew.isSome)
    (fun record => migrateRecord record env.isNewVisitor) env

/-- A claim made once for the session: on the record that is read, or on that of `getSession`. -/
def claimOnce (w : World) (c : ℕ) (claimed : SessionRecord → Bool)
    (claim : SessionRecord → SessionRecord) (env : Env) : World :=
  match readRecord w c env.readThrows with
  | some record => if claimed record then w else writeRecord w c (claim record) env.write
  | none =>
    let existing := readRecord w c env.readAgainThrows
    match liveRecord w c existing env with
    | some live =>
      let record := touched live env
      let w := writeRecord w c record env.write
      if claimed record then w else writeRecord w c (claim record) env.writeAgain
    | none => installRotatedRecord w c existing env fun next => [claim next]

def claimReplaySample (w : World) (c : ℕ) (sampled : Bool) (env : Env) : World :=
  claimOnce w c (fun record => record.replaySampled.isSome)
    (fun record => { record with replaySampled := some sampled }) env

/-- The second half of `claimReplayMode`, for a session that is not sampled. -/
def claimReplayBuffered (w : World) (c : ℕ) (buffered : Bool) (env : Env) : World :=
  claimOnce w c (fun record => record.replayBuffered.isSome)
    (fun record => { record with replayBuffered := some buffered }) env

def markReplayHalted (w : World) (c sessionId : ℕ) (env : Env) : World :=
  changeRecord w c (fun record => record.id ≠ sessionId || record.replayHalted = some true)
    (fun record => { record with replayHalted := some true }) env

def markReplayTriggered (w : World) (c sessionId : ℕ) (env : Env) : World :=
  changeRecord w c (fun record => record.id ≠ sessionId)
    (fun record => { record with replaySampled := some true, replayTriggered := true }) env

def adoptReplayDecision (w : World) (c sessionId : ℕ) (recorded : Bool) (buffered : Option Bool)
    (env : Env) : World :=
  changeRecord w c (fun record => record.id ≠ sessionId || record.replaySampled.isSome)
    (fun record =>
      { record with
        replaySampled := some recorded
        replayBuffered :=
          if buffered.isSome && !recorded then buffered else record.replayBuffered }) env

/-! ### Counters -/

/-- Advance the counters of a session where it is known; the value goes to `log`. -/
def takeCounter (w : World) (c sessionId : ℕ) (take : SessionCounters → ℤ × SessionCounters)
    (log : World → ℤ → World) (env : Env) : World :=
  let record := (readRecord w c env.readThrows).filter fun record => record.id = sessionId
  match record with
  | some record =>
    let taken := take record.counters
    log (writeRecord w c
      { record with chunkSeq := taken.2.chunkSeq, metaVersion := taken.2.metaVersion } env.write)
      taken.1
  | none =>
    let copy := w.copies c
    match copy.recentCounters.lookup sessionId with
    | none => w
    | some remembered =>
      let taken := take remembered
      let w := { w with latest := Function.update w.latest sessionId (some taken.2) }
      log (w.setCopy c
        { copy with recentCounters := setEntry sessionId taken.2 copy.recentCounters }) taken.1

def takeChunkSeq (counters : SessionCounters) : ℤ × SessionCounters :=
  (counters.chunkSeq, { counters with chunkSeq := counters.chunkSeq + 1 })

def takeMetaVersion (counters : SessionCounters) : ℤ × SessionCounters :=
  let version := counters.metaVersion.getD 2 + 1
  (version, { counters with metaVersion := some version })

def nextChunkSeq (w : World) (c sessionId : ℕ) (env : Env) : World :=
  takeCounter w c sessionId takeChunkSeq
    (fun w value => { w with chunks := w.chunks ++ [(sessionId, value)] }) env

def nextMetaVersion (w : World) (c sessionId : ℕ) (env : Env) : World :=
  takeCounter w c sessionId takeMetaVersion
    (fun w value => { w with versions := w.versions ++ [(sessionId, value)] }) env

/-! ### Runs -/

inductive Call
  | getSession
  | touchSession
  | rotateSession
  | noteNavigation (url : String)
  | noteCounts (clickCount errorCount : Option ℤ)
  | resolveBillable (sessionId : ℕ) (claim : Bool)
  | isNewVisitorSession
  | claimReplaySample (sampled : Bool)
  | claimReplayBuffered (buffered : Bool)
  | markReplayHalted (sessionId : ℕ)
  | markReplayTriggered (sessionId : ℕ)
  | adoptReplayDecision (sessionId : ℕ) (recorded : Bool) (buffered : Option Bool)
  | nextChunkSeq (sessionId : ℕ)
  | nextMetaVersion (sessionId : ℕ)

def call (w : World) (c : ℕ) (env : Env) : Call → World
  | .getSession => getSession w c env
  | .touchSession => touchSession w c env
  | .rotateSession => rotateSession w c env
  | .noteNavigation url => noteNavigation w c url env
  | .noteCounts clickCount errorCount => noteCounts w c clickCount errorCount env
  | .resolveBillable sessionId claim => resolveBillable w c sessionId claim env
  | .isNewVisitorSession => isNewVisitorSession w c env
  | .claimReplaySample sampled => claimReplaySample w c sampled env
  | .claimReplayBuffered buffered => claimReplayBuffered w c buffered env
  | .markReplayHalted sessionId => markReplayHalted w c sessionId env
  | .markReplayTriggered sessionId => markReplayTriggered w c sessionId env
  | .adoptReplayDecision sessionId recorded buffered =>
    adoptReplayDecision w c sessionId recorded buffered env
  | .nextChunkSeq sessionId => nextChunkSeq w c sessionId env
  | .nextMetaVersion sessionId => nextMetaVersion w c sessionId env

inductive Step
  | call (c : ℕ) (call : Call) (env : Env)
  | finishRotation (index : ℕ) (results : List WriteResult)
  /-- The stored key is removed or overwritten by something unreadable. -/
  | removeKey
  | corruptKey
  | memoryOnly

def step (w : World) : Step → World
  | .call c made env => call { w with acted := c :: w.acted } c env made
  | .finishRotation index results => finishRotation w index results
  | .removeKey => { w with stored := none }
  | .corruptKey => { w with stored := some .corrupt }
  | .memoryOnly => { w with memoryOnly := true }

/-- A document opens on what the storage holds. -/
def opened (stored : Option Stored) (memoryOnly : Bool) : World :=
  let record := stored.bind parseSessionRecord
  { copies := fun _ => {}
    stored
    memoryOnly
    minted := ((record.map SessionRecord.id).getD 0) + 1
    rotations := []
    acted := []
    latest := fun id => (record.filter fun record => record.id = id).map SessionRecord.counters
    chunks := []
    versions := [] }

/-! ### What a run may show -/

/-- Of every session later numbers are greater. -/
def Increasing (issued : List (ℕ × ℤ)) : Prop :=
  issued.Pairwise fun before after => before.1 = after.1 → before.2 < after.2

structure NeverReissued (w : World) : Prop where
  chunks : Increasing w.chunks
  versions : Increasing w.versions

/-- No other copy has done anything. -/
def Alone (w : World) (c : ℕ) : Prop := ∀ other ∈ w.acted, other = c

instance (w : World) (c : ℕ) : Decidable (Alone w c) :=
  inferInstanceAs (Decidable (∀ other ∈ w.acted, other = c))

/-- The record carries the counters last written for its session. -/
def Current (w : World) (record : SessionRecord) : Prop :=
  w.latest record.id = some record.counters

/-- Whether a call that reads nothing reads once more. -/
def Call.readsAgain : Call → Bool
  | .claimReplaySample _ | .claimReplayBuffered _ => true
  | _ => false

/-- The session whose number a call asks for. -/
def Call.asksFor : Call → Option ℕ
  | .nextChunkSeq sessionId | .nextMetaVersion sessionId => some sessionId
  | _ => none

/-- What the call reads, and what the copy remembers of the session it asks for, is current. -/
structure UpToDate (w : World) (c : ℕ) (env : Env) (made : Call) : Prop where
  reads : ∀ record ∈ readRecord w c env.readThrows, Current w record
  readsAgain : made.readsAgain = true →
    ∀ record ∈ readRecord w c env.readAgainThrows, Current w record
  remembers : ∀ sessionId ∈ made.asksFor,
    ∀ counters ∈ (w.copies c).recentCounters.lookup sessionId, w.latest sessionId = some counters

def Sound (w : World) : Step → Prop
  | .call c made env => Alone w c ∨ UpToDate w c env made
  | _ => True

end Maple.SessionStore
