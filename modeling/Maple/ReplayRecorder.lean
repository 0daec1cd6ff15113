import Mathlib.Data.List.Chain
import Mathlib.Data.Int.Order.Basic
import Mathlib.Tactic

/-! The session replay recorder: serialized events are buffered and uploaded in chunks, and after
a loss nothing is kept until the next snapshot. A text is the list of its code units; times are
milliseconds. -/

namespace Maple.ReplayRecorder

abbrev Text := List UInt16

def FULL_SNAPSHOT : ℕ := 2
def META : ℕ := 4
def FLUSH_BYTES : ℕ := 100 * 1024
def MAX_BUFFER_BYTES : ℕ := 4 * 1024 * 1024
def MAX_INFLIGHT_BYTES : ℕ := 2 * 1024 * 1024
def MIN_RESNAPSHOT_MS : ℕ := 10000
def RETRY_BACKOFF_MS : ℕ := 5000
def MAX_RETRY_BACKOFF_MS : ℕ := 60000
def MAX_OVERSIZED_SNAPSHOTS : ℕ := 3

structure RrwebEvent where
  type : ℕ
  timestamp : ℤ
  /-- What `JSON.stringify` gives, nothing where it throws. -/
  json : Option Text
  /-- Whether the gate of the session lets it through. -/
  belongs : Bool
  isClick : Bool

/-! ### The buffer -/

/-- A serialized event. Its place among the events that were emitted is not kept by the code. -/
structure Part where
  json : Text
  place : ℕ

structure EventBuffer where
  parts : List Part := []
  types : List ℕ := []
  timestamps : List ℤ := []
  bytes : ℕ := 0

def byteSize (parts : List Part) : ℕ := (parts.map fun part => part.json.length).sum

def sliceBuffer (buffer : EventBuffer) (start stop : ℕ) : EventBuffer :=
  let parts := buffer.parts.extract start stop
  { parts
    types := buffer.types.extract start stop
    timestamps := buffer.timestamps.extract start stop
    bytes := byteSize parts }

def EventBuffer.push (buffer : EventBuffer) (event : RrwebEvent) (json : Text) (place : ℕ) :
    EventBuffer :=
  { parts := buffer.parts ++ [⟨json, place⟩]
    types := buffer.types ++ [event.type]
    timestamps := buffer.timestamps ++ [event.timestamp]
    bytes := buffer.bytes + json.length }

/-- How much of the buffer a flush may take: a trailing Meta waits for its snapshot. -/
def EventBuffer.cut (buffer : EventBuffer) : ℕ :=
  if buffer.types.getLast? = some META then buffer.parts.length - 1 else buffer.parts.length

/-- The last index a value stands at. -/
def lastIndexOf (types : List ℕ) (type : ℕ) : Option ℕ :=
  (types.reverse.findIdx? (· = type)).map fun behind => types.length - 1 - behind

/-- What one call of `uploadChunk` is given. -/
structure Chunk where
  sending : EventBuffer
  keepalive : Bool

def comma : UInt16 := 44
def openBracket : UInt16 := 91
def closeBracket : UInt16 := 93

def Chunk.body (chunk : Chunk) : Text :=
  openBracket :: [comma].intercalate (chunk.sending.parts.map Part.json) ++ [closeBracket]

def Chunk.places (chunk : Chunk) : List ℕ := chunk.sending.parts.map Part.place

inductive UploadOutcome
  | accepted | retry | refused | rejected | exhausted | failed | dropped | handedOff
deriving DecidableEq

/-! ### The recorder -/

inductive Observed
  /-- A chunk was given to `uploadChunk`. -/
  | handed (chunk : Chunk)
  /-- The recorder learned that a chunk was lost. -/
  | lost

structure Recorder where
  buffer : EventBuffer := {}
  awaitingSnapshot : Bool := false
  inflightBytes : ℕ := 0
  oversizedSnapshots : ℕ := 0
  clickCount : ℕ := 0
  stopped : Bool := false
  halted : Bool := false
  /-- When the pending timer is due. -/
  resnapshotTimer : Option ℕ := none
  lastResnapshotAt : Option ℕ := none
  retryAt : ℕ := 0
  retriesInARow : ℕ := 0
  /-- Whether `record` has returned, so that capture can be halted. -/
  installed : Bool := false
  /-- The uploads that have not settled. -/
  uploads : List Chunk := []
  /-- The events of the session that serialize, as they came in. -/
  emitted : List RrwebEvent := []
  observed : List Observed := []

def haltCapture (s : Recorder) : Recorder :=
  if !s.installed || s.halted then s
  else { s with halted := true, resnapshotTimer := none, buffer := {} }

def halt (s : Recorder) : Recorder := if s.halted then s else haltCapture s

def dropAndResnapshot (s : Recorder) (now : ℕ) : Recorder :=
  let s := { s with buffer := {}, awaitingSnapshot := true }
  if s.resnapshotTimer.isSome then s
  else
    let due := (s.lastResnapshotAt.map (· + MIN_RESNAPSHOT_MS)).getD 0
    { s with resnapshotTimer := some (now + (due - now)) }

/-- The timer fires. What rrweb emits for a fresh snapshot comes as emissions of its own. -/
def takeResnapshot (s : Recorder) (now : ℕ) (isHidden : Bool) : Recorder :=
  let s := { s with resnapshotTimer := none }
  if s.halted || !s.awaitingSnapshot then s
  else if MAX_INFLIGHT_BYTES / 2 < s.inflightBytes || isHidden || now < s.retryAt then
    { s with resnapshotTimer := some (now + max MIN_RESNAPSHOT_MS (s.retryAt - now)) }
  else { s with lastResnapshotAt := some now }

def onChunkLost (s : Recorder) (now : ℕ) : Recorder :=
  if s.halted || s.stopped then s
  else
    match lastIndexOf s.buffer.types META with
    | some metaAt => { s with buffer := sliceBuffer s.buffer metaAt s.buffer.parts.length }
    | none => dropAndResnapshot s now

/-- `uploadChunk` is called. -/
def hand (s : Recorder) (chunk : Chunk) : Recorder :=
  { s with
    inflightBytes := s.inflightBytes + chunk.body.length
    uploads := s.uploads ++ [chunk]
    observed := s.observed ++ [.handed chunk] }

/-- A flush up to its upload. -/
def flush (s : Recorder) (keepalive : Bool) (now : ℕ) : Recorder :=
  if s.stopped || s.halted || (!keepalive && now < s.retryAt) then s
  else
    let cut := s.buffer.cut
    if cut = 0 then s
    else
      let chunk : Chunk := { sending := sliceBuffer s.buffer 0 cut, keepalive }
      let s := { s with buffer := sliceBuffer s.buffer cut s.buffer.parts.length }
      if !keepalive && MAX_INFLIGHT_BYTES < s.inflightBytes + chunk.body.length then
        dropAndResnapshot s now
      else hand s chunk

/-- The rest of a flush, once its upload has an outcome. -/
def afterUpload (s : Recorder) (outcome : UploadOutcome) (now : ℕ) : Recorder :=
  match outcome with
  | .accepted => { s with retriesInARow := 0 }
  | .handedOff => s
  | .refused => haltCapture { s with observed := s.observed ++ [.lost] }
  | .exhausted => halt { s with observed := s.observed ++ [.lost] }
  | .retry | .rejected | .failed | .dropped =>
    let backoff := min MAX_RETRY_BACKOFF_MS (RETRY_BACKOFF_MS * 2 ^ s.retriesInARow)
    onChunkLost
      { s with
        retriesInARow := s.retriesInARow + 1
        retryAt := now + backoff
        observed := s.observed ++ [.lost] } now

/-- An upload settles: with an outcome, or it throws. -/
def settle (s : Recorder) (index : ℕ) (outcome : Option UploadOutcome) (now : ℕ) : Recorder :=
  match s.uploads[index]? with
  | none => s
  | some chunk =>
    let s :=
      { s with
        inflightBytes := s.inflightBytes - chunk.body.length
        uploads := s.uploads.eraseIdx index }
    match outcome with
    | none => s
    | some outcome => afterUpload s outcome now

/-- What `emit` does with an event it has serialized. -/
def keep (s : Recorder) (event : RrwebEvent) (json : Text) (now : ℕ) : Recorder :=
  let place := s.emitted.length
  let s := { s with emitted := s.emitted ++ [event] }
  if s.awaitingSnapshot && event.type ≠ META then s
  else
    let s := { s with awaitingSnapshot := false }
    if MAX_BUFFER_BYTES < s.buffer.bytes + json.length then
      if event.type ≠ FULL_SNAPSHOT then dropAndResnapshot s now
      else
        let s :=
          { s with
            buffer := {}
            awaitingSnapshot := true
            oversizedSnapshots := s.oversizedSnapshots + 1 }
        if MAX_OVERSIZED_SNAPSHOTS ≤ s.oversizedSnapshots then halt s else s
    else
      let s := { s with buffer := s.buffer.push event json place }
      if FLUSH_BYTES ≤ s.buffer.bytes && event.type ≠ META then flush s false now else s

def emit (s : Recorder) (event : RrwebEvent) (now : ℕ) : Recorder :=
  if !event.belongs then s
  else
    let s := { s with clickCount := s.clickCount + if event.isClick then 1 else 0 }
    match event.json with
    | none => s
    | some json => keep s event json now

inductive Step
  | emit (event : RrwebEvent) (now : ℕ)
  /-- `record` has returned. -/
  | installed
  | flush (keepalive : Bool) (now : ℕ)
  | settle (index : ℕ) (outcome : Option UploadOutcome) (now : ℕ)
  | timer (now : ℕ) (isHidden : Bool)
  | stop

/-- Until `record` has returned, only what it emits reaches the recorder. -/
def step (s : Recorder) : Step → Recorder
  | .emit event now => emit s event now
  | .installed => { s with installed := true }
  | .flush keepalive now => if s.installed then flush s keepalive now else s
  | .settle index outcome now => if s.installed then settle s index outcome now else s
  | .timer now isHidden =>
    if s.installed && s.resnapshotTimer.isSome then takeResnapshot s now isHidden else s
  | .stop => if s.installed then haltCapture { s with stopped := true } else s

def run (steps : List Step) : Recorder := steps.foldl step {}

/-! ### What a run shows -/

def Observed.chunk? : Observed → Option Chunk
  | .handed chunk => some chunk
  | .lost => none

def Recorder.handed (s : Recorder) : List Chunk := s.observed.filterMap Observed.chunk?

/-- The places of the events handed over, in the order of handing over. -/
def Recorder.places (s : Recorder) : List ℕ := s.handed.flatMap Chunk.places

def typeAt (emitted : List RrwebEvent) (place : ℕ) : Option ℕ :=
  (emitted[place]?).map RrwebEvent.type

/-- The event at the second place may follow the one at the first. -/
def Joins (emitted : List RrwebEvent) (before after : ℕ) : Prop :=
  after = before + 1 ∨ before < after ∧ typeAt emitted after = some META

/-- The buffer that holds these events. -/
def EventBuffer.of (entries : List (RrwebEvent × ℕ)) : EventBuffer :=
  let parts := entries.map fun entry => ⟨entry.1.json.getD [], entry.2⟩
  { parts
    types := entries.map fun entry => entry.1.type
    timestamps := entries.map fun entry => entry.1.timestamp
    bytes := byteSize parts }

/-- The chunk holds events emitted one after the other, and it does not end between a Meta and its
snapshot: where it ends in a Meta, another Meta came next. -/
structure Whole (emitted : List RrwebEvent) (chunk : Chunk) : Prop where
  events : ∃ entries, entries <:+: emitted.zipIdx ∧ chunk.sending = .of entries
  nonempty : chunk.sending.parts ≠ []
  ending : ∀ place ∈ chunk.places.getLast?,
    typeAt emitted place = some META → typeAt emitted (place + 1) = some META

/-- A chunk handed over right after a loss opens with a Meta. -/
def Reopens : Observed → Observed → Prop
  | .lost, .handed chunk => chunk.sending.types.head? = some META
  | _, _ => True

/-- What a player needs of the chunks, and what is said of the sizes. -/
structure Playable (s : Recorder) : Prop where
  whole : ∀ chunk ∈ s.handed, Whole s.emitted chunk
  order : s.places.IsChain (Joins s.emitted)
  increasing : s.places.Pairwise (· < ·)
  reopened : s.observed.IsChain Reopens
  bytes : s.buffer.bytes = byteSize s.buffer.parts
  buffered : s.buffer.bytes ≤ MAX_BUFFER_BYTES
  inflight : s.inflightBytes = (s.uploads.map fun chunk => chunk.body.length).sum

end Maple.ReplayRecorder
