import Maple.InsertMap

/-! The event outbox of the control store: staged events, ready events with their delivery
sequence, and the gaps that dropped events leave. -/

namespace Maple.Outbox

/-- A text that stands for a time: the ISO text of an epoch millisecond, or any other. -/
inductive InstantText
  | iso (milliseconds : ℤ)
  | other (text : String)
  deriving DecidableEq, Repr

/-- The epoch milliseconds a `Date` can hold. -/
def isDate (milliseconds : ℤ) : Bool :=
  -8640000000000000 ≤ milliseconds ∧ milliseconds ≤ 8640000000000000

def toISOString (milliseconds : ℤ) : Option InstantText :=
  if isDate milliseconds then some (.iso milliseconds) else none

/-- The millisecond a text stands for, if `toISOString` writes that millisecond as the text. -/
def canonicalInstant : InstantText → Option ℤ
  | .iso milliseconds => if isDate milliseconds then some milliseconds else none
  | .other _ => none

structure OutboxLimits where
  maxOutboxEvents : ℕ
  maxOutboxBytes : ℕ
  retainAcknowledgedReadyEvents : ℕ

inductive EventState
  | staged
  | ready
  deriving DecidableEq, Repr

/-- A row of `outbox_events`. -/
structure OutboxEvent where
  eventId : String
  tenantId : String
  projectionId : String
  projectionRevision : ℕ
  sourceKind : Option String
  source : Option String
  sourceOccurrenceId : Option String
  sourceFingerprint : Option String
  state : EventState
  eventJson : String
  stagedAt : InstantText
  readyAt : Option InstantText
  deriving DecidableEq, Repr

/-- A row of `outbox_ready_events`. -/
structure ReadyEvent where
  sequence : ℕ
  eventId : String
  readyAt : InstantText
  deriving DecidableEq, Repr

structure Lease where
  tokenHash : String
  expiresAt : InstantText
  claimedThrough : ℕ
  deriving DecidableEq, Repr

/-- A row of `event_consumers`; the three lease columns are set and cleared together. -/
structure ConsumerRow where
  consumerId : String
  tenantId : String
  active : Bool
  lastAckedSequence : ℕ
  acceptedGapGeneration : ℕ
  lease : Option Lease
  registeredAt : InstantText
  disabledAt : Option InstantText
  deriving DecidableEq, Repr

structure DeliveryGap where
  generation : ℕ
  droppedEvents : ℕ
  lastDroppedAt : Option InstantText
  deriving DecidableEq, Repr

/-- The row of `outbox_usage`. -/
structure OutboxUsage where
  count : ℤ
  bytes : ℤ
  deriving DecidableEq, Repr

/-- The tables of the outbox; `ready` is kept in the order of its sequences, which are given out
from `nextSequence` on and never again. -/
structure OutboxStore where
  limits : OutboxLimits
  events : InsertMap String OutboxEvent
  usage : OutboxUsage
  ready : List ReadyEvent
  nextSequence : ℕ
  consumers : InsertMap String ConsumerRow
  gaps : InsertMap String DeliveryGap

inductive OutboxError
  | consumerInput (message : String)
  | consumerNotFound (message consumerId : String)
  | consumerConflict (message consumerId : String)
  | consumerLease (message consumerId : String) (expiresAt : Option InstantText)
  | deliveryGap (message consumerId : String) (generation droppedEvents : ℕ)
  | administrationInvalid (message : String)
  | eventRejected (message : String) (eventId : Option String)
  | storeFailed (message : String)
  deriving DecidableEq, Repr

/-- What a transaction does: an error leaves the tables as they were. -/
abbrev Transaction (α : Type) := OutboxStore → Except OutboxError (OutboxStore × α)

namespace OutboxStore

def empty (limits : OutboxLimits) : OutboxStore :=
  ⟨limits, InsertMap.empty, ⟨0, 0⟩, [], 1, InsertMap.empty, InsertMap.empty⟩

def readDeliveryGap (store : OutboxStore) (tenantId : String) : DeliveryGap :=
  (store.gaps.get tenantId).getD ⟨0, 0, none⟩

def recordDeliveryGap (store : OutboxStore) (tenantId : String) (count : ℕ) (at_ : InstantText) :
    OutboxStore :=
  if count = 0 then store
  else
    let gap := store.readDeliveryGap tenantId
    { store with
      gaps := store.gaps.set tenantId ⟨gap.generation + 1, gap.droppedEvents + count, some at_⟩ }

/-- The ready events joined with the events of a tenant. -/
def readyOf (store : OutboxStore) (tenantId : String) : List ReadyEvent :=
  store.ready.filter fun r => (store.events.get r.eventId).any fun e => e.tenantId = tenantId

def consumerRow (store : OutboxStore) (tenantId consumerId : String) : Option ConsumerRow :=
  (store.consumers.get consumerId).filter fun c => c.tenantId = tenantId

/-- The least sequence every active consumer of the tenant has acknowledged. -/
def acknowledgedByAll (store : OutboxStore) (tenantId : String) : Option ℕ :=
  ((store.consumers.values.filter fun c => c.tenantId = tenantId ∧ c.active).map
    (·.lastAckedSequence)).min?

def deleteReady (store : OutboxStore) (eventId : String) : OutboxStore :=
  { store with ready := store.ready.filter fun r => r.eventId ≠ eventId }

/-- Insert a row of `outbox_events`, and what its trigger does to the usage. -/
def insertEvent (store : OutboxStore) (event : OutboxEvent) : OutboxStore :=
  { store with
    events := store.events.set event.eventId event
    usage := ⟨store.usage.count + 1, store.usage.bytes + event.eventJson.utf8ByteSize⟩ }

/-- `DELETE FROM outbox_events WHERE event_id = ? AND ...`, and what its trigger does to the
usage. -/
def deleteEventWhere (store : OutboxStore) (eventId : String) (p : OutboxEvent → Bool) :
    OutboxStore :=
  match store.events.get eventId with
  | none => store
  | some event =>
    if p event then
      { store with
        events := store.events.erase eventId
        usage := ⟨store.usage.count - 1, store.usage.bytes - event.eventJson.utf8ByteSize⟩ }
    else store

def deleteReadyEvent (store : OutboxStore) (eventId : String) : OutboxStore :=
  store.deleteEventWhere eventId fun e => e.state = .ready

def deleteTenantEvent (store : OutboxStore) (tenantId eventId : String) : OutboxStore :=
  store.deleteEventWhere eventId fun e => e.tenantId = tenantId

/-- Drop the oldest acknowledged ready events, down to the number to retain. -/
def pruneAcknowledgedReady (store : OutboxStore) (tenantId : String) : OutboxStore × ℕ :=
  match store.acknowledgedByAll tenantId with
  | none => (store, 0)
  | some boundary =>
    let rows := (store.readyOf tenantId).filter fun r => r.sequence ≤ boundary
    let pruneCount := rows.length - store.limits.retainAcknowledgedReadyEvents
    ((rows.take pruneCount).foldl
      (fun s row => (s.deleteReady row.eventId).deleteReadyEvent row.eventId) store, pruneCount)

end OutboxStore

/-- A candidate that passed `validateMapleCloudEvent`. -/
structure ValidEvent where
  id : String
  tenantId : String
  projectionId : String
  projectionRevision : ℕ
  revision_pos : 0 < projectionRevision
  source : String
  sourceOccurrenceId : Option String
  canonicalJson : String

/-- What a call of `stageEvents` is given, and what it looks up: the validation of each candidate,
the fingerprints, and the source kind of a projection revision. -/
structure StageRequest where
  candidates : List (Except String ValidEvent)
  sourceFingerprint : String → Option String
  projectionSourceKind : String → String → ℕ → Option String
  stagedAt : InstantText

structure StageResult where
  inserted : ℕ
  deduplicated : ℕ
  dropped : ℕ
  eventIds : List String
  deriving DecidableEq, Repr

/-- The state of the loop of `stageEvents`. -/
structure StageProgress where
  store : OutboxStore
  result : StageResult
  droppedByTenant : InsertMap String ℕ
  outboxEvents : ℤ
  outboxBytes : ℤ

def isLowerHex (c : Char) : Bool := ('0' ≤ c ∧ c ≤ '9') ∨ ('a' ≤ c ∧ c ≤ 'f')

/-- `/^sha256:[0-9a-f]{64}$/` -/
def isSourceFingerprint (s : String) : Bool :=
  s.toList.take 7 = "sha256:".toList ∧ (s.toList.drop 7).length = 64 ∧
    (s.toList.drop 7).all isLowerHex

/-- The checks on a candidate before it is looked up, and the source kind it is stored with. -/
def checkCandidate (request : StageRequest) (event : ValidEvent) :
    Except OutboxError (Option String) :=
  let fingerprint := request.sourceFingerprint event.id
  if fingerprint.any fun f => ¬ isSourceFingerprint f then
    .error (.storeFailed s!"event has invalid source fingerprint: {event.id}")
  else if event.sourceOccurrenceId.isSome ∧ fingerprint = none then
    .error (.storeFailed
      s!"event with source occurrence ID requires a source fingerprint: {event.id}")
  else if event.sourceOccurrenceId.isSome then
    match request.projectionSourceKind event.tenantId event.projectionId event.projectionRevision with
    | none => .error (.storeFailed
        s!"event references unknown projection revision: {event.tenantId}:{event.projectionId}@{event.projectionRevision}")
    | some kind => .ok (some kind)
  else .ok none

/-- The checks on a candidate whose id is stored already. -/
def checkExisting (fingerprint : Option String) (event : ValidEvent) (existing : OutboxEvent) :
    Except OutboxError Unit :=
  if existing.eventJson ≠ event.canonicalJson then
    .error (.eventRejected s!"event ID collision with different payload: {event.id}"
      (some event.id))
  else if fingerprint.isSome ∧ existing.sourceFingerprint.isSome ∧
      existing.sourceFingerprint ≠ fingerprint then
    .error (.eventRejected s!"event ID collision with different source occurrence: {event.id}"
      (some event.id))
  else if existing.state = .staged ∧ fingerprint.isSome ∧ existing.sourceFingerprint = none then
    .error (.storeFailed s!"staged event has no recovery fingerprint: {event.id}")
  else .ok ()

def stagedRow (request : StageRequest) (event : ValidEvent) (sourceKind : Option String) :
    OutboxEvent where
  eventId := event.id
  tenantId := event.tenantId
  projectionId := event.projectionId
  projectionRevision := event.projectionRevision
  sourceKind := sourceKind
  source := event.sourceOccurrenceId.map fun _ => event.source
  sourceOccurrenceId := event.sourceOccurrenceId
  sourceFingerprint := request.sourceFingerprint event.id
  state := .staged
  eventJson := event.canonicalJson
  stagedAt := request.stagedAt
  readyAt := none

/-- One turn of the loop of `stageEvents`. -/
def stageEvent (request : StageRequest) (progress : StageProgress)
    (candidate : Except String ValidEvent) : Except OutboxError StageProgress :=
  match candidate with
  | .error message => .error (.eventRejected s!"invalid event: {message}" none)
  | .ok event =>
    match checkCandidate request event with
    | .error e => .error e
    | .ok sourceKind =>
      let result := progress.result
      let bytes := event.canonicalJson.utf8ByteSize
      match progress.store.events.get event.id with
      | some existing =>
        match checkExisting (request.sourceFingerprint event.id) event existing with
        | .error e => .error e
        | .ok () => .ok { progress with
            result := { result with
              deduplicated := result.deduplicated + 1
              eventIds := result.eventIds ++ [event.id] } }
      | none =>
        if progress.store.limits.maxOutboxEvents < progress.outboxEvents + 1 ∨
            progress.store.limits.maxOutboxBytes < progress.outboxBytes + bytes then
          .ok { progress with
            result := { result with dropped := result.dropped + 1 }
            droppedByTenant := progress.droppedByTenant.set event.tenantId
              ((progress.droppedByTenant.get event.tenantId).getD 0 + 1) }
        else
          .ok { progress with
            store := progress.store.insertEvent (stagedRow request event sourceKind)
            result := { result with
              inserted := result.inserted + 1
              eventIds := result.eventIds ++ [event.id] }
            outboxEvents := progress.outboxEvents + 1
            outboxBytes := progress.outboxBytes + bytes }

def stageLoop (request : StageRequest) :
    StageProgress → List (Except String ValidEvent) → Except OutboxError StageProgress
  | progress, [] => .ok progress
  | progress, candidate :: rest =>
    match stageEvent request progress candidate with
    | .error e => .error e
    | .ok progress => stageLoop request progress rest

def stageEvents (request : StageRequest) : Transaction StageResult := fun store =>
  let start := ⟨store, ⟨0, 0, 0, []⟩, InsertMap.empty, store.usage.count, store.usage.bytes⟩
  match stageLoop request start request.candidates with
  | .error e => .error e
  | .ok progress =>
    .ok (progress.droppedByTenant.entries.foldl
      (fun s (tenantId, count) => s.recordDeliveryGap tenantId count request.stagedAt)
      progress.store, progress.result)

def markReadyRow (store : OutboxStore) (event : OutboxEvent) (readyAt : InstantText) : OutboxStore :=
  { store with
    ready := store.ready ++ [⟨store.nextSequence, event.eventId, readyAt⟩]
    nextSequence := store.nextSequence + 1
    events := store.events.set event.eventId
      { event with state := .ready, readyAt := some readyAt } }

/-- The loop of `markReady`, with the number of events it has marked. -/
def markReadyLoop (readyAt : InstantText) :
    OutboxStore → ℕ → List String → Except OutboxError (OutboxStore × ℕ)
  | store, marked, [] => .ok (store, marked)
  | store, marked, eventId :: rest =>
    match store.events.get eventId with
    | none => .error (.storeFailed s!"cannot mark unknown event ready: {eventId}")
    | some event =>
      if event.state = .ready then markReadyLoop readyAt store marked rest
      else markReadyLoop readyAt (markReadyRow store event readyAt) (marked + 1) rest

def markReady (eventIds : List String) (readyAt : InstantText) : Transaction ℕ := fun store =>
  markReadyLoop readyAt store 0 eventIds

def clearLeases (store : OutboxStore) (tenantId : String) : OutboxStore :=
  { store with
    consumers := store.consumers.mapValues fun c =>
      if c.tenantId = tenantId then { c with lease := none } else c }

def abandonEvents (tenantId : String) (eventIds : List String) (now : InstantText) :
    Transaction (ℕ × DeliveryGap) := fun store =>
  if eventIds.length < 1 ∨ 1000 < eventIds.length ∨ ¬ eventIds.Nodup then
    .error (.administrationInvalid "abandon requires 1–1000 distinct event IDs")
  else
    match eventIds.find? fun id =>
        ¬ (store.events.get id).any fun e => e.tenantId = tenantId with
    | some id => .error (.administrationInvalid s!"unknown event ID for abandonment: {id}")
    | none =>
      let deleted := eventIds.foldl
        (fun s id => (s.deleteReady id).deleteTenantEvent tenantId id) store
      let store := clearLeases (deleted.recordDeliveryGap tenantId eventIds.length now) tenantId
      .ok (store, eventIds.length, store.readDeliveryGap tenantId)

end Maple.Outbox
