import Maple.OutboxRun
import Maple.ProjectionStore

/-! The whole control database, its operations, and the validation it has to pass when it is opened
again. -/

namespace Maple.Control

open Outbox Outbox.OutboxStore Projection

variable {β : Type}

/-- A row of `projection_failures`. -/
structure ProjectionFailureRow where
  sequence : ℕ
  tenantId : String
  projectionId : String
  projectionRevision : ℕ
  occurrenceId : Option String
  deriving DecidableEq, Repr

structure ProjectionFailure where
  projectionId : String
  projectionRevision : ℕ
  occurrenceId : Option String
  deriving DecidableEq, Repr

structure ControlDatabase (β : Type) where
  userVersion : ℕ
  outbox : OutboxStore
  projections : ControlStore β
  failures : List ProjectionFailureRow
  nextFailure : ℕ

def controlSchemaVersion : ℕ := 1

def maxFailuresPerTenant : ℕ := 10000

/-- What `CREATE_SCHEMA` makes of an empty file. -/
def fresh (limits : OutboxLimits) : ControlDatabase β :=
  ⟨controlSchemaVersion, OutboxStore.empty limits, ControlStore.empty, [], 1⟩

/-- `INSERT OR IGNORE INTO projection_failures`: a row that breaks a constraint is not inserted. -/
def insertFailure (tenantId : String) (db : ControlDatabase β) (failure : ProjectionFailure) :
    ControlDatabase β :=
  let known := db.failures.any fun r =>
    r.tenantId = tenantId ∧ r.projectionId = failure.projectionId ∧
      r.projectionRevision = failure.projectionRevision ∧ r.occurrenceId.isSome ∧
      r.occurrenceId = failure.occurrenceId
  if failure.projectionRevision = 0 ∨ known then db
  else
    { db with
      failures := db.failures ++ [⟨db.nextFailure, tenantId, failure.projectionId,
        failure.projectionRevision, failure.occurrenceId⟩]
      nextFailure := db.nextFailure + 1 }

/-- Keep the newest failures of a tenant. -/
def trimFailures (tenantId : String) (rows : List ProjectionFailureRow) :
    List ProjectionFailureRow :=
  let kept := ((rows.filter fun r => r.tenantId = tenantId).reverse.take maxFailuresPerTenant).map
    (·.sequence)
  rows.filter fun r => r.tenantId ≠ tenantId ∨ r.sequence ∈ kept

def recordProjectionFailures (tenantId : String) (failures : List ProjectionFailure)
    (db : ControlDatabase β) : ControlDatabase β :=
  let inserted := failures.foldl (insertFailure tenantId) db
  { inserted with failures := trimFailures tenantId inserted.failures }

/-- The operations of the store; a projection is given as the result of its decoding. -/
inductive ControlOperation (β : Type)
  | saveProjection (spec : Except String (SignalProjectionSpec β))
  | stageEvents (candidates : List (Except String ValidEvent))
      (sourceFingerprints : String → Option String) (stagedAt : InstantText)
  | markReady (eventIds : List String) (readyAt : InstantText)
  | registerConsumer (tenantId consumerId : String) (startAt : EventConsumerStart)
      (registeredAt : InstantText)
  | claimReady (tenantId consumerId : String) (limit leaseSeconds : ℕ) (leaseToken : String)
      (claimedAt : InstantText)
  | acknowledgeClaim (tenantId consumerId leaseToken : String) (throughSequence : ℕ)
      (acknowledgedAt : InstantText)
  | disableConsumer (tenantId consumerId : String) (disabledAt : InstantText)
  | abandonEvents (tenantId : String) (eventIds : List String) (now : InstantText)
  | acceptDeliveryGap (tenantId consumerId : String) (generation : ℕ)
  | recordProjectionFailures (tenantId : String) (failures : List ProjectionFailure)

/-- Make a transaction on the outbox tables. -/
def onOutbox {α : Type} (db : ControlDatabase β) (transaction : Transaction α) :
    Except OutboxError (ControlDatabase β) :=
  match transaction db.outbox with
  | .error e => .error e
  | .ok (outbox, _) => .ok { db with outbox := outbox }

def stageRequest (db : ControlDatabase β) (candidates : List (Except String ValidEvent))
    (sourceFingerprints : String → Option String) (stagedAt : InstantText) : StageRequest where
  candidates := candidates
  sourceFingerprint := sourceFingerprints
  projectionSourceKind := fun tenantId id revision =>
    (db.projections.findRevision tenantId id revision).map (·.sourceKind)
  stagedAt := stagedAt

/-- The transaction of an operation. -/
def transact [DecidableEq β] (tokenHash : String → String) (db : ControlDatabase β) :
    ControlOperation β → Except OutboxError (ControlDatabase β)
  | .saveProjection (.error message) => .error (.storeFailed message)
  | .saveProjection (.ok spec) =>
    match db.projections.saveProjection spec with
    | .error message => .error (.storeFailed message)
    | .ok projections => .ok { db with projections := projections }
  | .stageEvents candidates sourceFingerprints stagedAt =>
    onOutbox db (Outbox.stageEvents (stageRequest db candidates sourceFingerprints stagedAt))
  | .markReady eventIds readyAt => onOutbox db (Outbox.markReady eventIds readyAt)
  | .registerConsumer tenantId consumerId startAt registeredAt =>
    onOutbox db (Outbox.registerConsumer tenantId consumerId startAt registeredAt)
  | .claimReady tenantId consumerId limit leaseSeconds leaseToken claimedAt =>
    onOutbox db
      (Outbox.claimReady tokenHash tenantId consumerId limit leaseSeconds leaseToken claimedAt)
  | .acknowledgeClaim tenantId consumerId leaseToken throughSequence acknowledgedAt =>
    onOutbox db (Outbox.acknowledgeClaim tokenHash tenantId consumerId leaseToken throughSequence
      acknowledgedAt)
  | .disableConsumer tenantId consumerId disabledAt =>
    onOutbox db (Outbox.disableConsumer tenantId consumerId disabledAt)
  | .abandonEvents tenantId eventIds now =>
    onOutbox db (Outbox.abandonEvents tenantId eventIds now)
  | .acceptDeliveryGap tenantId consumerId generation =>
    onOutbox db (Outbox.acceptDeliveryGap tenantId consumerId generation)
  | .recordProjectionFailures tenantId failures =>
    .ok (recordProjectionFailures tenantId failures db)

/-- Whether an operation reads the database once more when its transaction has committed: to
refresh the staged source kinds, or for the lag of a consumer. -/
def readsAfterCommit : ControlOperation β → Bool
  | .stageEvents .. | .markReady .. | .abandonEvents .. | .acknowledgeClaim .. => true
  | _ => false

/-- Run an operation: what it leaves, and whether it succeeds. `readFails` says that the read after
its commit fails. -/
def execute [DecidableEq β] (tokenHash : String → String) (db : ControlDatabase β)
    (operation : ControlOperation β) (readFails : Bool) : ControlDatabase β × Bool :=
  match transact tokenHash db operation with
  | .error _ => (db, false)
  | .ok db' => (db', ¬ (readsAfterCommit operation ∧ readFails))

def step [DecidableEq β] (tokenHash : String → String) (db : ControlDatabase β)
    (l : ControlOperation β × Bool) : Option (ControlDatabase β) :=
  some (execute tokenHash db l.1 l.2).1

/-- The constraints of `event_consumers`. -/
def consumerConstraints (c : ConsumerRow) : Bool :=
  (c.active ↔ c.disabledAt = none) ∧
    c.lease.all fun l => 0 < l.claimedThrough ∧ c.lastAckedSequence < l.claimedThrough

/-- `PRAGMA quick_check`: every row keeps the constraints of its table. -/
def quickCheck (db : ControlDatabase β) : Bool :=
  (db.projections.revisions.all fun r => 0 < r.revision) ∧
  (db.outbox.events.values.all fun e => 0 < e.projectionRevision) ∧
  (db.failures.all fun r => 0 < r.projectionRevision) ∧
  (db.outbox.consumers.values.all consumerConstraints) ∧
  0 ≤ db.outbox.usage.count ∧ 0 ≤ db.outbox.usage.bytes ∧
  (db.outbox.gaps.values.all fun g =>
    0 < g.generation ∧ 0 < g.droppedEvents ∧ g.lastDroppedAt.isSome)

/-- The rows the outbox holds, and their bytes. -/
def countedUsage (store : OutboxStore) : OutboxUsage :=
  ⟨store.events.values.length,
    (store.events.values.map fun e => (e.eventJson.utf8ByteSize : ℤ)).sum⟩

def readinessOf (store : OutboxStore) (eventId : String) : Option ReadyEvent :=
  store.ready.find? fun r => r.eventId = eventId

def invalidReadiness (store : OutboxStore) (e : OutboxEvent) : Bool :=
  match e.state with
  | .ready =>
    match readinessOf store e.eventId with
    | none => true
    | some r => e.readyAt ≠ some r.readyAt
  | .staged => (readinessOf store e.eventId).isSome ∨ e.readyAt.isSome

/-- The first time of a consumer that is not canonical. -/
def invalidConsumer (c : ConsumerRow) : Option OutboxError :=
  if canonicalInstant c.registeredAt = none then
    some (invalidInstant "event consumer registeredAt")
  else if c.lease.any fun l => canonicalInstant l.expiresAt = none then
    some (invalidInstant "event consumer leaseExpiresAt")
  else if c.disabledAt.any fun at_ => canonicalInstant at_ = none then
    some (invalidInstant "event consumer disabledAt")
  else none

/-- What the query takes for no fingerprint. -/
def badFingerprint : Option String → Bool
  | none => true
  | some f =>
    f.toList.length ≠ 71 ∨ f.toList.take 7 ≠ "sha256:".toList ∨
      (f.toList.drop 7).any fun c => ¬ isLowerHex c

def invalidFingerprint (e : OutboxEvent) : Bool :=
  e.state = .staged ∧ e.sourceOccurrenceId.isSome ∧ badFingerprint e.sourceFingerprint

structure SnapshotValidation where
  schemaVersion : ℕ
  projectionRevisions : ℕ
  projectionFailures : ℕ
  stagedEvents : ℕ
  readyEvents : ℕ
  deriving DecidableEq, Repr

def validateOpenDatabase (db : ControlDatabase β) : Except OutboxError SnapshotValidation :=
  if ¬ quickCheck db then
    .error (.storeFailed "eventing control database quick_check failed")
  else if db.userVersion ≠ controlSchemaVersion then
    .error (.storeFailed
      s!"unsupported eventing control schema {db.userVersion}; expected {controlSchemaVersion}")
  else if db.outbox.usage ≠ countedUsage db.outbox then
    .error (.storeFailed "eventing control outbox accounting is inconsistent")
  else if db.outbox.events.values.any (invalidReadiness db.outbox) then
    .error (.storeFailed "eventing control database has inconsistent outbox readiness state")
  else
    match db.outbox.consumers.values.findSome? invalidConsumer with
    | some e => .error e
    | none =>
      if db.outbox.events.values.any invalidFingerprint then
        .error (.storeFailed "eventing control database has an invalid staged source fingerprint")
      else .ok {
        schemaVersion := db.userVersion
        projectionRevisions := db.projections.revisions.length
        projectionFailures := db.failures.length
        stagedEvents := db.outbox.events.values.countP fun e => e.state = .staged
        readyEvents := db.outbox.events.values.countP fun e => e.state = .ready }

end Maple.Control
