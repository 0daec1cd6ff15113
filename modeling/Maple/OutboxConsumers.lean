import Maple.OutboxStore

/-! The consumers of the outbox: registration, claims under a lease, and acknowledgements. -/

namespace Maple.Outbox

/-- `/^[a-z][a-z0-9._-]{0,63}$/` -/
def isConsumerId (s : String) : Bool :=
  match s.toList with
  | [] => false
  | c :: cs =>
    ('a' ≤ c ∧ c ≤ 'z') ∧ cs.length ≤ 63 ∧
      cs.all fun c => ('a' ≤ c ∧ c ≤ 'z') ∨ ('0' ≤ c ∧ c ≤ '9') ∨ c = '.' ∨ c = '_' ∨ c = '-'

/-- `/^[0-9a-f]{64}$/` -/
def isLeaseToken (s : String) : Bool := s.toList.length = 64 ∧ s.toList.all isLowerHex

def invalidConsumerId : OutboxError :=
  .consumerInput "consumerId must start with a lowercase letter and contain at most 64 lowercase letters, digits, dots, underscores, or hyphens"

inductive EventConsumerStart
  | beginning
  | latest
  deriving DecidableEq, Repr

structure EventConsumerClaim where
  leaseToken : Option String
  leaseExpiresAt : Option InstantText
  throughSequence : Option ℕ
  events : List ReadyEvent
  deriving DecidableEq, Repr

structure EventConsumerAcknowledgement where
  acknowledgedThrough : ℕ
  prunedEvents : ℕ
  deriving DecidableEq, Repr

def invalidInstant (label : String) : OutboxError :=
  .consumerInput s!"{label} must be canonical ISO-8601"

def setConsumer (store : OutboxStore) (consumer : ConsumerRow) : OutboxStore :=
  { store with consumers := store.consumers.set consumer.consumerId consumer }

def acceptDeliveryGap (tenantId consumerId : String) (generation : ℕ) :
    Transaction DeliveryGap := fun store =>
  if ¬ isConsumerId consumerId then .error invalidConsumerId
  else
    match store.consumerRow tenantId consumerId with
    | none => .error (.consumerNotFound s!"event consumer not found: {consumerId}" consumerId)
    | some consumer =>
      let gap := store.readDeliveryGap tenantId
      if generation < 1 ∨ generation ≠ gap.generation then
        .error (.consumerConflict
          "delivery gap generation changed; inspect current health before accepting" consumerId)
      else .ok (setConsumer store { consumer with acceptedGapGeneration := generation }, gap)

/-- The sequence a new consumer counts as acknowledged: everything before the oldest ready event,
or everything there is. -/
def startingPoint (store : OutboxStore) (tenantId : String) : EventConsumerStart → ℕ
  | .beginning => (((store.readyOf tenantId).map (·.sequence)).min?.getD 0) - 1
  | .latest => ((store.readyOf tenantId).map (·.sequence)).max?.getD 0

def registerConsumer (tenantId consumerId : String) (startAt : EventConsumerStart)
    (registeredAt : InstantText) : Transaction ConsumerRow := fun store =>
  if ¬ isConsumerId consumerId then .error invalidConsumerId
  else if canonicalInstant registeredAt = none then
    .error (invalidInstant "event consumer registeredAt")
  else
    match store.consumerRow tenantId consumerId with
    | some _ =>
      .error (.consumerConflict s!"event consumer already exists: {consumerId}" consumerId)
    | none =>
      match store.consumers.get consumerId with
      -- The id is the primary key, and another tenant's consumer has it.
      | some _ => .error (.storeFailed "UNIQUE constraint failed: event_consumers.consumer_id")
      | none =>
        let consumer : ConsumerRow := {
          consumerId := consumerId
          tenantId := tenantId
          active := true
          lastAckedSequence := startingPoint store tenantId startAt
          acceptedGapGeneration :=
            match startAt with
            | .latest => (store.readDeliveryGap tenantId).generation
            | .beginning => 0
          lease := none
          registeredAt := registeredAt
          disabledAt := none }
        .ok (setConsumer store consumer, consumer)

def disableConsumer (tenantId consumerId : String) (disabledAt : InstantText) :
    Transaction ConsumerRow :=
  fun store =>
    if ¬ isConsumerId consumerId then .error invalidConsumerId
    else if canonicalInstant disabledAt = none then
      .error (invalidInstant "event consumer disabledAt")
    else
      match store.consumerRow tenantId consumerId with
      | none => .error (.consumerNotFound s!"unknown event consumer: {consumerId}" consumerId)
      | some consumer =>
        if ¬ consumer.active then .ok (store, consumer)
        else
          let disabled := { consumer with
            active := false
            lease := none
            disabledAt := some disabledAt }
          .ok (((setConsumer store disabled).pruneAcknowledgedReady tenantId).1, disabled)

/-- The ready events a claim may hand out, in order. -/
def claimable (store : OutboxStore) (tenantId : String) (after : ℕ) : List ReadyEvent :=
  (store.readyOf tenantId).filter fun r =>
    (store.events.get r.eventId).any (fun e => e.state = .ready) ∧ after < r.sequence

/-- The lease a claim runs into: one that has not expired, or whose expiry cannot be read. -/
def heldLease (consumer : ConsumerRow) (now : ℤ) : Option OutboxError :=
  match consumer.lease with
  | none => none
  | some lease =>
    match canonicalInstant lease.expiresAt with
    | none => some (invalidInstant "event consumer leaseExpiresAt")
    | some expiresAt =>
      if now < expiresAt then
        some (.consumerLease s!"event consumer already has an active lease: {consumer.consumerId}"
          consumer.consumerId (some lease.expiresAt))
      else none

/-- Hand out the first events after the consumer's position. `leaseToken` is the random token a
claim with events gives out. -/
def grantClaim (tokenHash : String → String) (tenantId : String) (consumer : ConsumerRow)
    (limit leaseSeconds : ℕ) (leaseToken : String) (now : ℤ) :
    Transaction EventConsumerClaim := fun store =>
  let rows := (claimable store tenantId consumer.lastAckedSequence).take limit
  match rows.getLast? with
  | none => .ok (setConsumer store { consumer with lease := none }, ⟨none, none, none, []⟩)
  | some last =>
    match toISOString (now + leaseSeconds * 1000) with
    | none => .error (.storeFailed "Invalid Date")
    | some expiresAt =>
      let lease := ⟨tokenHash leaseToken, expiresAt, last.sequence⟩
      .ok (setConsumer store { consumer with lease := some lease },
        ⟨some leaseToken, some expiresAt, some last.sequence, rows⟩)

def claimReady (tokenHash : String → String) (tenantId consumerId : String)
    (limit leaseSeconds : ℕ) (leaseToken : String) (claimedAt : InstantText) :
    Transaction EventConsumerClaim := fun store =>
  if ¬ isConsumerId consumerId then .error invalidConsumerId
  else if limit < 1 ∨ 1000 < limit then
    .error (.consumerInput "claim limit must be between 1 and 1000")
  else if leaseSeconds < 5 ∨ 300 < leaseSeconds then
    .error (.consumerInput "leaseSeconds must be between 5 and 300")
  else
    match canonicalInstant claimedAt with
    | none => .error (invalidInstant "claim time")
    | some now =>
      match store.consumerRow tenantId consumerId with
      | none => .error (.consumerNotFound s!"unknown event consumer: {consumerId}" consumerId)
      | some consumer =>
        let gap := store.readDeliveryGap tenantId
        if consumer.acceptedGapGeneration < gap.generation then
          .error (.deliveryGap "Event delivery has a gap; an operator must acknowledge the reported generation before claiming more events" consumerId gap.generation gap.droppedEvents)
        else if ¬ consumer.active then
          .error (.consumerConflict s!"event consumer is disabled: {consumerId}" consumerId)
        else
          match heldLease consumer now with
          | some refused => .error refused
          | none => grantClaim tokenHash tenantId consumer limit leaseSeconds leaseToken now store

def tokenHashMatches (tokenHash : String → String) (expected token : String) : Bool :=
  isLeaseToken token ∧ expected = tokenHash token

/-- Whether a lease covers an acknowledgement, and what is wrong with it if not. -/
def checkLease (tokenHash : String → String) (consumerId leaseToken : String)
    (throughSequence : ℕ) (now : ℤ) (lease : Lease) : Except OutboxError Unit :=
  match canonicalInstant lease.expiresAt with
  | none => .error (invalidInstant "event consumer leaseExpiresAt")
  | some expiresAt =>
    if expiresAt ≤ now then
      .error (.consumerLease s!"event consumer lease has expired: {consumerId}" consumerId
        (some lease.expiresAt))
    else if ¬ tokenHashMatches tokenHash lease.tokenHash leaseToken then
      .error (.consumerLease "event consumer lease token does not match" consumerId
        (some lease.expiresAt))
    else if throughSequence ≠ lease.claimedThrough then
      .error (.consumerLease
        s!"acknowledgement must cover the complete claimed batch through sequence {lease.claimedThrough}"
        consumerId (some lease.expiresAt))
    else .ok ()

def acknowledgeClaim (tokenHash : String → String) (tenantId consumerId leaseToken : String)
    (throughSequence : ℕ) (acknowledgedAt : InstantText) :
    Transaction EventConsumerAcknowledgement :=
  fun store =>
    if ¬ isConsumerId consumerId then .error invalidConsumerId
    else if throughSequence < 1 then
      .error (.consumerInput "throughSequence must be a positive safe integer")
    else
      match canonicalInstant acknowledgedAt with
      | none => .error (invalidInstant "acknowledgement time")
      | some now =>
        match store.consumerRow tenantId consumerId with
        | none => .error (.consumerNotFound s!"unknown event consumer: {consumerId}" consumerId)
        | some consumer =>
          if ¬ consumer.active then
            .error (.consumerConflict s!"event consumer is disabled: {consumerId}" consumerId)
          else
            match consumer.lease with
            | none =>
              .error (.consumerLease s!"event consumer has no active lease: {consumerId}"
                consumerId none)
            | some lease =>
              match checkLease tokenHash consumerId leaseToken throughSequence now lease with
              | .error e => .error e
              | .ok () =>
                let acknowledged := setConsumer store { consumer with
                  lastAckedSequence := throughSequence
                  lease := none }
                let (pruned, count) := acknowledged.pruneAcknowledgedReady tenantId
                .ok (pruned, ⟨throughSequence, count⟩)

end Maple.Outbox
