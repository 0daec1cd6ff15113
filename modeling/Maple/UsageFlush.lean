import Maple.TransitionRun

/-! The usage tracker: events add up per organization and feature, a flush seals each entry under
its billing customer and sends it under a key that stays with it until a request succeeds. -/

namespace Maple.Usage

/-- `org_id` and `feature_id`. -/
abbrev AccumulatorKey (O F : Type) := O × F

structure UsageEvent (O F : Type) where
  orgId : O
  featureId : F
  value : ℚ

/-- `idempotencyKey` is the number of the key among all keys minted. -/
structure PendingUsage (C : Type) where
  value : ℚ
  idempotencyKey : ℕ
  queuedValue : ℚ
  customerId : Option C

def PendingUsage.new {C : Type} (value : ℚ) (key : ℕ) : PendingUsage C := ⟨value, key, 0, none⟩

def PendingUsage.total {C : Type} (pending : PendingUsage C) : ℚ :=
  pending.value + pending.queuedValue

abbrev Accumulator (O F C : Type) := Finmap fun _ : AccumulatorKey O F => PendingUsage C

/-- The body of a track request, with the organization it is sent for. -/
structure TrackRequest (O F C : Type) where
  orgId : O
  customerId : C
  featureId : F
  value : ℚ
  idempotencyKey : ℕ

def TrackRequest.key {O F C : Type} (request : TrackRequest O F C) : AccumulatorKey O F :=
  (request.orgId, request.featureId)

/-- A request is lost or refused, applied although no success comes back, or applied with success. -/
inductive Outcome
  | unsent | unanswered | succeeded
  deriving DecidableEq

structure Sent (O F C : Type) where
  request : TrackRequest O F C
  outcome : Outcome

/-- A line of the shutdown log. -/
structure Dropped (O F C : Type) where
  key : AccumulatorKey O F
  value : ℚ
  billingOrgId : Option C
  idempotencyKey : ℕ

/-- Where `flush_loop` stands; `passes` of the final loop are left. -/
inductive Phase (O F C : Type)
  | looping
  | flushing (entries : List (TrackRequest O F C))
  | final (passes : ℕ)
  | finalFlush (passes : ℕ) (before : ℚ) (entries : List (TrackRequest O F C))
  | ended (log : List (Dropped O F C))

/-- The tracker and what has happened: the events it took, the requests it sent, and the requests
the billing service applied. -/
structure World (O F C : Type) where
  accumulator : Accumulator O F C
  minted : ℕ
  phase : Phase O F C
  events : List (UsageEvent O F)
  requests : List (Sent O F C)
  applied : List (TrackRequest O F C)

/-- `order` is the order in which the accumulator's entries are visited. -/
inductive Label (O F C : Type)
  | event (event : UsageEvent O F)
  | tick (order : List (AccumulatorKey O F)) (resolved : O → Option C)
  | send (outcome : Outcome)
  | flushed
  | stop (drained : List (UsageEvent O F))
  | pass (order : List (AccumulatorKey O F)) (resolved : O → Option C)

variable {O F C : Type} [DecidableEq O] [DecidableEq F]

namespace Accumulator

def total (accumulator : Accumulator O F C) : ℚ :=
  ∑ key ∈ accumulator.keys, ((accumulator.lookup key).map PendingUsage.total).getD 0

end Accumulator

def World.init : World O F C := ⟨∅, 0, .looping, [], [], []⟩

def accumulate (w : World O F C) (event : UsageEvent O F) : World O F C :=
  let key := (event.orgId, event.featureId)
  match w.accumulator.lookup key with
  | none =>
    { w with
      accumulator := w.accumulator.insert key (.new (0 + event.value) w.minted)
      minted := w.minted + 1
      events := w.events ++ [event] }
  | some pending =>
    let added : PendingUsage C :=
      if pending.customerId.isSome then
        { pending with queuedValue := pending.queuedValue + event.value }
      else { pending with value := pending.value + event.value }
    { w with
      accumulator := w.accumulator.insert key added
      events := w.events ++ [event] }

def sealEntry (resolved : O → Option C) (key : AccumulatorKey O F) (pending : PendingUsage C) :
    PendingUsage C :=
  match pending.customerId with
  | none => { pending with customerId := resolved key.1 }
  | some _ => pending

/-- Seal the entries of the keys that were looked up. -/
def sealAll (resolved : O → Option C) :
    List (AccumulatorKey O F) → Accumulator O F C → Accumulator O F C
  | [], accumulator => accumulator
  | key :: order, accumulator =>
    match accumulator.lookup key with
    | some pending =>
      sealAll resolved order (accumulator.insert key (sealEntry resolved key pending))
    | none => sealAll resolved order accumulator

/-- An entry that is not sealed is not sent. -/
def entry (accumulator : Accumulator O F C) (key : AccumulatorKey O F) :
    Option (TrackRequest O F C) :=
  match accumulator.lookup key with
  | some pending =>
    pending.customerId.map fun customer =>
      ⟨key.1, customer, key.2, pending.value, pending.idempotencyKey⟩
  | none => none

def entries (accumulator : Accumulator O F C) (order : List (AccumulatorKey O F)) :
    List (TrackRequest O F C) :=
  order.filterMap (entry accumulator)

/-- The billing service applies each key at most once. -/
def apply (applied : List (TrackRequest O F C)) (request : TrackRequest O F C) :
    List (TrackRequest O F C) :=
  if applied.any (·.idempotencyKey = request.idempotencyKey) then applied
  else applied ++ [request]

/-- The sent batch leaves the accumulator, and what was queued behind it starts under a new key. -/
def complete (w : World O F C) (key : AccumulatorKey O F) : World O F C :=
  match w.accumulator.lookup key with
  | none => w
  | some completed =>
    if 0 < completed.queuedValue then
      { w with
        accumulator := (w.accumulator.erase key).insert key (.new completed.queuedValue w.minted)
        minted := w.minted + 1 }
    else { w with accumulator := w.accumulator.erase key }

def send (w : World O F C) (request : TrackRequest O F C) (outcome : Outcome) : World O F C :=
  let sent := { w with requests := w.requests ++ [⟨request, outcome⟩] }
  match outcome with
  | .unsent => sent
  | .unanswered => { sent with applied := apply w.applied request }
  | .succeeded => complete { sent with applied := apply w.applied request } request.key

/-- Every entry is visited once. -/
def Visits (order : List (AccumulatorKey O F)) (accumulator : Accumulator O F C) : Prop :=
  order.Nodup ∧ order.toFinset = accumulator.keys

instance (order : List (AccumulatorKey O F)) (accumulator : Accumulator O F C) :
    Decidable (Visits order accumulator) :=
  inferInstanceAs (Decidable (_ ∧ _))

def droppedLine (accumulator : Accumulator O F C) (key : AccumulatorKey O F) :
    Option (Dropped O F C) :=
  (accumulator.lookup key).map fun pending =>
    ⟨key, pending.total, pending.customerId, pending.idempotencyKey⟩

def step (w : World O F C) (l : Label O F C) : Option (World O F C) :=
  match w.phase, l with
  | .looping, .event event => some (accumulate w event)
  | .looping, .tick order resolved =>
    if w.accumulator.keys = ∅ then some w
    else if Visits order w.accumulator then
      let accumulator := sealAll resolved order w.accumulator
      some { w with accumulator, phase := .flushing (entries accumulator order) }
    else none
  | .looping, .stop drained => some { drained.foldl accumulate w with phase := .final 3 }
  | .flushing (request :: rest), .send outcome =>
    some { send w request outcome with phase := .flushing rest }
  | .flushing [], .flushed => some { w with phase := .looping }
  | .final passes, .pass order resolved =>
    if ¬ Visits order w.accumulator then none
    else if passes = 0 ∨ w.accumulator.keys = ∅ then
      some { w with phase := .ended (order.filterMap (droppedLine w.accumulator)) }
    else
      let accumulator := sealAll resolved order w.accumulator
      some { w with
        accumulator
        phase := .finalFlush (passes - 1) w.accumulator.total (entries accumulator order) }
  | .finalFlush passes before (request :: rest), .send outcome =>
    some { send w request outcome with phase := .finalFlush passes before rest }
  | .finalFlush passes before [], .flushed =>
    some { w with phase := .final (if before ≤ w.accumulator.total then 0 else passes) }
  | _, _ => none

/-- The accepted usage of a key. -/
def World.accepted (w : World O F C) (key : AccumulatorKey O F) : ℚ :=
  ((w.events.filter fun event => (event.orgId, event.featureId) = key).map UsageEvent.value).sum

/-- The usage of the key's completed batches: those with a request that succeeded. -/
def World.completed (w : World O F C) (key : AccumulatorKey O F) : ℚ :=
  ((w.requests.filter fun sent => sent.request.key = key ∧ sent.outcome = .succeeded).map
    fun sent => sent.request.value).sum

/-- The usage of the key that the billing service has applied. -/
def World.billed (w : World O F C) (key : AccumulatorKey O F) : ℚ :=
  ((w.applied.filter fun request => request.key = key).map TrackRequest.value).sum

def World.pendingTotal (w : World O F C) (key : AccumulatorKey O F) : ℚ :=
  ((w.accumulator.lookup key).map PendingUsage.total).getD 0

def World.HasApplied (w : World O F C) (idempotencyKey : ℕ) : Prop :=
  ∃ request ∈ w.applied, request.idempotencyKey = idempotencyKey

instance (w : World O F C) (idempotencyKey : ℕ) : Decidable (w.HasApplied idempotencyKey) :=
  inferInstanceAs (Decidable (∃ _ ∈ _, _))

/-- The value of the key's batch, when the service has applied it and no success has come back. -/
def World.unanswered (w : World O F C) (key : AccumulatorKey O F) : ℚ :=
  match w.accumulator.lookup key with
  | none => 0
  | some pending => if w.HasApplied pending.idempotencyKey then pending.value else 0

end Maple.Usage
