import Maple.ProjectionRegistry
import Maple.SeqMap
import Maple.TransitionRun

/-! Projection activations running side by side: each is prepared from what the store lists, and
committed if the registry still has the generation it was prepared at. -/

namespace Maple.Projection

open TransitionRun

variable {β κ : Type}

def localTenant : String := "local"

structure RegistryState (β κ : Type) where
  compiled : CompiledProjectionRegistry β κ
  activeSourceKinds : Finset String
  generation : ℕ

structure LocalProjectionActivation (β κ : Type) where
  spec : SignalProjectionSpec β
  next : List (SignalProjectionSpec β)
  compiled : CompiledProjectionRegistry β κ
  generation : ℕ

/-- Where a `prepareActivation` call stands, between its effects. -/
inductive PrepareTask (β κ : Type)
  | decoded (spec : SignalProjectionSpec β)
  | listed (spec : SignalProjectionSpec β) (active : List (SignalProjectionSpec β))
  | compiled (spec : SignalProjectionSpec β) (active : List (SignalProjectionSpec β))
      (compiled : CompiledProjectionRegistry β κ)
  | prepared (activation : LocalProjectionActivation β κ)
  | failed (message : String)

/-- `committing` is the activation whose save has gone through while the ref is still held. -/
structure EventingState (β κ : Type) where
  store : ControlStore β
  registry : RegistryState β κ
  calls : SeqMap (PrepareTask β κ)
  committing : Option (LocalProjectionActivation β κ)
  outcomes : List (Except String Unit)

inductive ActivationLabel (β : Type)
  | prepare (id : ℕ) (spec : SignalProjectionSpec β)
  | list (id : ℕ)
  | compile (id : ℕ)
  | readGeneration (id : ℕ)
  | commit (id : ℕ) (fault : Option String)
  | publish

def sourceKinds (specs : List (SignalProjectionSpec β)) : Finset String :=
  (specs.map (·.sourceKind)).toFinset

/-- The projections a candidate would run beside. -/
def othersOf (store : ControlStore β) (spec : SignalProjectionSpec β) :
    List (SignalProjectionSpec β) :=
  (store.loadEnabledProjections localTenant).filter fun candidate => candidate.id ≠ spec.id

def nextOf (spec : SignalProjectionSpec β) (active : List (SignalProjectionSpec β)) :
    List (SignalProjectionSpec β) :=
  if spec.enabled then active ++ [spec] else active

namespace EventingState

def prepare (s : EventingState β κ) (id : ℕ) (spec : SignalProjectionSpec β) :
    Option (EventingState β κ) :=
  match s.calls.get id with
  | some _ => none
  | none =>
    if spec.tenantId ≠ localTenant then
      let message := s!"Maple Local only accepts projections for tenant {localTenant}"
      some { s with calls := s.calls.set id (.failed message) }
    else some { s with calls := s.calls.set id (.decoded spec) }

def list (s : EventingState β κ) (id : ℕ) : Option (EventingState β κ) :=
  match s.calls.get id with
  | some (.decoded spec) =>
    some { s with calls := s.calls.set id (.listed spec (othersOf s.store spec)) }
  | _ => none

def compile (host : ProjectionHost β κ) (s : EventingState β κ) (id : ℕ) :
    Option (EventingState β κ) :=
  match s.calls.get id with
  | some (.listed spec active) =>
    match CompiledProjectionRegistry.compile host (nextOf spec active) with
    | .error message => some { s with calls := s.calls.set id (.failed message) }
    | .ok compiled => some { s with calls := s.calls.set id (.compiled spec active compiled) }
  | _ => none

def readGeneration (s : EventingState β κ) (id : ℕ) : Option (EventingState β κ) :=
  match s.calls.get id with
  | some (.compiled spec active compiled) =>
    let activation := ⟨spec, nextOf spec active, compiled, s.registry.generation⟩
    some { s with calls := s.calls.set id (.prepared activation) }
  | _ => none

/-- The part of `commitActivation` up to the save. It waits while another one holds the ref; a
`fault` is a database error of the save. -/
def commit [DecidableEq β] (s : EventingState β κ) (id : ℕ) (fault : Option String) :
    Option (EventingState β κ) :=
  match s.committing, s.calls.get id with
  | none, some (.prepared activation) =>
    if activation.generation ≠ s.registry.generation then
      some { s with outcomes := s.outcomes ++
        [.error "projection registry changed during activation; retry the request"] }
    else
      match fault with
      | some message => some { s with outcomes := s.outcomes ++ [.error message] }
      | none =>
        match s.store.saveProjection activation.spec with
        | .error message => some { s with outcomes := s.outcomes ++ [.error message] }
        | .ok store => some { s with store := store, committing := some activation }
  | _, _ => none

/-- The ref takes its new value and is let go: the commit has succeeded. -/
def publish (s : EventingState β κ) : Option (EventingState β κ) :=
  match s.committing with
  | some activation =>
    some { s with
      registry := {
        compiled := activation.compiled
        activeSourceKinds := sourceKinds activation.next
        generation := s.registry.generation + 1 }
      committing := none
      outcomes := s.outcomes ++ [.ok ()] }
  | none => none

def step [DecidableEq β] (host : ProjectionHost β κ) (s : EventingState β κ) :
    ActivationLabel β → Option (EventingState β κ)
  | .prepare id spec => s.prepare id spec
  | .list id => s.list id
  | .compile id => s.compile host id
  | .readGeneration id => s.readGeneration id
  | .commit id fault => s.commit id fault
  | .publish => s.publish

/-- `LocalEventingRuntime.make` over a store that earlier saves have written. -/
def Started [DecidableEq β] (host : ProjectionHost β κ) (s : EventingState β κ) : Prop :=
  s.store.Written ∧ s.calls = SeqMap.empty ∧ s.committing = none ∧ s.outcomes = [] ∧
  s.registry.generation = 0 ∧
  CompiledProjectionRegistry.compile host (s.store.loadEnabledProjections localTenant) =
    .ok s.registry.compiled ∧
  s.registry.activeSourceKinds = sourceKinds (s.store.loadEnabledProjections localTenant)

/-- The registry holds what compiling the store's enabled projections gives. -/
def InStep (host : ProjectionHost β κ) (s : EventingState β κ) : Prop :=
  ∃ compiled,
    CompiledProjectionRegistry.compile host (s.store.loadEnabledProjections localTenant) =
      .ok compiled ∧
    s.registry.compiled.Same compiled ∧
    s.registry.activeSourceKinds = sourceKinds (s.store.loadEnabledProjections localTenant)

/-- A call may read the generation: a commit is under way, or the store's other projections are
still the ones the call has listed. -/
def Timely (s : EventingState β κ) : Option (PrepareTask β κ) → Prop
  | some (.compiled spec active _) => s.committing.isSome ∨ othersOf s.store spec = active
  | _ => True

def ReadsInTime (s : EventingState β κ) : ActivationLabel β → Prop
  | .readGeneration id => s.Timely (s.calls.get id)
  | _ => True

instance [DecidableEq β] (s : EventingState β κ) :
    (call : Option (PrepareTask β κ)) → Decidable (s.Timely call)
  | some (.compiled spec active _) =>
    inferInstanceAs (Decidable (s.committing.isSome ∨ othersOf s.store spec = active))
  | none | some (.decoded _) | some (.listed _ _) | some (.prepared _) | some (.failed _) =>
    .isTrue trivial

instance [DecidableEq β] (s : EventingState β κ) :
    (l : ActivationLabel β) → Decidable (s.ReadsInTime l)
  | .readGeneration id => inferInstanceAs (Decidable (s.Timely (s.calls.get id)))
  | .prepare _ _ | .list _ | .compile _ | .commit _ _ | .publish => .isTrue trivial

end EventingState

end Maple.Projection
