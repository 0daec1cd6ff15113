import Maple.ProjectionActivation

/-! Memory and store stay in step as long as each activation reads the generation in time. -/

namespace Maple.Projection

open TransitionRun

variable {β κ : Type}

lemma sourceKinds_perm {specs specs' : List (SignalProjectionSpec β)} (h : specs.Perm specs') :
    sourceKinds specs = sourceKinds specs' :=
  List.toFinset_eq_of_perm _ _ (h.map _)

lemma nextOf_eq (spec : SignalProjectionSpec β) (active : List (SignalProjectionSpec β)) :
    nextOf spec active = active ++ ControlStore.enabledOnly spec := by
  unfold nextOf ControlStore.enabledOnly
  split_ifs
  · rfl
  · rw [List.append_nil]

/-- Saving a projection beside the store's others gives the store's new projections. -/
lemma nextOf_perm_load [DecidableEq β] {store store' : ControlStore β} (h : store.Sound)
    {spec : SignalProjectionSpec β} (htenant : spec.tenantId = localTenant)
    (hsave : store.saveProjection spec = .ok store') :
    (nextOf spec (othersOf store spec)).Perm (store'.loadEnabledProjections localTenant) := by
  have hload := ControlStore.loadEnabledProjections_save h hsave
  rw [htenant] at hload
  rw [nextOf_eq]
  exact hload.symm

namespace EventingState

/-- What a call has worked out so far follows from its candidate and what it listed. -/
def CallSound (host : ProjectionHost β κ) : PrepareTask β κ → Prop
  | .decoded spec => spec.tenantId = localTenant
  | .listed spec _ => spec.tenantId = localTenant
  | .compiled spec active compiled => spec.tenantId = localTenant ∧
      CompiledProjectionRegistry.compile host (nextOf spec active) = .ok compiled
  | .prepared activation => activation.spec.tenantId = localTenant ∧
      CompiledProjectionRegistry.compile host activation.next = .ok activation.compiled
  | .failed _ => True

/-- An activation that could be committed now was built beside the store's other projections. -/
def Current (s : EventingState β κ) (activation : LocalProjectionActivation β κ) : Prop :=
  activation.generation ≤ s.registry.generation ∧
  (s.committing = none → activation.generation = s.registry.generation →
    activation.next = nextOf activation.spec (othersOf s.store activation.spec))

/-- An activation that is being published lists what the store has enabled. -/
def Publishes (host : ProjectionHost β κ) (s : EventingState β κ)
    (activation : LocalProjectionActivation β κ) : Prop :=
  CompiledProjectionRegistry.compile host activation.next = .ok activation.compiled ∧
  activation.next.Perm (s.store.loadEnabledProjections localTenant)

structure ActivationInv (host : ProjectionHost β κ) (s : EventingState β κ) : Prop where
  store : s.store.Sound
  calls : ∀ id call, s.calls.get id = some call → CallSound host call
  current : ∀ id activation, s.calls.get id = some (.prepared activation) → s.Current activation
  idle : s.committing = none → s.InStep host
  publishing : ∀ activation, s.committing = some activation → s.Publishes host activation

lemma ActivationInv.of_started [DecidableEq β] {host : ProjectionHost β κ}
    {s : EventingState β κ} (h : s.Started host) : s.ActivationInv host := by
  obtain ⟨hwritten, hcalls, hcommitting, -, -, hcompile, hkinds⟩ := h
  refine ⟨hwritten.sound, ?_, ?_, ?_, ?_⟩
  · intro id call hcall
    rw [hcalls] at hcall
    cases hcall
  · intro id activation hcall
    rw [hcalls] at hcall
    cases hcall
  · intro _
    exact ⟨_, hcompile, fun kind => List.Perm.refl _, hkinds⟩
  · intro activation hactivation
    rw [hcommitting] at hactivation
    cases hactivation

/-- A call that moves on keeps the invariant if what it now holds is sound and current. -/
lemma ActivationInv.setCall {host : ProjectionHost β κ} {s : EventingState β κ}
    (h : s.ActivationInv host) {id : ℕ} {call : PrepareTask β κ} (hsound : CallSound host call)
    (hcurrent : ∀ activation, call = .prepared activation → s.Current activation) :
    ActivationInv host { s with calls := s.calls.set id call } := by
  refine ⟨h.store, ?_, ?_, h.idle, h.publishing⟩
  · intro j other hother
    by_cases hj : j = id
    · obtain rfl : call = other := by simpa [hj] using hother
      exact hsound
    · exact h.calls j other (by simpa [hj] using hother)
  · intro j activation hother
    by_cases hj : j = id
    · exact hcurrent activation (by simpa [hj] using hother)
    · exact h.current j activation (by simpa [hj] using hother)

lemma ActivationInv.setOutcomes {host : ProjectionHost β κ} {s : EventingState β κ}
    (h : s.ActivationInv host) (outcomes : List (Except String Unit)) :
    ActivationInv host { s with outcomes := outcomes } :=
  ⟨h.store, h.calls, h.current, h.idle, h.publishing⟩

lemma ActivationInv.prepare {host : ProjectionHost β κ} {s s' : EventingState β κ}
    (h : s.ActivationInv host) {id : ℕ} {spec : SignalProjectionSpec β}
    (hstep : s.prepare id spec = some s') : s'.ActivationInv host := by
  unfold EventingState.prepare at hstep
  split at hstep
  · cases hstep
  · split_ifs at hstep with htenant
    · obtain rfl := Option.some.inj hstep
      exact h.setCall trivial (by simp)
    · obtain rfl := Option.some.inj hstep
      exact h.setCall (not_not.mp htenant) (by simp)

lemma ActivationInv.list {host : ProjectionHost β κ} {s s' : EventingState β κ}
    (h : s.ActivationInv host) {id : ℕ} (hstep : s.list id = some s') : s'.ActivationInv host := by
  unfold EventingState.list at hstep
  split at hstep
  · rename_i spec hcall
    obtain rfl := Option.some.inj hstep
    have htenant := h.calls id _ hcall
    have hsound : CallSound host (.listed spec (othersOf s.store spec)) := htenant
    exact h.setCall hsound (by simp)
  · cases hstep

lemma ActivationInv.compile {host : ProjectionHost β κ} {s s' : EventingState β κ}
    (h : s.ActivationInv host) {id : ℕ} (hstep : s.compile host id = some s') :
    s'.ActivationInv host := by
  unfold EventingState.compile at hstep
  split at hstep
  · rename_i spec active hcall
    split at hstep
    · obtain rfl := Option.some.inj hstep
      exact h.setCall trivial (by simp)
    · rename_i compiled hcompiled
      obtain rfl := Option.some.inj hstep
      exact h.setCall ⟨h.calls id _ hcall, hcompiled⟩ (by simp)
  · cases hstep

lemma ActivationInv.readGeneration {host : ProjectionHost β κ} {s s' : EventingState β κ}
    (h : s.ActivationInv host) {id : ℕ} (hok : s.Timely (s.calls.get id))
    (hstep : s.readGeneration id = some s') : s'.ActivationInv host := by
  unfold EventingState.readGeneration at hstep
  split at hstep
  · rename_i spec active compiled hcall
    obtain rfl := Option.some.inj hstep
    have hcompiled := h.calls id _ hcall
    have hsound : CallSound host (.prepared
      ⟨spec, nextOf spec active, compiled, s.registry.generation⟩) := hcompiled
    refine h.setCall hsound ?_
    rintro activation hactivation
    obtain rfl := PrepareTask.prepared.inj hactivation
    refine ⟨le_rfl, fun hfree _ => ?_⟩
    rw [hcall] at hok
    rcases hok with hbusy | hothers
    · rw [hfree] at hbusy
      cases hbusy
    · rw [hothers]
  · cases hstep

/-- A commit waits for the ref, fails and changes nothing, or saves what it was built from. -/
lemma commit_cases [DecidableEq β] {s s' : EventingState β κ} {id : ℕ} {fault : Option String}
    (hstep : s.commit id fault = some s') :
    s.committing = none ∧ ∃ activation, s.calls.get id = some (.prepared activation) ∧
      ((∃ message, s' = { s with outcomes := s.outcomes ++ [.error message] }) ∨
      ∃ store, activation.generation = s.registry.generation ∧
        s.store.saveProjection activation.spec = .ok store ∧
        s' = { s with store := store, committing := some activation }) := by
  unfold commit at hstep
  split at hstep
  · rename_i activation hfree hcall
    refine ⟨hfree, activation, hcall, ?_⟩
    split_ifs at hstep with hstale
    · exact Or.inl ⟨_, (Option.some.inj hstep).symm⟩
    · split at hstep
      · exact Or.inl ⟨_, (Option.some.inj hstep).symm⟩
      · split at hstep
        · exact Or.inl ⟨_, (Option.some.inj hstep).symm⟩
        · rename_i store hsave
          exact Or.inr ⟨store, not_not.mp hstale, hsave, (Option.some.inj hstep).symm⟩
  · cases hstep

lemma ActivationInv.commit [DecidableEq β] {host : ProjectionHost β κ} {s s' : EventingState β κ}
    (h : s.ActivationInv host) {id : ℕ} {fault : Option String}
    (hstep : s.commit id fault = some s') : s'.ActivationInv host := by
  obtain ⟨hfree, activation, hcall, ⟨message, rfl⟩ | ⟨store, hfresh, hsave, rfl⟩⟩ :=
    commit_cases hstep
  · exact h.setOutcomes _
  · have hnext := (h.current id activation hcall).2 hfree hfresh
    obtain ⟨htenant, hcompile⟩ := h.calls id _ hcall
    refine ⟨h.store.save hsave, h.calls, ?_, ?_, ?_⟩
    · intro j other hother
      exact ⟨(h.current j other hother).1, fun hnone => nomatch hnone⟩
    · intro hnone
      cases hnone
    · intro other hother
      obtain rfl := Option.some.inj hother
      refine ⟨hcompile, ?_⟩
      rw [hnext]
      exact nextOf_perm_load h.store htenant hsave

lemma ActivationInv.publish {host : ProjectionHost β κ} {s s' : EventingState β κ}
    (h : s.ActivationInv host) (hstep : s.publish = some s') : s'.ActivationInv host := by
  unfold EventingState.publish at hstep
  split at hstep
  · rename_i activation hactivation
    obtain rfl := Option.some.inj hstep
    obtain ⟨hcompile, hperm⟩ := h.publishing activation hactivation
    refine ⟨h.store, h.calls, ?_, ?_, ?_⟩
    · intro id other hother
      have hold := (h.current id other hother).1
      refine ⟨Nat.le_succ_of_le hold, fun _ hfresh => ?_⟩
      -- Everything prepared before the commit is now a generation behind.
      have hbehind : other.generation ≠ s.registry.generation + 1 := by omega
      exact absurd hfresh hbehind
    · intro _
      obtain ⟨compiled, hcompiled, hsame⟩ := CompiledProjectionRegistry.compile_perm hperm hcompile
      exact ⟨compiled, hcompiled, hsame, sourceKinds_perm hperm⟩
    · intro other hother
      cases hother
  · cases hstep

/-- In a run whose activations read the generation in time, the registry is what the store's
enabled projections compile to whenever no commit is under way, and right after each commit; a
commit that fails changes neither. -/
theorem inStep_of_readsInTime [DecidableEq β] (host : ProjectionHost β κ) {s : EventingState β κ}
    (hrun : ReachWhen (step host) ReadsInTime (Started host) s) :
    (s.committing = none → s.InStep host) ∧
    (∀ s', s.step host .publish = some s' → s'.InStep host) ∧
    ∀ id fault s', s.step host (.commit id fault) = some s' → s'.committing = none →
      s'.registry = s.registry ∧ s'.store = s.store := by
  have hinv : s.ActivationInv host := by
    refine hrun.invariant (fun _ h => ActivationInv.of_started h) ?_
    intro s l s' h hok hstep
    cases l with
    | prepare id spec => exact h.prepare hstep
    | list id => exact h.list hstep
    | compile id => exact h.compile hstep
    | readGeneration id => exact h.readGeneration hok hstep
    | commit id fault => exact h.commit hstep
    | publish => exact h.publish hstep
  refine ⟨hinv.idle, ?_, ?_⟩
  · intro s' hstep
    refine (hinv.publish hstep).idle ?_
    simp only [step, publish] at hstep
    split at hstep
    · obtain rfl := Option.some.inj hstep
      rfl
    · cases hstep
  · intro id fault s' hstep hfree
    obtain ⟨-, activation, -, ⟨message, rfl⟩ | ⟨store, -, -, rfl⟩⟩ := commit_cases hstep
    · exact ⟨rfl, rfl⟩
    · cases hfree

def plainHost : ProjectionHost Unit Unit where
  checkSpec _ := .ok ()
  prepare _ := .ok ()

def logProjection (id : String) : SignalProjectionSpec Unit where
  id := id
  revision := 1
  enabled := true
  tenantId := localTenant
  sourceKind := "otlp.log"
  detail := ()

def freshState : EventingState Unit Unit where
  store := ControlStore.empty
  registry := ⟨CompiledProjectionRegistry.empty, ∅, 0⟩
  calls := SeqMap.empty
  committing := none
  outcomes := []

lemma freshState_started : freshState.Started plainHost :=
  ⟨.empty, rfl, rfl, rfl, rfl, rfl, rfl⟩

def activationSteps (id : ℕ) : List (ActivationLabel Unit) :=
  [.list id, .compile id, .readGeneration id, .commit id none, .publish]

/-- How many projections the registry has, and how many the store's compile to. -/
def logCounts (s : EventingState Unit Unit) : Bool × ℕ × Option ℕ :=
  (s.committing.isNone, (s.registry.compiled.bySourceKind "otlp.log").length,
    (CompiledProjectionRegistry.compile plainHost
      (s.store.loadEnabledProjections localTenant)).toOption.map fun compiled =>
        (compiled.bySourceKind "otlp.log").length)

/-- Two activations one after the other. -/
theorem inStep_of_readsInTime_pair : ∃ s,
    ReachWhen (step plainHost) ReadsInTime (Started plainHost) s ∧
    s.logCounts = (true, 2, some 2) ∧ s.InStep plainHost := by
  have hview : (runWhen (step plainHost) ReadsInTime freshState
      ([.prepare 0 (logProjection "errors"), .prepare 1 (logProjection "slow")] ++
        activationSteps 0 ++ activationSteps 1)).map logCounts = some (true, 2, some 2) := by
    decide
  obtain ⟨s, hrun, hcounts⟩ := Option.map_eq_some_iff.mp hview
  have hreach := reachWhen_runWhen (.start freshState_started) hrun
  have hfree : s.committing = none := by
    have hnone : s.committing.isNone = true := congrArg (·.1) hcounts
    simpa using hnone
  exact ⟨s, hreach, hcounts, (inStep_of_readsInTime plainHost hreach).1 hfree⟩

/-- Call 0 lists; call 1 lists, and its activation is committed; then call 0 compiles what it
listed, reads the new generation and is committed too: projection 1 is gone from the registry. -/
theorem not_inStep_listed_before_commit :
    ¬ ∀ s, Reach (step plainHost) (Started plainHost) s → s.committing = none →
      s.InStep plainHost := by
  intro hclaim
  have hview : (runSteps (step plainHost) freshState
      ([.prepare 0 (logProjection "errors"), .prepare 1 (logProjection "slow"), .list 0] ++
        activationSteps 1 ++ (activationSteps 0).tail)).map logCounts =
      some (true, 1, some 2) := by
    decide
  obtain ⟨s, hrun, hcounts⟩ := Option.map_eq_some_iff.mp hview
  have hreach := reachWhen_runWhen (.start freshState_started) hrun
  have hfree : s.committing = none := by
    have hnone : s.committing.isNone = true := congrArg (·.1) hcounts
    simpa using hnone
  obtain ⟨compiled, hcompiled, hsame, -⟩ := hclaim s hreach hfree
  have hlength := (hsame "otlp.log").length_eq
  have hone : (s.registry.compiled.bySourceKind "otlp.log").length = 1 :=
    congrArg (·.2.1) hcounts
  have htwo : some (compiled.bySourceKind "otlp.log").length = some 2 := by
    have hboth := congrArg (·.2.2) hcounts
    simpa [logCounts, hcompiled, Except.toOption] using hboth
  simp [hone] at hlength
  simp [← hlength] at htwo

end EventingState

end Maple.Projection
