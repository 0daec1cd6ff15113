import Mathlib

/-! Labelled transition systems given by a step function: reachable states, and what whole runs
keep. A label carries every choice the step leaves open. -/

namespace Maple.TransitionRun

variable {σ ℓ : Type}

/-- The states reached from `init` by steps whose labels all satisfy `ok`. -/
inductive ReachWhen (step : σ → ℓ → Option σ) (ok : σ → ℓ → Prop) (init : σ → Prop) : σ → Prop
  | start {s : σ} (h : init s) : ReachWhen step ok init s
  | next {s s' : σ} {l : ℓ} (hs : ReachWhen step ok init s) (hok : ok s l)
      (hstep : step s l = some s') : ReachWhen step ok init s'

/-- The states reached by any steps at all. -/
abbrev Reach (step : σ → ℓ → Option σ) (init : σ → Prop) : σ → Prop :=
  ReachWhen step (fun _ _ => True) init

variable {step : σ → ℓ → Option σ} {ok : σ → ℓ → Prop} {init : σ → Prop}

/-- What holds initially and is kept by every step holds in every state of every run. -/
theorem ReachWhen.invariant {inv : σ → Prop} (hinit : ∀ s, init s → inv s)
    (hstep : ∀ s l s', inv s → ok s l → step s l = some s' → inv s') {s : σ}
    (h : ReachWhen step ok init s) : inv s := by
  induction h with
  | start h => exact hinit _ h
  | next _ hok hs ih => exact hstep _ _ _ ih hok hs

/-- Take the steps of a list of labels, one after the other, as long as each satisfies `ok`. -/
def runWhen (step : σ → ℓ → Option σ) (ok : σ → ℓ → Prop) [∀ s l, Decidable (ok s l)] :
    σ → List ℓ → Option σ
  | s, [] => some s
  | s, l :: ls => if ok s l then (step s l).bind fun mid => runWhen step ok mid ls else none

abbrev runSteps (step : σ → ℓ → Option σ) : σ → List ℓ → Option σ :=
  runWhen step fun _ _ => True

/-- A run that has been computed reaches its last state. -/
theorem reachWhen_runWhen [∀ s l, Decidable (ok s l)] {s s' : σ} {ls : List ℓ}
    (hs : ReachWhen step ok init s) (hrun : runWhen step ok s ls = some s') :
    ReachWhen step ok init s' := by
  induction ls generalizing s with
  | nil =>
    obtain rfl : s = s' := by simpa [runWhen] using hrun
    exact hs
  | cons l ls ih =>
    unfold runWhen at hrun
    split_ifs at hrun with hok
    obtain ⟨mid, hmid, hrest⟩ := Option.bind_eq_some_iff.mp hrun
    exact ih (.next hs hok hmid) hrest

/-- So does one whose steps were computed without the condition, if every label meets it in every
state. -/
theorem reachWhen_runSteps {s s' : σ} {ls : List ℓ} (hs : ReachWhen step ok init s)
    (hls : ∀ l ∈ ls, ∀ s, ok s l) (hrun : runSteps step s ls = some s') :
    ReachWhen step ok init s' := by
  induction ls generalizing s with
  | nil =>
    obtain rfl : s = s' := by simpa [runSteps, runWhen] using hrun
    exact hs
  | cons l ls ih =>
    simp only [runSteps, runWhen, if_true] at hrun
    obtain ⟨mid, hmid, hrest⟩ := Option.bind_eq_some_iff.mp hrun
    exact ih (.next hs (hls l List.mem_cons_self s) hmid)
      (fun l' hl' => hls l' (List.mem_cons_of_mem l hl')) hrest

end Maple.TransitionRun
