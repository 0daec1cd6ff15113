import Maple.AlertLifecycle

/-! What the plan of a tick may do to the incident, and the order of transitions in every run. -/

namespace Maple.Alerting

/-- A plan fits the severity that was open before it: only a closed incident opens, only an open
one goes on, moves to another tier or resolves, each with its notification or the reason for none. -/
def Lawful (openSeverity : Option AlertSeverity) (plan : AlertLifecyclePlan) : Prop :=
  match plan.transition with
  | .none => plan.severity.isSome = openSeverity.isSome ∧ plan.eventType = none
  | .opened => openSeverity = none ∧ plan.severity.isSome ∧ (plan.eventType = some .trigger ∨
      plan.eventType = none ∧ plan.notificationSuppression = some .flapping)
  | .continued => openSeverity.isSome ∧ plan.severity.isSome ∧
      (plan.eventType = none ∨ plan.eventType = some .renotify)
  | .escalated => plan.eventType = some .trigger ∧ ∃ s t, openSeverity = some s ∧
      plan.severity = some t ∧ ALERT_SEVERITY_RANK s < ALERT_SEVERITY_RANK t
  | .deescalated => plan.eventType = some .renotify ∧ ∃ s t, openSeverity = some s ∧
      plan.severity = some t ∧ ALERT_SEVERITY_RANK t < ALERT_SEVERITY_RANK s
  | .resolved => openSeverity.isSome ∧ plan.severity = none ∧ (plan.eventType = some .resolve ∨
      plan.eventType = none ∧ plan.notificationSuppression = some .flap_resolution)

variable {input : AlertLifecycleInput} {incident : AlertLifecycleIncident}

lemma current_isSome (input : AlertLifecycleInput) :
    input.current.isSome = (input.openIncident.map (·.severity)).isSome := by
  rw [AlertLifecycleInput.current, Option.isSome_map, Option.isSome_map]

lemma lawful_resolution (state : AlertLifecycleState) (severity : AlertSeverity) :
    Lawful (some severity) (resolutionPlan state incident) := by
  refine ⟨rfl, rfl, ?_⟩
  unfold resolutionPlan
  dsimp only
  split_ifs
  · exact .inr ⟨rfl, rfl⟩
  · exact .inl rfl

/-- A tier that is not the incident's own ranks above or below it. -/
lemma maxSeverity_ne {next severity : AlertSeverity} (h : next ≠ severity) :
    if maxSeverity (some next) (some severity) = some next then
      ALERT_SEVERITY_RANK severity < ALERT_SEVERITY_RANK next
    else ALERT_SEVERITY_RANK next < ALERT_SEVERITY_RANK severity := by
  cases next <;> cases severity <;> first | exact absurd rfl h | decide

lemma lawful_advance (input : AlertLifecycleInput) (state : AlertLifecycleState)
    (next : Option AlertSeverity) :
    Lawful (input.openIncident.map (·.severity)) (input.advance state next) := by
  have hcurrent := current_isSome input
  unfold AlertLifecycleInput.advance
  cases hopen : input.openIncident with
  | none =>
    cases next with
    | none => exact ⟨rfl, rfl⟩
    | some next =>
      refine ⟨rfl, rfl, ?_⟩
      dsimp only
      split_ifs
      · exact .inr ⟨rfl, rfl⟩
      · exact .inl rfl
  | some incident =>
    rw [hopen] at hcurrent
    cases next with
    | none =>
      dsimp only
      split_ifs
      · exact ⟨hcurrent, rfl⟩
      · exact lawful_resolution state _
    | some next =>
      dsimp only
      by_cases hmoved : next ≠ incident.severity ∧
          (some next ≠ input.current ∨ input.evaluation.status = .breached)
      · have hrank := maxSeverity_ne hmoved.1
        rw [if_pos hmoved]
        split_ifs at hrank ⊢ with hmax
        · exact ⟨rfl, _, _, rfl, rfl, hrank⟩
        · exact ⟨rfl, _, _, rfl, rfl, hrank⟩
      · rw [if_neg hmoved]
        by_cases hbreached : input.evaluation.status = .breached
        · rw [if_pos hbreached]
          refine ⟨rfl, rfl, ?_⟩
          dsimp only
          split_ifs
          · exact .inr rfl
          · exact .inl rfl
        · rw [if_neg hbreached]
          exact ⟨rfl, rfl⟩

lemma lawful_plan (input : AlertLifecycleInput) :
    Lawful (input.openIncident.map (·.severity)) (planAlertLifecycle input) := by
  have hcurrent := current_isSome input
  unfold planAlertLifecycle
  by_cases hskipped : input.evaluation.status = .skipped
  · dsimp only
    rw [if_pos hskipped]
    split
    · rename_i hopen
      rw [hopen] at hcurrent ⊢
      split_ifs
      · exact lawful_resolution _ _
      · exact ⟨hcurrent, rfl⟩
    · exact ⟨hcurrent, rfl⟩
  · dsimp only
    rw [if_neg hskipped]
    exact lawful_advance input _ _

/-! ### Runs -/

/-- Whether a plan opens an incident or resolves one. -/
def AlertLifecyclePlan.turn (plan : AlertLifecyclePlan) : Option Bool :=
  match plan.transition with
  | .opened => some true
  | .resolved => some false
  | _ => none

def LawfulRun : Option AlertSeverity → List AlertLifecyclePlan → Prop
  | _, [] => True
  | openSeverity, plan :: plans =>
    Lawful openSeverity plan ∧ LawfulRun plan.group.openSeverity plans

variable {openSeverity : Option AlertSeverity} {plan : AlertLifecyclePlan}

/-- What is open after a plan. -/
lemma Lawful.openAfter (h : Lawful openSeverity plan) :
    (∀ turn, plan.turn = some turn → turn = openSeverity.isNone) ∧
      plan.group.openSeverity.isSome = plan.turn.getD openSeverity.isSome := by
  unfold Lawful at h
  unfold AlertLifecyclePlan.turn AlertLifecyclePlan.group
  cases htransition : plan.transition with
  | escalated | deescalated =>
    rw [htransition] at h
    obtain ⟨-, s, t, rfl, hsome, -⟩ := h
    simp [hsome]
  | none | opened | continued | resolved =>
    rw [htransition] at h
    dsimp only at h ⊢
    simp [h]

/-- In every run the plans fit the incident that the ones before have left, and openings and
resolutions take turns. -/
theorem replayPlans_lawful (policy : AlertLifecyclePolicy) (group : TrackedGroup)
    (ticks : List HostTick) :
    let plans := replayPlans policy group ticks
    LawfulRun group.openSeverity plans ∧
      (group.openSeverity.isSome :: plans.filterMap AlertLifecyclePlan.turn).IsChain (· ≠ ·) := by
  induction ticks generalizing group with
  | nil => exact ⟨trivial, .singleton _⟩
  | cons tick ticks ih =>
    have hlawful : Lawful group.openSeverity (planAlertLifecycle (group.input policy tick)) := by
      have hplan := lawful_plan (group.input policy tick)
      rwa [TrackedGroup.input, Option.map_map, Function.comp_def, Option.map_id'] at hplan
    obtain ⟨hrun, hchain⟩ := ih (planAlertLifecycle (group.input policy tick)).group
    obtain ⟨hturn, hafter⟩ := hlawful.openAfter
    rw [hafter] at hchain
    refine ⟨⟨hlawful, hrun⟩, ?_⟩
    rw [replayPlans]
    cases hplan : (planAlertLifecycle (group.input policy tick)).turn with
    | none =>
      rw [hplan] at hchain
      rwa [List.filterMap_cons_none hplan]
    | some turn =>
      rw [hplan] at hchain
      rw [List.filterMap_cons_some hplan, List.isChain_cons_cons]
      refine ⟨?_, hchain⟩
      rw [hturn turn hplan, ← Option.not_isSome]
      cases group.openSeverity.isSome <;> decide

end Maple.Alerting
