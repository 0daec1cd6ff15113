import Maple.AlertLifecycle

/-! A tiered alert rule read off everything it has ever seen: the severity each tick calls for by
the whole record of evaluated ticks, which the bounded history of coded ticks stands for. -/

namespace Maple.Alerting
open TrailingRun

/-- The levels of a tick, one for each tier of the rule. -/
abbrev Levels := List AlertTierLevel

def statusIn (levels : Levels) (severity : AlertSeverity) : AlertTierStatus :=
  ((levels.find? fun level => level.severity = severity).map (·.status)).getD .clear

/-- No tier has two levels. -/
def Distinct (levels : Levels) : Prop := (levels.map (·.severity)).Nodup

/-- The two bits of a tier are its own. -/
lemma tierStatusAt_encodeTick {levels : Levels} (h : Distinct levels) (severity : AlertSeverity) :
    tierStatusAt (encodeTick levels) severity = statusIn levels severity := by
  rcases levels with _ | ⟨⟨first, status⟩, _ | ⟨⟨second, status'⟩, _ | ⟨⟨third, _⟩, _⟩⟩⟩
  · cases severity <;> rfl
  · cases severity <;> cases first <;> cases status <;> rfl
  · have hne : first ≠ second := by simpa [Distinct] using h
    cases first <;> cases second
    all_goals first
      | exact absurd rfl hne
      | cases severity <;> cases status <;> cases status' <;> rfl
  · simp only [Distinct, List.map_cons, List.nodup_cons, List.mem_cons, not_or] at h
    cases first <;> cases second <;> cases third <;> simp at h

/-! ### What the whole record says -/

section record
variable (policy : TieredHysteresisPolicy) (record : List Levels)

/-- The newest tick breaches the tier, and N of the last M do. -/
def MeetsOpening (severity : AlertSeverity) : Prop :=
  (record.getLast?.any fun newest => statusIn newest severity = .breach) ∧
    policy.breachesToOpen ≤
      (lastN policy.breachWindow record).countP fun levels => statusIn levels severity = .breach

/-- Fewer than R ticks, or one of the last R not clear of the tier. -/
def NotYetClear (severity : AlertSeverity) : Prop :=
  record.length < policy.healthyToResolve ∨
    ∃ levels ∈ lastN policy.healthyToResolve record, statusIn levels severity ≠ .clear

/-- The tier may be the severity of the incident after the newest tick. -/
def Qualifies (current : Option AlertSeverity) (severity : AlertSeverity) : Prop :=
  MeetsOpening policy record severity ∨
    (current.any fun c => ALERT_SEVERITY_RANK severity ≤ ALERT_SEVERITY_RANK c) ∧
      NotYetClear policy record severity

instance (severity : AlertSeverity) : Decidable (NotYetClear policy record severity) := by
  unfold NotYetClear
  infer_instance

instance (current : Option AlertSeverity) (severity : AlertSeverity) :
    Decidable (Qualifies policy record current severity) := by
  unfold Qualifies MeetsOpening
  infer_instance

end record

/-- The highest of the tiers that qualifies, if one does. -/
def IsHighest (severities : List AlertSeverity) (qualifies : AlertSeverity → Prop) :
    Option AlertSeverity → Prop
  | none => ∀ severity ∈ severities, ¬ qualifies severity
  | some next => next ∈ severities ∧ qualifies next ∧
      ∀ severity ∈ severities, qualifies severity →
        ALERT_SEVERITY_RANK severity ≤ ALERT_SEVERITY_RANK next

/-! ### The bounded history -/

/-- What a history of the policy's length keeps of the record. -/
def keptHistory (policy : TieredHysteresisPolicy) (record : List Levels) : List ℕ :=
  (lastN (historyLength policy) record).map encodeTick

section kept
variable {policy : TieredHysteresisPolicy} {record : List Levels}

lemma appendTick_keptHistory (hpos : 0 < policy.breachesToOpen) (record : List Levels)
    (levels : Levels) :
    appendTick (keptHistory policy record) (encodeTick levels) policy =
      keptHistory policy (record ++ [levels]) := by
  have hlength : historyLength policy ≠ 0 := by
    simp only [historyLength]
    omega
  rw [appendTick, sliceLast, if_neg hlength, keptHistory, keptHistory, ← lastN_map, ← lastN_map,
    lastN_append_lastN, List.map_append, List.map_singleton]

/-- The breaches counted in the window are those of the record. -/
lemma countP_keptHistory (hdistinct : ∀ levels ∈ record, Distinct levels)
    (hwindow : 0 < policy.breachWindow) (severity : AlertSeverity) :
    ((sliceLast policy.breachWindow (keptHistory policy record)).countP
        fun code => tierStatusAt code severity = .breach) =
      (lastN policy.breachWindow record).countP
        fun levels => statusIn levels severity = .breach := by
  have hle : policy.breachWindow ≤ historyLength policy := by simp [historyLength]
  rw [sliceLast, if_neg hwindow.ne', keptHistory, lastN_map, lastN_lastN hle, List.countP_map]
  refine List.countP_congr fun levels hlevels => ?_
  simp [tierStatusAt_encodeTick (hdistinct levels (mem_of_mem_lastN hlevels))]

/-- The clear run is as short as the record's. -/
lemma clear_keptHistory (hdistinct : ∀ levels ∈ record, Distinct levels)
    (severity : AlertSeverity) :
    trailingRun (fun code => tierStatusAt code severity = .clear) (keptHistory policy record) <
        policy.healthyToResolve ↔ NotYetClear policy record severity := by
  have hle : policy.healthyToResolve ≤ historyLength policy := by simp [historyLength]
  have hrun : trailingRun (fun code => tierStatusAt code severity = .clear)
      (keptHistory policy record) = min (historyLength policy)
        (trailingRun (fun levels => statusIn levels severity = .clear) record) := by
    rw [keptHistory, ← lastN_map, trailingRun_lastN, trailingRun_map]
    congr 1
    refine trailingRun_congr fun levels hlevels => ?_
    simp [tierStatusAt_encodeTick (hdistinct levels hlevels)]
  have hnot : NotYetClear policy record severity ↔ ¬ policy.healthyToResolve ≤
      trailingRun (fun levels => statusIn levels severity = .clear) record := by
    rw [le_trailingRun_iff, NotYetClear]
    simp only [decide_eq_true_eq, not_and_or, not_le, not_forall, exists_prop]
  rw [hrun, hnot]
  omega

lemma getLast?_keptHistory (hpos : 0 < policy.breachesToOpen) (record : List Levels) :
    (keptHistory policy record).getLast? = record.getLast?.map encodeTick := by
  have hlength : 0 < historyLength policy := by
    simp only [historyLength]
    omega
  rw [keptHistory, List.getLast?_map, getLast?_lastN hlength]

end kept

/-- The first of the tiers by falling rank that passes is the highest that passes. -/
lemma isHighest_find? (severities : List AlertSeverity) (p : AlertSeverity → Bool)
    (qualifies : AlertSeverity → Prop)
    (hp : ∀ severity, p severity = true ↔ qualifies severity) :
    IsHighest severities qualifies ((severities.mergeSort fun a b =>
      decide (ALERT_SEVERITY_RANK b ≤ ALERT_SEVERITY_RANK a)).find? p) := by
  generalize hordered : (severities.mergeSort fun a b =>
    decide (ALERT_SEVERITY_RANK b ≤ ALERT_SEVERITY_RANK a)) = ordered
  have hmem : ∀ severity, severity ∈ ordered ↔ severity ∈ severities := by
    intro severity
    rw [← hordered, List.mem_mergeSort]
  have hsorted : ordered.Pairwise fun a b =>
      decide (ALERT_SEVERITY_RANK b ≤ ALERT_SEVERITY_RANK a) = true := by
    rw [← hordered]
    refine List.pairwise_mergeSort ?_ ?_ severities
    · intro a b c hab hbc
      simp only [decide_eq_true_eq] at hab hbc ⊢
      omega
    · intro a b
      simp only [Bool.or_eq_true, decide_eq_true_eq]
      omega
  cases hfind : ordered.find? p with
  | none =>
    intro severity hseverity hqualifies
    exact List.find?_eq_none.mp hfind severity ((hmem severity).mpr hseverity)
      ((hp severity).mpr hqualifies)
  | some next =>
    obtain ⟨hpass, before, after, hsplit, hbefore⟩ := List.find?_eq_some_iff_append.mp hfind
    refine ⟨(hmem next).mp (List.mem_of_find?_eq_some hfind), (hp next).mp hpass, ?_⟩
    intro severity hseverity hqualifies
    have hin := (hmem severity).mpr hseverity
    rw [hsplit] at hin hsorted
    rcases List.mem_append.mp hin with hin | hin
    · have hfail := hbefore severity hin
      simp [(hp severity).mpr hqualifies] at hfail
    · rcases List.mem_cons.mp hin with rfl | hin
      · exact le_rfl
      · have hafter := (List.pairwise_cons.mp (List.pairwise_append.mp hsorted).2.1).1
        simpa using hafter severity hin

/-- The severity read off the kept history is the highest tier that the record qualifies. -/
lemma resolve_keptHistory {policy : TieredHysteresisPolicy} {record : List Levels}
    {newest : Levels} (hpos : 0 < policy.breachesToOpen) (hwindow : 0 < policy.breachWindow)
    (hdistinct : ∀ levels ∈ record ++ [newest], Distinct levels) (severities : List AlertSeverity)
    (current : Option AlertSeverity) :
    IsHighest severities (Qualifies policy (record ++ [newest]) current)
      (resolveActiveSeverity (keptHistory policy (record ++ [newest])) severities current
        policy) := by
  have hlast : (keptHistory policy (record ++ [newest])).getLast? = some (encodeTick newest) := by
    rw [getLast?_keptHistory hpos]
    simp
  have hrank : ∀ severity, ALERT_SEVERITY_RANK severity ≤ (current.map ALERT_SEVERITY_RANK).getD 0 ↔
      (current.any fun c => ALERT_SEVERITY_RANK severity ≤ ALERT_SEVERITY_RANK c) = true := by
    intro severity
    cases current with
    | none => cases severity <;> simp [ALERT_SEVERITY_RANK]
    | some c => simp
  unfold resolveActiveSeverity
  rw [hlast]
  dsimp only
  refine isHighest_find? severities _ _ fun severity => ?_
  rw [Bool.or_eq_true, Bool.and_eq_true, Bool.and_eq_true, decide_eq_true_eq, decide_eq_true_eq,
    decide_eq_true_eq, decide_eq_true_eq, countP_keptHistory hdistinct hwindow,
    clear_keptHistory hdistinct, hrank, Qualifies, MeetsOpening,
    tierStatusAt_encodeTick (hdistinct newest (by simp))]
  simp

/-! ### Runs -/

def TrackedGroup.empty : TrackedGroup := ⟨⟨0, 0, some []⟩, none⟩

/-- The levels of the ticks that were not skipped. -/
def recordOf (ticks : List HostTick) : List Levels :=
  (ticks.filter fun tick => tick.evaluation.status ≠ .skipped).map (·.evaluation.levels)

/-- A recovery read from an empty window, which the host has not let resolve. -/
def HostTick.held (tick : HostTick) : Bool :=
  tick.evaluation.derivedFromNoData && tick.allowNoDataResolution ≠ some true

/-- Severity and transition of an evaluated tick that leaves the incident at `next`. -/
def HostTick.chosen (tick : HostTick) : Option AlertSeverity → Option AlertSeverity →
    Option AlertSeverity × AlertIncidentTransition
  | none, none => (none, .none)
  | none, some next => (some next, .opened)
  | some current, none => if tick.held then (some current, .none) else (none, .resolved)
  | some current, some next =>
    (some next,
      if ALERT_SEVERITY_RANK current < ALERT_SEVERITY_RANK next then .escalated
      else if ALERT_SEVERITY_RANK next < ALERT_SEVERITY_RANK current then .deescalated
      else if tick.evaluation.status = .breached then .continued
      else .none)

/-- A skipped tick leaves the incident, unless the window was empty and the host lets that
resolve it. -/
def HostTick.chosenSkipped (tick : HostTick) (current : Option AlertSeverity) :
    Option AlertSeverity × AlertIncidentTransition :=
  if tick.evaluation.skipReason = some .no_data ∧ current.isSome ∧
      tick.allowNoDataResolution = some true then (none, .resolved)
  else (current, .none)

/-- What the group keeps of the record. -/
structure Keeps (policy : AlertLifecyclePolicy) (record : List Levels) (group : TrackedGroup) :
    Prop where
  history : group.state.history = some (keptHistory policy.hysteresis record)
  severity : ∀ current, group.openSeverity = some current → current ∈ policy.severities
  distinct : ∀ levels ∈ record, Distinct levels

section run
variable {policy : AlertLifecyclePolicy} {record : List Levels} {group : TrackedGroup}

lemma Keeps.current (h : Keeps policy record group) (tick : HostTick) :
    (group.input policy tick).current = group.openSeverity := by
  unfold AlertLifecycleInput.current
  cases hopen : group.openSeverity with
  | none => simp [TrackedGroup.input, hopen]
  | some current =>
    have hin := h.severity current hopen
    simp [TrackedGroup.input, hopen, nearestSeverity, hin]

/-- The plan of an evaluated tick, from the record with the tick. -/
lemma Keeps.evaluated (h : Keeps policy record group)
    (hpos : 0 < policy.consecutiveBreachesRequired) (hwindow : 0 < policy.breachWindow)
    {tick : HostTick} (hstatus : tick.evaluation.status ≠ .skipped)
    (hdistinct : Distinct tick.evaluation.levels) :
    ∃ next, IsHighest policy.severities
        (Qualifies policy.hysteresis (record ++ [tick.evaluation.levels]) group.openSeverity) next ∧
      ∃ state : AlertLifecycleState,
        state.history = keptHistory policy.hysteresis (record ++ [tick.evaluation.levels]) ∧
        planAlertLifecycle (group.input policy tick) =
          (group.input policy tick).advance state next := by
  have hall : ∀ levels ∈ record ++ [tick.evaluation.levels], Distinct levels := by
    intro levels hlevels
    rcases List.mem_append.mp hlevels with hold | hnew
    · exact h.distinct levels hold
    · rw [List.mem_singleton.mp hnew]
      exact hdistinct
  have hprevious : (group.input policy tick).previous.history =
      keptHistory policy.hysteresis record := by
    simp [AlertLifecycleInput.previous, TrackedGroup.input, h.history]
  have hhistory : appendTick (keptHistory policy.hysteresis record)
      (encodeTick tick.evaluation.levels) policy.hysteresis =
        keptHistory policy.hysteresis (record ++ [tick.evaluation.levels]) :=
    appendTick_keptHistory hpos record tick.evaluation.levels
  let kept := keptHistory policy.hysteresis (record ++ [tick.evaluation.levels])
  refine ⟨_, resolve_keptHistory hpos hwindow hall policy.severities group.openSeverity,
    ⟨(countersFromHistory kept policy.hysteresis).consecutiveBreaches,
      (countersFromHistory kept policy.hysteresis).consecutiveHealthy, kept⟩, rfl, ?_⟩
  have hevaluation : (group.input policy tick).evaluation = tick.evaluation := rfl
  have hpolicy : (group.input policy tick).policy = policy := rfl
  unfold planAlertLifecycle
  dsimp only
  rw [hevaluation, if_neg hstatus, hpolicy, hprevious, h.current, hhistory]

lemma maxSeverity_eq_left {next current : AlertSeverity} :
    maxSeverity (some next) (some current) = some next ↔
      ALERT_SEVERITY_RANK current ≤ ALERT_SEVERITY_RANK next := by
  cases next <;> cases current <;> decide

/-- The severity and transition that a plan advances to. -/
lemma advance_chosen (h : Keeps policy record group) (tick : HostTick)
    (state : AlertLifecycleState) (next : Option AlertSeverity) :
    let plan := (group.input policy tick).advance state next
    (plan.severity, plan.transition) = tick.chosen group.openSeverity next ∧
      plan.state = state := by
  intro plan
  have hcurrent := h.current tick
  have hincident : (group.input policy tick).openIncident = group.openSeverity.map fun severity =>
      ⟨severity, tick.firstTriggeredAtMs, tick.lastNotifiedAtMs, tick.lastDeliveredEventType⟩ := rfl
  cases hopen : group.openSeverity with
  | none =>
    rw [hopen] at hincident
    cases next with
    | none => simp [plan, AlertLifecycleInput.advance, hincident, noTransition, HostTick.chosen]
    | some next => simp [plan, AlertLifecycleInput.advance, hincident, HostTick.chosen]
  | some current =>
    rw [hopen] at hincident hcurrent
    cases next with
    | none =>
      have hheld : (group.input policy tick).evaluation.derivedFromNoData = true ∧
          (group.input policy tick).allowNoDataResolution ≠ some true ↔ tick.held = true := by
        simp [HostTick.held, TrackedGroup.input]
      have hplan : plan = if tick.held = true then
          noTransition state (group.input policy tick).current (some .missing_telemetry)
          else resolutionPlan state ⟨current, tick.firstTriggeredAtMs, tick.lastNotifiedAtMs,
            tick.lastDeliveredEventType⟩ := by
        simp only [plan, AlertLifecycleInput.advance, hincident, Option.map_some]
        simp only [Bool.and_eq_true, decide_eq_true_eq, hheld]
      rw [hplan, HostTick.chosen]
      split_ifs with hcase
      · simp [noTransition, hcurrent]
      · simp [resolutionPlan]
    | some next =>
      by_cases hsame : next = current
      · subst hsame
        by_cases hbreached : tick.evaluation.status = .breached
        · simp [plan, AlertLifecycleInput.advance, hincident, HostTick.chosen, hbreached,
            show (group.input policy tick).evaluation = tick.evaluation from rfl]
        · simp [plan, AlertLifecycleInput.advance, hincident, HostTick.chosen, hbreached,
            show (group.input policy tick).evaluation = tick.evaluation from rfl, noTransition]
      · have hranks : ALERT_SEVERITY_RANK current < ALERT_SEVERITY_RANK next ∨
            ALERT_SEVERITY_RANK next < ALERT_SEVERITY_RANK current := by
          revert hsame
          cases next <;> cases current <;> decide
        rcases hranks with hrank | hrank
        · simp [plan, AlertLifecycleInput.advance, hincident, HostTick.chosen, hsame, hcurrent,
            maxSeverity_eq_left, hrank, hrank.le]
        · simp [plan, AlertLifecycleInput.advance, hincident, HostTick.chosen, hsame, hcurrent,
            maxSeverity_eq_left, hrank, hrank.not_ge, hrank.not_gt]

lemma skipped_chosen {tick : HostTick} (h : Keeps policy record group)
    (hstatus : tick.evaluation.status = .skipped) :
    let plan := planAlertLifecycle (group.input policy tick)
    (plan.severity, plan.transition) = tick.chosenSkipped group.openSeverity ∧
      plan.state.history = keptHistory policy.hysteresis record := by
  intro plan
  have hcurrent := h.current tick
  have hprevious : (group.input policy tick).previous.history =
      keptHistory policy.hysteresis record := by
    simp [AlertLifecycleInput.previous, TrackedGroup.input, h.history]
  have hincident : (group.input policy tick).openIncident = group.openSeverity.map fun severity =>
      ⟨severity, tick.firstTriggeredAtMs, tick.lastNotifiedAtMs, tick.lastDeliveredEventType⟩ := rfl
  have hevaluation : (group.input policy tick).evaluation = tick.evaluation := rfl
  have hallow : (group.input policy tick).allowNoDataResolution = tick.allowNoDataResolution := rfl
  simp only [plan]
  unfold planAlertLifecycle
  dsimp only
  rw [hevaluation, if_pos hstatus, hallow, HostTick.chosenSkipped]
  cases hopen : group.openSeverity with
  | none =>
    rw [hopen] at hincident hcurrent
    rw [hincident]
    simp [noTransition, hcurrent, hprevious]
  | some current =>
    rw [hopen] at hincident hcurrent
    rw [hincident]
    by_cases hreason : tick.evaluation.skipReason = some .no_data
    · by_cases hresolves : tick.allowNoDataResolution = some true
      · simp [hreason, hresolves, resolutionPlan, hprevious]
      · simp [hreason, hresolves, noTransition, hcurrent, hprevious]
    · rw [if_neg (by simp [hreason])]
      split
      · rename_i hmatch _
        exact absurd hmatch hreason
      · simp [noTransition, hcurrent, hprevious]

lemma severity_of_resolved {tick : HostTick} {current next : Option AlertSeverity}
    (h : (tick.chosen current next).2 = .resolved) : (tick.chosen current next).1 = none := by
  cases current with
  | none => cases next <;> simp [HostTick.chosen] at h
  | some current =>
    cases next with
    | none =>
      cases hheld : tick.held with
      | true => simp [HostTick.chosen, hheld] at h
      | false => simp [HostTick.chosen, hheld]
    | some next =>
      simp only [HostTick.chosen] at h
      split_ifs at h

lemma severity_of_resolved_skipped {tick : HostTick} {current : Option AlertSeverity}
    (h : (tick.chosenSkipped current).2 = .resolved) : (tick.chosenSkipped current).1 = none := by
  unfold HostTick.chosenSkipped at h ⊢
  split_ifs at h ⊢
  rfl

/-- The severity of the incident that the host carries on is the plan's. -/
lemma openSeverity_group {plan : AlertLifecyclePlan}
    {chosen : Option AlertSeverity × AlertIncidentTransition}
    (h : (plan.severity, plan.transition) = chosen)
    (hresolved : chosen.2 = .resolved → chosen.1 = none) :
    plan.group.openSeverity = plan.severity := by
  subst h
  unfold AlertLifecyclePlan.group
  split_ifs with hcase
  · exact (hresolved hcase).symm
  · rfl

lemma chosen_mem {tick : HostTick} {current next : Option AlertSeverity}
    {severities : List AlertSeverity} {qualifies : AlertSeverity → Prop}
    (hnext : IsHighest severities qualifies next)
    (hcurrent : ∀ c, current = some c → c ∈ severities) {severity : AlertSeverity}
    (h : (tick.chosen current next).1 = some severity) : severity ∈ severities := by
  cases next with
  | none =>
    cases current with
    | none => simp [HostTick.chosen] at h
    | some current =>
      cases hheld : tick.held with
      | true =>
        simp only [HostTick.chosen, hheld, if_true, Option.some.injEq] at h
        exact hcurrent severity (by rw [h])
      | false => simp [HostTick.chosen, hheld] at h
  | some next =>
    have hsame : severity = next := by
      cases current <;> simp_all [HostTick.chosen]
    rw [hsame]
    exact hnext.1

/-- One tick: what is chosen, and what the group keeps. -/
lemma Keeps.step (h : Keeps policy record group)
    (hpos : 0 < policy.consecutiveBreachesRequired) (hwindow : 0 < policy.breachWindow)
    {tick : HostTick}
    (hdistinct : tick.evaluation.status ≠ .skipped → Distinct tick.evaluation.levels) :
    let plan := planAlertLifecycle (group.input policy tick)
    (tick.evaluation.status = .skipped →
      (plan.severity, plan.transition) = tick.chosenSkipped group.openSeverity) ∧
    (tick.evaluation.status ≠ .skipped → ∃ next, IsHighest policy.severities
      (Qualifies policy.hysteresis (record ++ [tick.evaluation.levels]) group.openSeverity) next ∧
        (plan.severity, plan.transition) = tick.chosen group.openSeverity next) ∧
    plan.group.openSeverity = plan.severity ∧
    Keeps policy (record ++ recordOf [tick]) plan.group := by
  intro plan
  by_cases hstatus : tick.evaluation.status = .skipped
  · obtain ⟨hchosen, hhistory⟩ := skipped_chosen h hstatus
    have hopen := openSeverity_group hchosen severity_of_resolved_skipped
    have hrecord : recordOf [tick] = [] := by simp [recordOf, hstatus]
    refine ⟨fun _ => hchosen, fun hnot => absurd hstatus hnot, hopen, ?_⟩
    rw [hrecord, List.append_nil]
    refine ⟨by rw [← hhistory]; rfl, ?_, h.distinct⟩
    intro severity hseverity
    have hone : (tick.chosenSkipped group.openSeverity).1 = some severity := by
      rw [← hchosen, ← hseverity, hopen]
    unfold HostTick.chosenSkipped at hone
    split_ifs at hone
    exact h.severity severity hone
  · obtain ⟨next, hnext, state, hhistory, hplan⟩ := h.evaluated hpos hwindow hstatus
      (hdistinct hstatus)
    obtain ⟨hchosen, hstate⟩ := advance_chosen h tick state next
    rw [← hplan] at hchosen hstate
    have hopen := openSeverity_group hchosen severity_of_resolved
    have hrecord : recordOf [tick] = [tick.evaluation.levels] := by simp [recordOf, hstatus]
    refine ⟨fun heq => absurd heq hstatus, fun _ => ⟨next, hnext, hchosen⟩, hopen, ?_⟩
    rw [hrecord]
    refine ⟨?_, ?_, ?_⟩
    · rw [← hhistory, ← hstate]
      rfl
    · intro severity hseverity
      have hone : (tick.chosen group.openSeverity next).1 = some severity := by
        rw [← hchosen, ← hseverity, hopen]
      exact chosen_mem hnext h.severity hone
    · intro levels hlevels
      rcases List.mem_append.mp hlevels with hold | hnew
      · exact h.distinct levels hold
      · rw [List.mem_singleton.mp hnew]
        exact hdistinct hstatus

end run

end Maple.Alerting
