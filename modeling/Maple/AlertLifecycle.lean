import Maple.AlertHysteresis
import Maple.AlertTiers

/-! The plan of one tick of a tiered alert rule, and what a rule with one tier keeps of the
consecutive-count machine. -/

namespace Maple.Alerting

inductive AlertSkipReason
  | no_data
  | below_min_samples
  | no_value
deriving DecidableEq, Repr

inductive AlertEventType
  | trigger
  | resolve
  | renotify
  | test
deriving DecidableEq, Repr

inductive NoDataBehavior
  | skip
  | zero
  | alert
deriving DecidableEq, Repr

structure AlertObservation where
  value : Option ℚ
  sampleCount : ℚ
  hasData : Bool

structure AlertEvaluationPolicy where
  comparator : AlertComparator
  threshold : ℚ
  thresholdUpper : Option ℚ
  tiers : List AlertThresholdTier
  minimumSampleCount : ℚ
  noDataBehavior : NoDataBehavior

structure AlertEvaluation where
  status : AlertEvaluationStatus
  value : Option ℚ
  sampleCount : ℤ
  threshold : ℚ
  thresholdUpper : Option ℚ
  comparator : AlertComparator
  reason : String
  skipReason : Option AlertSkipReason := none
  derivedFromNoData : Bool
  levels : List AlertTierLevel

/-- JavaScript's `Math.round`. -/
def mathRound (x : ℚ) : ℤ := ⌊x + 1 / 2⌋

def evaluateAlertObservation (policy : AlertEvaluationPolicy) (observation : AlertObservation)
    (reason : String) : AlertEvaluation :=
  let sampleCount := mathRound observation.sampleCount
  let value :=
    if observation.hasData then observation.value
    else if policy.noDataBehavior = .zero then some 0 else none
  let evaluation (status : AlertEvaluationStatus) (value : Option ℚ) (reason : String)
      (skipReason : Option AlertSkipReason) (derivedFromNoData : Bool)
      (levels : List AlertTierLevel) : AlertEvaluation :=
    { status, value, sampleCount, reason, skipReason, derivedFromNoData, levels,
      threshold := policy.threshold
      thresholdUpper := policy.thresholdUpper
      comparator := policy.comparator }
  if !observation.hasData && policy.noDataBehavior = .skip then
    evaluation .skipped none "No data in the selected window" (some .no_data) false []
  else if !observation.hasData && policy.noDataBehavior = .alert then
    evaluation .breached none "No data in the selected window" none true
      (policy.tiers.map fun tier => ⟨tier.severity, .breach⟩)
  else if (sampleCount : ℚ) < policy.minimumSampleCount then
    evaluation .skipped value
      ("Sample count " ++ toString sampleCount ++ " is below minimum " ++
        toString policy.minimumSampleCount) (some .below_min_samples) false []
  else
    match value with
    | none =>
      evaluation .skipped none "Alert evaluation did not return a scalar value" (some .no_value)
        false []
    | some value =>
      let levels := policy.tiers.map fun tier =>
        ⟨tier.severity, classifyTier value policy.comparator tier⟩
      evaluation (if levels.any fun level => level.status = .breach then .breached else .healthy)
        (some value) reason none (!observation.hasData) levels

/-! ### Lifecycle -/

structure AlertLifecyclePolicy where
  consecutiveBreachesRequired : ℕ
  breachWindow : ℕ
  consecutiveHealthyRequired : ℕ
  renotifyIntervalMinutes : ℤ
  severities : List AlertSeverity

structure AlertLifecycleState where
  consecutiveBreaches : ℕ
  consecutiveHealthy : ℕ
  history : List ℕ
deriving DecidableEq, Repr

/-- A stored state; the history is missing in a row from before tiers. -/
structure StoredLifecycleState where
  consecutiveBreaches : ℕ
  consecutiveHealthy : ℕ
  history : Option (List ℕ)

structure AlertLifecycleIncident where
  severity : AlertSeverity
  firstTriggeredAtMs : ℤ
  lastNotifiedAtMs : Option ℤ
  lastDeliveredEventType : Option AlertEventType

inductive AlertIncidentTransition
  | none
  | opened
  | continued
  | escalated
  | deescalated
  | resolved
deriving DecidableEq, Repr

inductive AlertNotificationSuppression
  | flapping
  | flap_resolution
deriving DecidableEq, Repr

inductive AlertLifecycleHold
  | missing_telemetry
deriving DecidableEq, Repr

structure AlertLifecycleInput where
  policy : AlertLifecyclePolicy
  evaluation : AlertEvaluation
  state : Option StoredLifecycleState
  openIncident : Option AlertLifecycleIncident
  nowMs : ℤ
  previousNotificationAtMs : Option ℤ := none
  allowNoDataResolution : Option Bool := none

structure AlertLifecyclePlan where
  state : AlertLifecycleState
  transition : AlertIncidentTransition
  severity : Option AlertSeverity
  eventType : Option AlertEventType := none
  notificationSuppression : Option AlertNotificationSuppression := none
  hold : Option AlertLifecycleHold := none
  inheritedNotificationAtMs : Option ℤ := none
  advanceNotificationAnchor : Bool := false
deriving DecidableEq, Repr

def noTransition (state : AlertLifecycleState) (severity : Option AlertSeverity)
    (hold : Option AlertLifecycleHold := none) : AlertLifecyclePlan :=
  { state, transition := .none, severity, hold }

def resolutionPlan (state : AlertLifecycleState) (openIncident : AlertLifecycleIncident) :
    AlertLifecyclePlan :=
  let flapResolutionSuppressed :=
    openIncident.lastDeliveredEventType.isNone && openIncident.lastNotifiedAtMs.isSome
  { state
    transition := .resolved
    severity := none
    eventType := if flapResolutionSuppressed then none else some .resolve
    notificationSuppression := if flapResolutionSuppressed then some .flap_resolution else none }

def AlertLifecyclePolicy.hysteresis (policy : AlertLifecyclePolicy) : TieredHysteresisPolicy where
  breachesToOpen := policy.consecutiveBreachesRequired
  breachWindow := policy.breachWindow
  healthyToResolve := policy.consecutiveHealthyRequired

/-- The incident's severity, as a tier the rule still has. -/
def AlertLifecycleInput.current (input : AlertLifecycleInput) : Option AlertSeverity :=
  input.openIncident.map fun incident => nearestSeverity incident.severity input.policy.severities

/-- The state before the tick; a missing history is replayed from the counters. -/
def AlertLifecycleInput.previous (input : AlertLifecycleInput) : AlertLifecycleState :=
  let counters := input.state.getD ⟨0, 0, some []⟩
  let seedSeverity := input.current.getD (input.policy.severities.foldl
    (fun highest s => (maxSeverity (some highest) (some s)).getD s) .warning)
  { consecutiveBreaches := counters.consecutiveBreaches
    consecutiveHealthy := counters.consecutiveHealthy
    history := counters.history.getD
      (seedHistory ⟨counters.consecutiveBreaches, counters.consecutiveHealthy⟩ seedSeverity
        input.policy.hysteresis) }

/-- The plan of an evaluated tick that leaves `state` and the severity `next`. -/
def AlertLifecycleInput.advance (input : AlertLifecycleInput) (state : AlertLifecycleState)
    (next : Option AlertSeverity) : AlertLifecyclePlan :=
  let evaluation := input.evaluation
  let policy := input.policy
  match input.openIncident, next with
  | none, none => noTransition state none
  | none, some next =>
    let flapSuppressed := input.previousNotificationAtMs.any fun previousNotificationAtMs =>
      input.nowMs - policy.renotifyIntervalMinutes * 60000 ≤ previousNotificationAtMs
    { state
      transition := .opened
      severity := some next
      eventType := if flapSuppressed then none else some .trigger
      notificationSuppression := if flapSuppressed then some .flapping else none
      inheritedNotificationAtMs := if flapSuppressed then input.previousNotificationAtMs else none }
  | some openIncident, none =>
    if evaluation.derivedFromNoData && input.allowNoDataResolution ≠ some true then
      noTransition state input.current (some .missing_telemetry)
    else resolutionPlan state openIncident
  | some openIncident, some next =>
    if next ≠ openIncident.severity ∧
        (some next ≠ input.current ∨ evaluation.status = .breached) then
      let escalated := maxSeverity (some next) (some openIncident.severity) = some next
      { state
        transition := if escalated then .escalated else .deescalated
        severity := some next
        eventType := if escalated then some .trigger else some .renotify
        advanceNotificationAnchor := true }
    else if evaluation.status = .breached then
      let renotifyDueAt :=
        openIncident.lastNotifiedAtMs.getD openIncident.firstTriggeredAtMs +
          policy.renotifyIntervalMinutes * 60000
      { state
        transition := .continued
        severity := some next
        eventType := if renotifyDueAt ≤ input.nowMs then some .renotify else none
        advanceNotificationAnchor := renotifyDueAt ≤ input.nowMs }
    else noTransition state (some next)

def planAlertLifecycle (input : AlertLifecycleInput) : AlertLifecyclePlan :=
  let evaluation := input.evaluation
  let policy := input.policy
  let hysteresis := policy.hysteresis
  let previous := input.previous
  if evaluation.status = .skipped then
    match evaluation.skipReason, input.openIncident with
    | some .no_data, some openIncident =>
      if input.allowNoDataResolution = some true then resolutionPlan previous openIncident
      else noTransition previous input.current (some .missing_telemetry)
    | _, _ => noTransition previous input.current
  else
    let history := appendTick previous.history (encodeTick evaluation.levels) hysteresis
    let counters := countersFromHistory history hysteresis
    input.advance ⟨counters.consecutiveBreaches, counters.consecutiveHealthy, history⟩
      (resolveActiveSeverity history policy.severities input.current hysteresis)

/-! ### A group from tick to tick -/

/-- What the host knows at a tick: the evaluation, its liveness gate and its clock, and the marks of
the incident and of earlier notifications. -/
structure HostTick where
  evaluation : AlertEvaluation
  allowNoDataResolution : Option Bool := none
  nowMs : ℤ
  previousNotificationAtMs : Option ℤ := none
  firstTriggeredAtMs : ℤ := 0
  lastNotifiedAtMs : Option ℤ := none
  lastDeliveredEventType : Option AlertEventType := none

/-- What the host keeps of a group: its state row and the severity of its open incident. -/
structure TrackedGroup where
  state : StoredLifecycleState
  openSeverity : Option AlertSeverity

def TrackedGroup.input (policy : AlertLifecyclePolicy) (group : TrackedGroup) (tick : HostTick) :
    AlertLifecycleInput where
  policy := policy
  evaluation := tick.evaluation
  state := some group.state
  openIncident := group.openSeverity.map fun severity =>
    ⟨severity, tick.firstTriggeredAtMs, tick.lastNotifiedAtMs, tick.lastDeliveredEventType⟩
  nowMs := tick.nowMs
  previousNotificationAtMs := tick.previousNotificationAtMs
  allowNoDataResolution := tick.allowNoDataResolution

def AlertLifecyclePlan.group (plan : AlertLifecyclePlan) : TrackedGroup where
  state := ⟨plan.state.consecutiveBreaches, plan.state.consecutiveHealthy, some plan.state.history⟩
  openSeverity := if plan.transition = .resolved then none else plan.severity

/-- The plans of a sequence of ticks, each from the row the one before has left. -/
def replayPlans (policy : AlertLifecyclePolicy) : TrackedGroup → List HostTick →
    List AlertLifecyclePlan
  | _, [] => []
  | group, tick :: ticks =>
    let plan := planAlertLifecycle (group.input policy tick)
    plan :: replayPlans policy plan.group ticks

def replayOutcomes (config : HysteresisConfig) : HysteresisRow → List HostTick →
    List HysteresisOutcome
  | _, [] => []
  | row, tick :: ticks =>
    let outcome := foldObservation row tick.evaluation.status config tick.nowMs
    outcome :: replayOutcomes config (row.next outcome tick.nowMs) ticks

/-- What both machines say of a tick: whether it opens, whether it resolves, and the counters. -/
structure Verdict where
  opens : Bool
  resolves : Bool
  consecutiveBreaches : ℕ
  consecutiveHealthy : ℕ
deriving DecidableEq, Repr

def AlertLifecyclePlan.verdict (plan : AlertLifecyclePlan) : Verdict where
  opens := plan.transition = .opened
  resolves := plan.transition = .resolved
  consecutiveBreaches := plan.state.consecutiveBreaches
  consecutiveHealthy := plan.state.consecutiveHealthy

def HysteresisOutcome.verdict (outcome : HysteresisOutcome) : Verdict where
  opens := outcome.transition = .open
  resolves := outcome.transition = .resolve
  consecutiveBreaches := outcome.consecutiveBreaches
  consecutiveHealthy := outcome.consecutiveHealthy

/-! ### One tier -/

/-- A tick of a rule with one tier: past its trigger; clear of the tier, and not only because the
window was empty; or skipped without leave to resolve. -/
def OneTierTick (severity : AlertSeverity) (tick : HostTick) : Prop :=
  match tick.evaluation.status with
  | .breached => tick.evaluation.levels = [⟨severity, .breach⟩]
  | .healthy => tick.evaluation.levels = [⟨severity, .clear⟩] ∧
      (tick.evaluation.derivedFromNoData = false ∨ tick.allowNoDataResolution = some true)
  | .skipped => tick.evaluation.skipReason = some .no_data →
      tick.allowNoDataResolution ≠ some true

/-- A rule with one tier that asks for N breaches in a row and R clear ticks in a row. -/
def oneTierPolicy (severity : AlertSeverity) (breaches healthy : ℕ) (renotifyMinutes : ℤ) :
    AlertLifecyclePolicy where
  consecutiveBreachesRequired := breaches
  breachWindow := breaches
  consecutiveHealthyRequired := healthy
  renotifyIntervalMinutes := renotifyMinutes
  severities := [severity]

/-- The group and the row of the old machine agree. -/
structure Matches (policy : AlertLifecyclePolicy) (severity : AlertSeverity) (group : TrackedGroup)
    (row : HysteresisRow) : Prop where
  breaches : group.state.consecutiveBreaches = row.consecutiveBreaches
  healthy : group.state.consecutiveHealthy = row.consecutiveHealthy
  incident : group.openSeverity = if row.incidentOpen then some severity else none
  one : row.consecutiveBreaches = 0 ∨ row.consecutiveHealthy = 0
  oneTier : ∀ history, group.state.history = some history → OneTier severity history ∧
    countersFromHistory history policy.hysteresis =
      ⟨row.consecutiveBreaches, row.consecutiveHealthy⟩
  bounded : group.state.history = none →
    row.consecutiveBreaches ≤ policy.consecutiveBreachesRequired ∧
      row.consecutiveHealthy ≤ policy.consecutiveHealthyRequired

variable {severity : AlertSeverity} {breaches healthy : ℕ} {renotifyMinutes : ℤ}
  {group : TrackedGroup} {row : HysteresisRow} {tick : HostTick}

variable (tick) in
lemma current_oneTier
    (h : Matches (oneTierPolicy severity breaches healthy renotifyMinutes) severity group row) :
    (group.input (oneTierPolicy severity breaches healthy renotifyMinutes) tick).current =
      if row.incidentOpen then some severity else none := by
  rw [← h.incident]
  have hincident := h.incident
  cases hopen : row.incidentOpen with
  | true =>
    simp [hopen] at hincident
    simp [AlertLifecycleInput.current, TrackedGroup.input, hincident, nearestSeverity,
      oneTierPolicy]
  | false =>
    simp [hopen] at hincident
    simp [AlertLifecycleInput.current, TrackedGroup.input, hincident]

variable (tick) in
/-- The history a tick starts from stands for the counters of the row. -/
lemma previous_oneTier
    (h : Matches (oneTierPolicy severity breaches healthy renotifyMinutes) severity group row) :
    let previous :=
      (group.input (oneTierPolicy severity breaches healthy renotifyMinutes) tick).previous
    (previous.consecutiveBreaches = row.consecutiveBreaches ∧
      previous.consecutiveHealthy = row.consecutiveHealthy) ∧ OneTier severity previous.history ∧
      countersFromHistory previous.history
        (oneTierPolicy severity breaches healthy renotifyMinutes).hysteresis =
          ⟨row.consecutiveBreaches, row.consecutiveHealthy⟩ := by
  refine ⟨⟨h.breaches, h.healthy⟩, ?_⟩
  cases hhistory : group.state.history with
  | some history =>
    simpa [AlertLifecycleInput.previous, TrackedGroup.input, hhistory] using
      h.oneTier history hhistory
  | none =>
    have hseed : ((group.input (oneTierPolicy severity breaches healthy renotifyMinutes)
        tick).current).getD ([severity].foldl
          (fun highest s => (maxSeverity (some highest) (some s)).getD s) .warning) = severity := by
      rw [current_oneTier tick h]
      cases row.incidentOpen <;> cases severity <;> rfl
    have hprevious : (group.input (oneTierPolicy severity breaches healthy renotifyMinutes)
        tick).previous.history = seedHistory ⟨row.consecutiveBreaches, row.consecutiveHealthy⟩
          severity (oneTierPolicy severity breaches healthy renotifyMinutes).hysteresis := by
      rw [← h.breaches, ← h.healthy]
      simp only [AlertLifecycleInput.previous]
      rw [show (group.input (oneTierPolicy severity breaches healthy renotifyMinutes)
        tick).policy.severities = [severity] from rfl, hseed]
      simp [TrackedGroup.input, hhistory]
    rw [hprevious]
    obtain ⟨hbreaches, hhealthy⟩ := h.bounded hhistory
    exact ⟨oneTier_seedHistory _, countersFromHistory_seedHistory hbreaches hhealthy h.one⟩

/-- What a tick leaves of the group: the counters after it, whether the incident stands, and a
history that stands for the counters. -/
structure Ticked (severity : AlertSeverity) (breaches healthy : ℕ) (renotifyMinutes : ℤ)
    (row : HysteresisRow) (status : AlertEvaluationStatus) (plan : AlertLifecyclePlan) : Prop where
  counters : (plan.state.consecutiveBreaches, plan.state.consecutiveHealthy) =
    tickCounters ⟨breaches, healthy, 0⟩ (row.consecutiveBreaches, row.consecutiveHealthy) status
  opened : plan.transition = .opened ↔ Opens ⟨breaches, healthy, 0⟩ row status
  resolved : plan.transition = .resolved ↔ Resolves ⟨breaches, healthy, 0⟩ row status
  stands : plan.severity = if plan.transition = .opened ∨
    (row.incidentOpen = true ∧ plan.transition ≠ .resolved) then some severity else none
  oneTier : OneTier severity plan.state.history
  history : countersFromHistory plan.state.history
      (oneTierPolicy severity breaches healthy renotifyMinutes).hysteresis =
    ⟨plan.state.consecutiveBreaches, plan.state.consecutiveHealthy⟩

lemma ticked_skipped
    (h : Matches (oneTierPolicy severity breaches healthy renotifyMinutes) severity group row)
    (htick : OneTierTick severity tick) (hstatus : tick.evaluation.status = .skipped) :
    Ticked severity breaches healthy renotifyMinutes row .skipped (planAlertLifecycle
      (group.input (oneTierPolicy severity breaches healthy renotifyMinutes) tick)) := by
  obtain ⟨⟨hbreaches, hhealthy⟩, htier, hcounters⟩ := previous_oneTier tick h
  obtain ⟨hold, hplan⟩ : ∃ hold, planAlertLifecycle
      (group.input (oneTierPolicy severity breaches healthy renotifyMinutes) tick) =
        noTransition (group.input (oneTierPolicy severity breaches healthy renotifyMinutes)
          tick).previous (if row.incidentOpen then some severity else none) hold := by
    have hskip : tick.evaluation.skipReason = some .no_data →
        tick.allowNoDataResolution ≠ some true := by
      simpa [OneTierTick, hstatus] using htick
    unfold planAlertLifecycle
    rw [current_oneTier tick h, if_pos (by simpa [TrackedGroup.input] using hstatus)]
    split
    · next openIncident hreason _ =>
      have hallow := hskip (by simpa [TrackedGroup.input] using hreason)
      rw [if_neg (by simpa [TrackedGroup.input] using hallow)]
      exact ⟨_, rfl⟩
    · exact ⟨_, rfl⟩
  rw [hplan]
  refine ⟨?_, ?_, ?_, ?_, htier, ?_⟩
  · simp [noTransition, tickCounters, hbreaches, hhealthy]
  · simp [noTransition, Opens]
  · simp [noTransition, Resolves]
  · simp [noTransition]
  · simp only [noTransition]
    rw [hcounters, hbreaches, hhealthy]

lemma encodeTick_oneTier (breached : Bool) :
    encodeTick [⟨severity, if breached then .breach else .clear⟩] = codeOf severity breached := by
  cases severity <;> cases breached <;> rfl

/-- The counters after an evaluated tick. -/
def evaluatedCounters (breaches healthy : ℕ) (row : HysteresisRow) (breached : Bool) : Counters :=
  if breached then ⟨min (row.consecutiveBreaches + 1) breaches, 0⟩
  else ⟨0, min (row.consecutiveHealthy + 1) healthy⟩

/-- An evaluated tick appends to the history and moves on to the severity it stands for. -/
lemma plan_evaluated (breached : Bool) (hpos : 0 < breaches)
    (h : Matches (oneTierPolicy severity breaches healthy renotifyMinutes) severity group row)
    (hstatus : tick.evaluation.status = if breached then .breached else .healthy)
    (hlevels : tick.evaluation.levels = [⟨severity, if breached then .breach else .clear⟩]) :
    ∃ history, OneTier severity history ∧
      countersFromHistory history
        (oneTierPolicy severity breaches healthy renotifyMinutes).hysteresis =
          evaluatedCounters breaches healthy row breached ∧
      planAlertLifecycle
          (group.input (oneTierPolicy severity breaches healthy renotifyMinutes) tick) =
        (group.input (oneTierPolicy severity breaches healthy renotifyMinutes) tick).advance
          ⟨(evaluatedCounters breaches healthy row breached).consecutiveBreaches,
            (evaluatedCounters breaches healthy row breached).consecutiveHealthy, history⟩
          (if (breached = true ∧ breaches ≤
                (evaluatedCounters breaches healthy row breached).consecutiveBreaches) ∨
              (row.incidentOpen = true ∧
                (evaluatedCounters breaches healthy row breached).consecutiveHealthy < healthy) then
            some severity else none) := by
  obtain ⟨-, htier, hcounters⟩ := previous_oneTier tick h
  have hcurrent := current_oneTier tick h
  have hnotSkipped : tick.evaluation.status ≠ .skipped := by
    rw [hstatus]
    cases breached <;> simp
  have hone : (group.input (oneTierPolicy severity breaches healthy renotifyMinutes)
      tick).current = none ∨ (group.input (oneTierPolicy severity breaches healthy renotifyMinutes)
        tick).current = some severity := by
    rw [hcurrent]
    cases row.incidentOpen <;> simp
  have hopen : (group.input (oneTierPolicy severity breaches healthy renotifyMinutes)
      tick).current = some severity ↔ row.incidentOpen = true := by
    rw [hcurrent]
    cases row.incidentOpen <;> simp
  generalize hprevious : (group.input (oneTierPolicy severity breaches healthy renotifyMinutes)
    tick).previous = previous at htier hcounters
  have hnext := countersFromHistory_appendTick severity breached
    (oneTierPolicy severity breaches healthy renotifyMinutes).hysteresis previous.history
  rw [hcounters] at hnext
  have hseverity := resolveActiveSeverity_oneTier
    (oneTierPolicy severity breaches healthy renotifyMinutes).hysteresis rfl hpos htier hone breached
  dsimp only at hseverity
  simp only [hopen] at hseverity
  refine ⟨_, htier.appendTick breached, hnext, ?_⟩
  unfold planAlertLifecycle
  rw [if_neg (by simpa [TrackedGroup.input] using hnotSkipped)]
  dsimp only
  rw [hprevious, show (group.input (oneTierPolicy severity breaches healthy renotifyMinutes)
    tick).evaluation.levels = _ from hlevels, encodeTick_oneTier]
  rw [show (group.input (oneTierPolicy severity breaches healthy renotifyMinutes)
    tick).policy.severities = [severity] from rfl,
    show (group.input (oneTierPolicy severity breaches healthy renotifyMinutes)
      tick).policy = oneTierPolicy severity breaches healthy renotifyMinutes from rfl,
    hseverity, hnext]
  rfl

variable (tick) in
lemma openIncident_eq
    (h : Matches (oneTierPolicy severity breaches healthy renotifyMinutes) severity group row) :
    (group.input (oneTierPolicy severity breaches healthy renotifyMinutes) tick).openIncident =
      if row.incidentOpen then
        some ⟨severity, tick.firstTriggeredAtMs, tick.lastNotifiedAtMs, tick.lastDeliveredEventType⟩
      else none := by
  simp only [TrackedGroup.input, h.incident]
  cases row.incidentOpen <;> rfl

lemma ticked_breached (hpos : 0 < breaches) (hresolve : 0 < healthy)
    (h : Matches (oneTierPolicy severity breaches healthy renotifyMinutes) severity group row)
    (hstatus : tick.evaluation.status = .breached)
    (hlevels : tick.evaluation.levels = [⟨severity, .breach⟩]) :
    Ticked severity breaches healthy renotifyMinutes row .breached (planAlertLifecycle
      (group.input (oneTierPolicy severity breaches healthy renotifyMinutes) tick)) := by
  obtain ⟨history, htier, hcounters, hplan⟩ := plan_evaluated true hpos h
    hstatus hlevels
  have hincident := openIncident_eq tick h
  have hevaluation : (group.input (oneTierPolicy severity breaches healthy renotifyMinutes)
      tick).evaluation.status = .breached := hstatus
  rw [hplan]
  simp only [evaluatedCounters, if_true, true_and] at hcounters ⊢
  unfold AlertLifecycleInput.advance
  rw [hincident]
  cases hopen : row.incidentOpen with
  | true =>
    simp only [if_true, hresolve, and_self, or_true, ne_eq, not_true_eq_false, false_and, if_false,
      hevaluation]
    exact ⟨rfl, by simp [Opens, hopen], by simp [Resolves], by simp [hopen], htier, hcounters⟩
  | false =>
    by_cases hfull : breaches ≤ min (row.consecutiveBreaches + 1) breaches
    · simp only [hfull, true_or, if_true, Bool.false_eq_true, if_false]
      exact ⟨rfl, by simp [Opens, hopen, hfull], by simp [Resolves], by simp, htier, hcounters⟩
    · simp only [hfull, false_or, Bool.false_eq_true, false_and, if_false]
      exact ⟨rfl, by simp [noTransition, Opens, hfull], by simp [noTransition, Resolves],
        by simp [noTransition, hopen], htier, hcounters⟩

lemma ticked_healthy (hpos : 0 < breaches)
    (h : Matches (oneTierPolicy severity breaches healthy renotifyMinutes) severity group row)
    (hstatus : tick.evaluation.status = .healthy)
    (hlevels : tick.evaluation.levels = [⟨severity, .clear⟩])
    (hgate : tick.evaluation.derivedFromNoData = false ∨ tick.allowNoDataResolution = some true) :
    Ticked severity breaches healthy renotifyMinutes row .healthy (planAlertLifecycle
      (group.input (oneTierPolicy severity breaches healthy renotifyMinutes) tick)) := by
  obtain ⟨history, htier, hcounters, hplan⟩ := plan_evaluated false hpos h
    hstatus hlevels
  have hincident := openIncident_eq tick h
  have hevaluation : (group.input (oneTierPolicy severity breaches healthy renotifyMinutes)
      tick).evaluation.status = .healthy := hstatus
  have hpasses : ((group.input (oneTierPolicy severity breaches healthy renotifyMinutes)
      tick).evaluation.derivedFromNoData &&
        (group.input (oneTierPolicy severity breaches healthy renotifyMinutes)
          tick).allowNoDataResolution ≠ some true) = false := by
    rcases hgate with hdata | hallow
    · simp [TrackedGroup.input, hdata]
    · simp [TrackedGroup.input, hallow]
  rw [hplan]
  simp only [evaluatedCounters, Bool.false_eq_true, if_false, false_and, false_or] at hcounters ⊢
  unfold AlertLifecycleInput.advance
  rw [hincident]
  cases hopen : row.incidentOpen with
  | false =>
    simp only [Bool.false_eq_true, false_and, if_false]
    exact ⟨rfl, by simp [noTransition, Opens], by simp [noTransition, Resolves, hopen],
      by simp [noTransition, hopen], htier, hcounters⟩
  | true =>
    by_cases hstays : min (row.consecutiveHealthy + 1) healthy < healthy
    · simp only [hstays, and_self, if_true, ne_eq, not_true_eq_false, false_and, if_false,
        hevaluation, reduceCtorEq]
      exact ⟨rfl, by simp [noTransition, Opens], by simp [noTransition, Resolves, hopen]; omega,
        by simp [noTransition, hopen], htier, hcounters⟩
    · simp only [hstays, and_false, if_false, if_true]
      rw [if_neg (by rw [hpasses]; simp)]
      exact ⟨rfl, by simp [resolutionPlan, Opens],
        by simp [resolutionPlan, Resolves, hopen]; omega, by simp [resolutionPlan], htier, hcounters⟩

/-- The tick of either machine, and the agreement it leaves. -/
lemma Matches.step (hpos : 0 < breaches) (hresolve : 0 < healthy)
    (h : Matches (oneTierPolicy severity breaches healthy renotifyMinutes) severity group row)
    (htick : OneTierTick severity tick) :
    let plan := planAlertLifecycle
      (group.input (oneTierPolicy severity breaches healthy renotifyMinutes) tick)
    let outcome := foldObservation row tick.evaluation.status ⟨breaches, healthy, 0⟩ tick.nowMs
    plan.verdict = outcome.verdict ∧
      Matches (oneTierPolicy severity breaches healthy renotifyMinutes) severity plan.group
        (row.next outcome tick.nowMs) := by
  intro plan outcome
  have hticked : Ticked severity breaches healthy renotifyMinutes row tick.evaluation.status plan := by
    cases hstatus : tick.evaluation.status with
    | skipped => exact ticked_skipped h htick hstatus
    | breached =>
      have hlevels : tick.evaluation.levels = [⟨severity, .breach⟩] := by
        simpa [OneTierTick, hstatus] using htick
      exact ticked_breached hpos hresolve h hstatus hlevels
    | healthy =>
      have hclear : tick.evaluation.levels = [⟨severity, .clear⟩] ∧
          (tick.evaluation.derivedFromNoData = false ∨ tick.allowNoDataResolution = some true) := by
        simpa [OneTierTick, hstatus] using htick
      exact ticked_healthy hpos h hstatus hclear.1 hclear.2
  obtain ⟨hcounters, hopens, hresolves⟩ :=
    foldObservation_spec ⟨breaches, healthy, 0⟩ tick.nowMs rfl h.one tick.evaluation.status
  change (outcome.consecutiveBreaches, outcome.consecutiveHealthy) = _ at hcounters
  change outcome.transition = _ ↔ _ at hopens
  change outcome.transition = _ ↔ _ at hresolves
  obtain ⟨hbreaches, hhealthy⟩ := Prod.mk.inj (hticked.counters.trans hcounters.symm)
  refine ⟨?_, hbreaches, hhealthy, ?_, ?_, ?_, fun hnone => by cases hnone⟩
  · simp only [AlertLifecyclePlan.verdict, HysteresisOutcome.verdict, Verdict.mk.injEq,
      decide_eq_decide]
    exact ⟨hticked.opened.trans hopens.symm, hticked.resolved.trans hresolves.symm, hbreaches,
      hhealthy⟩
  · have hopened := hticked.opened.trans hopens.symm
    have hresolved := hticked.resolved.trans hresolves.symm
    rw [next_incidentOpen]
    simp only [AlertLifecyclePlan.group, hticked.stands, hopened, hresolved]
    by_cases hopen : outcome.transition = .open
    · simp [hopen]
    · by_cases hresolve : outcome.transition = .resolve
      · simp [hresolve]
      · simp [hopen, hresolve, hresolved]
  · simp only [HysteresisRow.next]
    obtain ⟨hfirst, hsecond⟩ := Prod.mk.inj hcounters
    cases hstatus : tick.evaluation.status with
    | skipped =>
      rw [hfirst, hsecond, hstatus]
      exact h.one
    | breached =>
      rw [hsecond, hstatus]
      exact .inr rfl
    | healthy =>
      rw [hfirst, hstatus]
      exact .inl rfl
  · intro history hhistory
    obtain rfl := Option.some.inj hhistory
    refine ⟨hticked.oneTier, ?_⟩
    rw [hticked.history]
    simp only [HysteresisRow.next, hbreaches, hhealthy]

lemma replay_eq (hpos : 0 < breaches) (hresolve : 0 < healthy) {ticks : List HostTick}
    (h : Matches (oneTierPolicy severity breaches healthy renotifyMinutes) severity group row)
    (hticks : ∀ tick ∈ ticks, OneTierTick severity tick) :
    (replayPlans (oneTierPolicy severity breaches healthy renotifyMinutes) group ticks).map
        AlertLifecyclePlan.verdict =
      (replayOutcomes ⟨breaches, healthy, 0⟩ row ticks).map HysteresisOutcome.verdict := by
  induction ticks generalizing group row with
  | nil => rfl
  | cons tick ticks ih =>
    obtain ⟨hverdict, hnext⟩ := h.step hpos hresolve (hticks tick List.mem_cons_self)
    simp only [replayPlans, replayOutcomes, List.map_cons, hverdict]
    rw [ih hnext fun tick' htick' => hticks tick' (List.mem_cons_of_mem tick htick')]

/-- A rule with one tier opens and resolves on the same ticks as the consecutive-count machine, with
the same counters, from any row that the old machine has stored. -/
theorem one_tier_as_consecutive_count (severity : AlertSeverity) (breaches healthy : ℕ)
    (renotifyMinutes : ℤ) (hpos : 0 < breaches) (hresolve : 0 < healthy) (row : HysteresisRow)
    (hbreaches : row.consecutiveBreaches ≤ breaches) (hhealthy : row.consecutiveHealthy ≤ healthy)
    (hone : row.consecutiveBreaches = 0 ∨ row.consecutiveHealthy = 0) (ticks : List HostTick)
    (hticks : ∀ tick ∈ ticks, OneTierTick severity tick) :
    (replayPlans (oneTierPolicy severity breaches healthy renotifyMinutes)
        ⟨⟨row.consecutiveBreaches, row.consecutiveHealthy, none⟩,
          if row.incidentOpen then some severity else none⟩ ticks).map AlertLifecyclePlan.verdict =
      (replayOutcomes ⟨breaches, healthy, 0⟩ row ticks).map HysteresisOutcome.verdict := by
  refine replay_eq hpos hresolve ⟨rfl, rfl, rfl, hone, ?_, fun _ => ⟨hbreaches, hhealthy⟩⟩ hticks
  intro history hhistory
  cases hhistory

/-! ### Observations -/

/-- The ticks a rule evaluates whose one tier has no recovery value. -/
lemma oneTierTick_evaluate {policy : AlertEvaluationPolicy} {tier : AlertThresholdTier}
    (htiers : policy.tiers = [tier]) (hrecovery : tier.recoveryValue = none)
    (observation : AlertObservation) (reason : String)
    (hgate : observation.hasData = true ∨ policy.noDataBehavior ≠ .zero) (nowMs : ℤ) :
    OneTierTick tier.severity
      { evaluation := evaluateAlertObservation policy observation reason, nowMs } := by
  have hclassify : ∀ value, classifyTier value policy.comparator tier = .breach ∨
      classifyTier value policy.comparator tier = .clear := by
    intro value
    simp only [classifyTier, hrecovery]
    split_ifs
    · exact .inl rfl
    · exact .inr rfl
  obtain ⟨value, sampleCount, hasData⟩ := observation
  cases hasData with
  | false =>
    cases hbehavior : policy.noDataBehavior with
    | zero => simp [hbehavior] at hgate
    | skip => simp [evaluateAlertObservation, hbehavior, OneTierTick]
    | alert => simp [evaluateAlertObservation, hbehavior, OneTierTick, htiers]
  | true =>
    by_cases hsamples : (mathRound sampleCount : ℚ) < policy.minimumSampleCount
    · simp [evaluateAlertObservation, hsamples, OneTierTick]
    · cases value with
      | none => simp [evaluateAlertObservation, hsamples, OneTierTick]
      | some value =>
        rcases hclassify value with hstatus | hstatus
        · simp [evaluateAlertObservation, hsamples, htiers, hstatus, OneTierTick]
        · simp [evaluateAlertObservation, hsamples, htiers, hstatus, OneTierTick]

/-- A warning above 10 that reads an empty window as zero. -/
def sampleRule : AlertEvaluationPolicy where
  comparator := .gt
  threshold := 10
  thresholdUpper := none
  tiers := [⟨.warning, 10, none, none⟩]
  minimumSampleCount := 0
  noDataBehavior := .zero

def sampleTick (observation : AlertObservation) (nowMs : ℤ) : HostTick :=
  { evaluation := evaluateAlertObservation sampleRule observation "value", nowMs }

/-- An incident whose windows have run empty is held where the old machine resolved it. -/
theorem one_tier_held_on_empty_window :
    ¬ ∀ (rule : AlertEvaluationPolicy) (tier : AlertThresholdTier) (breaches healthy : ℕ)
      (row : HysteresisRow) (observations : List AlertObservation), rule.tiers = [tier] →
      0 < breaches → 0 < healthy → row.consecutiveBreaches ≤ breaches →
      row.consecutiveHealthy ≤ healthy →
      (row.consecutiveBreaches = 0 ∨ row.consecutiveHealthy = 0) →
      let ticks := observations.map fun observation =>
        { evaluation := evaluateAlertObservation rule observation "value", nowMs := 0 }
      (replayPlans (oneTierPolicy tier.severity breaches healthy 60)
          ⟨⟨row.consecutiveBreaches, row.consecutiveHealthy, none⟩,
            if row.incidentOpen then some tier.severity else none⟩ ticks).map
          AlertLifecyclePlan.verdict =
        (replayOutcomes ⟨breaches, healthy, 0⟩ row ticks).map HysteresisOutcome.verdict := by
  intro hclaim
  have heq := hclaim sampleRule ⟨.warning, 10, none, none⟩ 1 1 ⟨0, 0, false, none⟩
    [⟨some 15, 10, true⟩, ⟨none, 0, false⟩] rfl (by decide) (by decide) (by decide) (by decide)
    (.inl rfl)
  revert heq
  with_unfolding_all decide

theorem one_tier_as_consecutive_count_sample :
    ((replayPlans (oneTierPolicy .warning 2 2 60) ⟨⟨1, 0, none⟩, none⟩
        [sampleTick ⟨some 15, 10, true⟩ 0, sampleTick ⟨some 5, 10, true⟩ 60000,
          sampleTick ⟨some 5, 10, true⟩ 120000]).map AlertLifecyclePlan.verdict =
      [⟨true, false, 2, 0⟩, ⟨false, false, 0, 1⟩, ⟨false, true, 0, 2⟩]) := by
  have htick : ∀ (value : ℚ) (nowMs : ℤ),
      OneTierTick .warning (sampleTick ⟨some value, 10, true⟩ nowMs) := fun value nowMs =>
    oneTierTick_evaluate (rfl : sampleRule.tiers = [⟨.warning, 10, none, none⟩]) rfl _ _ (.inl rfl)
      nowMs
  have heq := one_tier_as_consecutive_count .warning 2 2 60 (by decide) (by decide)
    ⟨1, 0, false, none⟩ (by decide) (by decide) (.inr rfl)
    [sampleTick ⟨some 15, 10, true⟩ 0, sampleTick ⟨some 5, 10, true⟩ 60000,
      sampleTick ⟨some 5, 10, true⟩ 120000] (by
        intro tick htick'
        simp only [List.mem_cons, List.not_mem_nil, or_false] at htick'
        rcases htick' with rfl | rfl | rfl
        · exact htick 15 0
        · exact htick 5 60000
        · exact htick 5 120000)
  refine heq.trans ?_
  with_unfolding_all decide

end Maple.Alerting
