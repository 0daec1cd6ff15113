import Maple.AlertTransitions

/-! The preview of an alert rule: a series replayed through the scheduler's lifecycle, and the
stretches of time it would have held an incident open at one severity. -/

namespace Maple.Alerting

open TrailingRun

/-- The rule fields the lifecycle reads. -/
structure AlertReplayPolicy where
  consecutiveBreachesRequired : ℕ
  breachesOutOf : Option ℕ
  consecutiveHealthyRequired : ℕ
  thresholds : List AlertSeverity

structure SimulatedEvaluation where
  bucketMs : ℤ
  evaluation : AlertEvaluation
  /-- The window in progress, which the scheduler has not evaluated yet. -/
  provisional : Bool := false

structure SimulatedFiringSpan where
  startMs : ℤ
  endMs : ℤ
  severity : AlertSeverity
deriving DecidableEq, Repr

structure OpenSpan where
  startMs : ℤ
  severity : AlertSeverity

structure ReplayState where
  state : Option StoredLifecycleState := none
  incident : Option AlertLifecycleIncident := none
  openSpan : Option OpenSpan := none
  recentBreaches : List (Option ℤ) := []
  lastCompleteBucketMs : Option ℤ := none
  spans : List SimulatedFiringSpan := []

def AlertReplayPolicy.lifecycle (rule : AlertReplayPolicy) : AlertLifecyclePolicy where
  consecutiveBreachesRequired := rule.consecutiveBreachesRequired
  breachWindow := rule.breachesOutOf.getD rule.consecutiveBreachesRequired
  consecutiveHealthyRequired := rule.consecutiveHealthyRequired
  renotifyIntervalMinutes := 9007199254740991
  severities := rule.thresholds

def OpenSpan.close (span : OpenSpan) (endMs : ℤ) : SimulatedFiringSpan :=
  ⟨span.startMs, endMs, span.severity⟩

def ReplayState.input (policy : AlertLifecyclePolicy) (acc : ReplayState)
    (tick : SimulatedEvaluation) : AlertLifecycleInput where
  policy := policy
  evaluation := tick.evaluation
  state := acc.state
  openIncident := acc.incident
  nowMs := tick.bucketMs
  allowNoDataResolution := some (tick.evaluation.status ≠ .skipped)

/-- The buckets of the recent ticks that breached, to date a span's first breach. -/
def ReplayState.breachesAfter (breachWindow : ℕ) (acc : ReplayState) (tick : SimulatedEvaluation) :
    List (Option ℤ) :=
  if tick.evaluation.status = .skipped then acc.recentBreaches
  else sliceLast breachWindow (acc.recentBreaches ++
    [if tick.evaluation.status = .breached then some tick.bucketMs else none])

def ReplayState.incidentAfter (acc : ReplayState) (plan : AlertLifecyclePlan) (bucketMs : ℤ) :
    Option AlertLifecycleIncident :=
  if plan.transition = .resolved then none
  else plan.severity.map fun severity =>
    { severity
      firstTriggeredAtMs := (acc.incident.map (·.firstTriggeredAtMs)).getD bucketMs
      lastNotifiedAtMs := some bucketMs
      lastDeliveredEventType := some .trigger }

def replayTick (policy : AlertLifecyclePolicy) (windowMs : ℤ) (acc : ReplayState)
    (tick : SimulatedEvaluation) : ReplayState :=
  let bucketMs := tick.bucketMs
  let plan := planAlertLifecycle (acc.input policy tick)
  let recentBreaches := acc.breachesAfter policy.breachWindow tick
  let base := { acc with
    state := some plan.group.state
    incident := acc.incidentAfter plan bucketMs
    recentBreaches
    lastCompleteBucketMs := some bucketMs }
  match plan.transition, plan.severity, acc.openSpan with
  | .opened, some severity, _ =>
    let firstBreach := (recentBreaches.find? Option.isSome).join.getD bucketMs
    { base with openSpan := some ⟨firstBreach, severity⟩ }
  | .resolved, _, some span =>
    { base with
      openSpan := none
      -- a re-open within M must not date back past this resolve
      recentBreaches := []
      spans := acc.spans ++ [span.close (bucketMs + windowMs)] }
  | _, some severity, some span =>
    if severity = span.severity then base
    else { base with
      openSpan := some ⟨bucketMs, severity⟩
      spans := acc.spans ++ [span.close bucketMs] }
  | _, _, _ => base

def completeTicks (evaluations : List SimulatedEvaluation) : List SimulatedEvaluation :=
  evaluations.filter fun tick => !tick.provisional

def ReplayState.finish (windowMs : ℤ) (final : ReplayState) : List SimulatedFiringSpan :=
  match final.openSpan, final.lastCompleteBucketMs with
  | some span, some last => final.spans ++ [span.close (last + windowMs)]
  | _, _ => final.spans

def simulateFiringSpans (evaluations : List SimulatedEvaluation) (rule : AlertReplayPolicy)
    (windowMs : ℤ) : List SimulatedFiringSpan :=
  ((completeTicks evaluations).foldl (replayTick rule.lifecycle windowMs) {}).finish windowMs

/-! ### What a plan decides -/

lemma Lawful.starts {plan : AlertLifecyclePlan} (h : Lawful none plan) :
    (plan.transition = .none ∧ plan.severity = none) ∨
      (plan.transition = .opened ∧ ∃ severity, plan.severity = some severity) := by
  unfold Lawful at h
  cases htransition : plan.transition <;> simp_all [Option.isSome_iff_exists]

lemma Lawful.goesOn {plan : AlertLifecyclePlan} {severity : AlertSeverity}
    (h : Lawful (some severity) plan) :
    (plan.transition = .resolved ∧ plan.severity = none) ∨
      (plan.transition ≠ .opened ∧ plan.transition ≠ .resolved ∧
        ∃ severity, plan.severity = some severity) := by
  unfold Lawful at h
  cases htransition : plan.transition with
  | escalated | deescalated =>
    rw [htransition] at h
    obtain ⟨-, _, next, -, hnext, -⟩ := h
    exact .inr ⟨nofun, nofun, next, hnext⟩
  | none | opened | continued | resolved => simp_all [Option.isSome_iff_exists]

/-- The two inputs differ in clocks, notification marks and the reminder interval only. -/
structure SameCase (a b : AlertLifecycleInput) : Prop where
  evaluation : a.evaluation = b.evaluation
  hysteresis : a.policy.hysteresis = b.policy.hysteresis
  severities : a.policy.severities = b.policy.severities
  state : a.state.getD ⟨0, 0, some []⟩ = b.state.getD ⟨0, 0, some []⟩
  incident : a.openIncident.map (·.severity) = b.openIncident.map (·.severity)
  allow : a.allowNoDataResolution = b.allowNoDataResolution

variable {a b : AlertLifecycleInput}

lemma SameCase.current (h : SameCase a b) : a.current = b.current := by
  have heq := congrArg (Option.map (nearestSeverity · a.policy.severities)) h.incident
  simpa only [AlertLifecycleInput.current, Option.map_map, h.severities,
    Function.comp_def] using heq

lemma SameCase.previous (h : SameCase a b) : a.previous = b.previous := by
  unfold AlertLifecycleInput.previous
  rw [h.state, h.current, h.severities, h.hysteresis]

lemma SameCase.incidents (h : SameCase a b) :
    (a.openIncident = none ∧ b.openIncident = none) ∨
      ∃ i j, a.openIncident = some i ∧ b.openIncident = some j ∧ i.severity = j.severity := by
  have hincident := h.incident
  cases ha : a.openIncident with
  | none =>
    rw [ha, Option.map_none, eq_comm, Option.map_eq_none_iff] at hincident
    exact .inl ⟨rfl, hincident⟩
  | some i =>
    rw [ha, Option.map_some, eq_comm, Option.map_eq_some_iff] at hincident
    obtain ⟨j, hb, hseverity⟩ := hincident
    exact .inr ⟨i, j, rfl, hb, hseverity.symm⟩

lemma SameCase.advance (h : SameCase a b) (state : AlertLifecycleState)
    (next : Option AlertSeverity) :
    (a.advance state next).group = (b.advance state next).group := by
  unfold AlertLifecycleInput.advance
  rw [h.evaluation, h.current, h.allow]
  rcases h.incidents with ⟨ha, hb⟩ | ⟨i, j, ha, hb, hseverity⟩
  · rw [ha, hb]
    cases next <;> rfl
  · rw [ha, hb]
    cases next with
    | none =>
      dsimp only
      split_ifs <;> rfl
    | some next =>
      dsimp only
      rw [hseverity]
      split_ifs <;> rfl

/-- Clocks, notifications and the reminder interval play no part in what opens and resolves. -/
lemma SameCase.group (h : SameCase a b) :
    (planAlertLifecycle a).group = (planAlertLifecycle b).group := by
  unfold planAlertLifecycle
  dsimp only
  rw [h.evaluation, h.previous, h.current, h.hysteresis, h.severities, h.allow]
  by_cases hskipped : b.evaluation.status = .skipped
  · rw [if_pos hskipped, if_pos hskipped]
    rcases h.incidents with ⟨ha, hb⟩ | ⟨i, j, ha, hb, -⟩
    · rw [ha, hb]
    · rw [ha, hb]
      rcases b.evaluation.skipReason with _ | _ | _ | _
      · rfl
      · dsimp only
        split_ifs <;> rfl
      · rfl
      · rfl
  · rw [if_neg hskipped, if_neg hskipped]
    exact h.advance _ _

/-! ### What the spans show -/

/-- Each tick, and the severity of the incident it leaves open. -/
abbrev HeldTick := ℤ × Option AlertSeverity

def SimulatedFiringSpan.Covers (span : SimulatedFiringSpan) (held : HeldTick) : Prop :=
  held.2 = some span.severity ∧ span.startMs ≤ held.1 ∧ held.1 < span.endMs

/-- The spans end by `stop`, one before the next; each shows an incident that was held, and every
incident that was held is shown. -/
structure Shows (stop : ℤ) (shown : List HeldTick) (spans : List SimulatedFiringSpan) : Prop where
  each : ∀ span ∈ spans, span.startMs < span.endMs ∧ ∃ held ∈ shown, span.Covers held
  ordered : spans.Pairwise fun a b => a.endMs ≤ b.startMs
  stops : ∀ span ∈ spans, span.endMs ≤ stop
  covered : ∀ held ∈ shown, held.2 ≠ none → ∃ span ∈ spans, span.Covers held

variable {windowMs bound stop ms : ℤ} {shown : List HeldTick} {acc : ReplayState}
  {policy : AlertLifecyclePolicy} {tick : SimulatedEvaluation} {o : OpenSpan}
  {spans : List SimulatedFiringSpan}

lemma Shows.each_append (h : Shows bound shown spans) (held : HeldTick) :
    ∀ span ∈ spans, span.startMs < span.endMs ∧ ∃ seen ∈ shown ++ [held], span.Covers seen := by
  intro span hspan
  obtain ⟨hlt, seen, hseen, hcovers⟩ := h.each span hspan
  exact ⟨hlt, seen, List.mem_append_left _ hseen, hcovers⟩

/-- A tick that holds nothing open. -/
lemma Shows.idle (h : Shows bound shown spans) (hstop : bound ≤ stop) :
    Shows stop (shown ++ [(ms, none)]) spans :=
  ⟨h.each_append _, h.ordered, fun span hspan => (h.stops span hspan).trans hstop,
    List.forall_mem_append.mpr ⟨h.covered, List.forall_mem_singleton.mpr (absurd rfl)⟩⟩

/-- A tick inside the last span, at its severity. -/
lemma Shows.stay (h : Shows stop shown (spans ++ [o.close stop])) (hstart : o.startMs ≤ ms)
    (hstop : ms < stop) :
    Shows stop (shown ++ [(ms, some o.severity)]) (spans ++ [o.close stop]) := by
  refine ⟨h.each_append _, h.ordered, h.stops, List.forall_mem_append.mpr ⟨h.covered,
    List.forall_mem_singleton.mpr fun _ => ?_⟩⟩
  exact ⟨o.close stop, List.mem_concat_self, rfl, hstart, hstop⟩

/-- A tick that starts a new span, dated back to the start of `o`. -/
lemma Shows.start (h : Shows bound shown spans) (hafter : ∀ span ∈ spans, span.endMs ≤ o.startMs)
    (hstart : o.startMs ≤ ms) (hstop : ms < stop) :
    Shows stop (shown ++ [(ms, some o.severity)]) (spans ++ [o.close stop]) := by
  have hlt := hstart.trans_lt hstop
  have hcovers : (o.close stop).Covers (ms, some o.severity) := ⟨rfl, hstart, hstop⟩
  refine ⟨List.forall_mem_append.mpr ⟨h.each_append _, List.forall_mem_singleton.mpr
    ⟨hlt, _, List.mem_concat_self, hcovers⟩⟩, ?_, ?_, ?_⟩
  · exact List.pairwise_append.mpr ⟨h.ordered, List.pairwise_singleton _ _, fun span hspan =>
      List.forall_mem_singleton.mpr (hafter span hspan)⟩
  · exact List.forall_mem_append.mpr ⟨fun span hspan => (hafter span hspan).trans hlt.le,
      List.forall_mem_singleton.mpr le_rfl⟩
  · refine List.forall_mem_append.mpr ⟨fun held hheld hopen => ?_, List.forall_mem_singleton.mpr
      fun _ => ⟨_, List.mem_concat_self, hcovers⟩⟩
    obtain ⟨span, hspan, hcovers⟩ := h.covered held hheld hopen
    exact ⟨span, List.mem_append_left _ hspan, hcovers⟩

/-- The last span goes on up to `stop`. -/
lemma Shows.extend (h : Shows bound shown (spans ++ [o.close bound])) (hstop : bound ≤ stop) :
    Shows stop shown (spans ++ [o.close stop]) := by
  obtain ⟨hold, hlast⟩ := List.forall_mem_append.mp h.each
  obtain ⟨hlt, held, hheld, hcovers⟩ := hlast _ (List.mem_singleton_self _)
  obtain ⟨hordered, -, hafter⟩ := List.pairwise_append.mp h.ordered
  have hgrows : ∀ held, (o.close bound).Covers held → (o.close stop).Covers held :=
    fun _ hcovers => ⟨hcovers.1, hcovers.2.1, hcovers.2.2.trans_le hstop⟩
  refine ⟨List.forall_mem_append.mpr ⟨hold, List.forall_mem_singleton.mpr
    ⟨hlt.trans_le hstop, held, hheld, hgrows held hcovers⟩⟩, ?_, ?_, fun held hheld hopen => ?_⟩
  · exact List.pairwise_append.mpr ⟨hordered, List.pairwise_singleton _ _, fun span hspan =>
      List.forall_mem_singleton.mpr (hafter span hspan (o.close bound) (List.mem_singleton_self _))⟩
  · refine List.forall_mem_append.mpr ⟨fun span hspan => ?_, List.forall_mem_singleton.mpr le_rfl⟩
    exact (h.stops span (List.mem_append_left _ hspan)).trans hstop
  · obtain ⟨span, hspan, hcovers⟩ := h.covered held hheld hopen
    rcases List.mem_append.mp hspan with hspan | hspan
    · exact ⟨span, List.mem_append_left _ hspan, hcovers⟩
    · obtain rfl := List.mem_singleton.mp hspan
      exact ⟨_, List.mem_concat_self, hgrows held hcovers⟩

def ReplayState.spansAt (acc : ReplayState) (stop : ℤ) : List SimulatedFiringSpan :=
  match acc.openSpan with
  | some o => acc.spans ++ [o.close stop]
  | none => acc.spans

/-- What the replay has shown once its ticks up to `bound` are done. -/
structure Shown (windowMs bound : ℤ) (shown : List HeldTick) (acc : ReplayState) : Prop where
  agrees : acc.openSpan.map (·.severity) =
    acc.incident.map (·.severity)
  last : acc.openSpan ≠ none → acc.lastCompleteBucketMs = some (bound - windowMs)
  shows : Shows bound shown (acc.spansAt bound)
  breaches : acc.openSpan = none → ∀ breach, some breach ∈ acc.recentBreaches →
    breach < bound ∧ ∀ span ∈ acc.spans, span.endMs ≤ breach

lemma mem_of_mem_sliceLast {α : Type} {n : ℕ} {x : α} {xs : List α} (h : x ∈ sliceLast n xs) :
    x ∈ xs := by
  unfold sliceLast at h
  split_ifs at h
  · exact h
  · exact mem_of_mem_lastN h

lemma mem_breachesAfter {breachWindow : ℕ} {ms : ℤ}
    (h : some ms ∈ acc.breachesAfter breachWindow tick) :
    some ms ∈ acc.recentBreaches ∨ ms = tick.bucketMs := by
  unfold ReplayState.breachesAfter at h
  by_cases hskipped : tick.evaluation.status = .skipped
  · rw [if_pos hskipped] at h
    exact .inl h
  · rw [if_neg hskipped] at h
    rcases List.mem_append.mp (mem_of_mem_sliceLast h) with hold | hnew
    · exact .inl hold
    · have heq := List.mem_singleton.mp hnew
      split_ifs at heq
      exact .inr (Option.some.inj heq)

/-- Where a span starts: at a recent breach, or at the tick that opens it. -/
lemma firstBreach_mem (breaches : List (Option ℤ)) (bucketMs : ℤ) :
    some ((breaches.find? Option.isSome).join.getD bucketMs) ∈ breaches ∨
      (breaches.find? Option.isSome).join.getD bucketMs = bucketMs := by
  cases hfind : breaches.find? Option.isSome with
  | none => exact .inr rfl
  | some first =>
    cases first with
    | none => exact .inr rfl
    | some ms => exact .inl (List.mem_of_find?_eq_some hfind)

lemma incidentAfter_severity (acc : ReplayState) (plan : AlertLifecyclePlan) (bucketMs : ℤ) :
    (acc.incidentAfter plan bucketMs).map (·.severity) =
      plan.group.openSeverity := by
  unfold ReplayState.incidentAfter AlertLifecyclePlan.group
  split_ifs
  · rfl
  · cases plan.severity with
    | none => rfl
    | some severity => rfl

lemma Shown.recent (h : Shown windowMs bound shown acc) (hclosed : acc.openSpan = none)
    (hbucket : bound ≤ tick.bucketMs) {breachWindow : ℕ} {breach : ℤ}
    (hbreach : some breach ∈ acc.breachesAfter breachWindow tick) :
    breach ≤ tick.bucketMs ∧ ∀ span ∈ acc.spans, span.endMs ≤ breach := by
  have hshows := h.shows
  rw [ReplayState.spansAt, hclosed] at hshows
  rcases mem_breachesAfter hbreach with hold | rfl
  · obtain ⟨hlt, hafter⟩ := h.breaches hclosed breach hold
    exact ⟨(hlt.trans_le hbucket).le, hafter⟩
  · exact ⟨le_rfl, fun span hspan => (hshows.stops span hspan).trans hbucket⟩

/-- A tick with no incident open: nothing to show, or a span that opens. -/
lemma Shown.step_closed (hwindow : 0 < windowMs) (h : Shown windowMs bound shown acc)
    (hbucket : bound ≤ tick.bucketMs) (hincident : acc.incident = none) :
    Shown windowMs (tick.bucketMs + windowMs)
      (shown ++ [(tick.bucketMs,
        (planAlertLifecycle (acc.input policy tick)).group.openSeverity)])
      (replayTick policy windowMs acc tick) := by
  have hstop : tick.bucketMs < tick.bucketMs + windowMs := lt_add_of_pos_right _ hwindow
  have hheld := incidentAfter_severity acc (planAlertLifecycle (acc.input policy tick))
    tick.bucketMs
  have hlawful := lawful_plan (acc.input policy tick)
  have hshows := h.shows
  have hclosed : acc.openSpan = none := by
    have hagrees := h.agrees
    rwa [hincident, Option.map_none, Option.map_eq_none_iff] at hagrees
  rw [ReplayState.spansAt, hclosed] at hshows
  rw [show (acc.input policy tick).openIncident = none from hincident] at hlawful
  unfold replayTick
  dsimp only
  generalize planAlertLifecycle (acc.input policy tick) = plan at hheld hlawful ⊢
  rcases hlawful.starts with ⟨htransition, hseverity⟩ | ⟨htransition, severity, hseverity⟩
  · have hnone : plan.group.openSeverity = none := by
      simp [AlertLifecyclePlan.group, hseverity]
    rw [hnone] at hheld ⊢
    simp only [htransition, hseverity, hclosed]
    refine ⟨hheld.symm, absurd rfl, hshows.idle (hbucket.trans hstop.le),
      fun _ breach hbreach => ?_⟩
    obtain ⟨hle, hafter⟩ := h.recent hclosed hbucket hbreach
    exact ⟨hle.trans_lt hstop, hafter⟩
  · have hsome : plan.group.openSeverity = some severity := by
      simp [AlertLifecyclePlan.group, htransition, hseverity]
    rw [hsome] at hheld ⊢
    simp only [htransition, hseverity]
    have hstart := firstBreach_mem (acc.breachesAfter policy.breachWindow tick) tick.bucketMs
    generalize (List.find? Option.isSome _).join.getD tick.bucketMs = start at hstart ⊢
    have hafter : start ≤ tick.bucketMs ∧ ∀ span ∈ acc.spans, span.endMs ≤ start := by
      rcases hstart with hmem | rfl
      · exact h.recent hclosed hbucket hmem
      · exact ⟨le_rfl, fun span hspan => (hshows.stops span hspan).trans hbucket⟩
    exact ⟨hheld.symm, fun _ => by rw [Int.add_sub_cancel],
      hshows.start (o := ⟨start, severity⟩) hafter.2 hafter.1 hstop,
      fun hnone => absurd hnone (Option.some_ne_none _)⟩

/-- A tick with an incident open: its span ends, goes on, or is followed by another. -/
lemma Shown.step_open (hwindow : 0 < windowMs) (h : Shown windowMs bound shown acc)
    (hbucket : bound ≤ tick.bucketMs) {incident : AlertLifecycleIncident}
    (hincident : acc.incident = some incident) :
    Shown windowMs (tick.bucketMs + windowMs)
      (shown ++ [(tick.bucketMs,
        (planAlertLifecycle (acc.input policy tick)).group.openSeverity)])
      (replayTick policy windowMs acc tick) := by
  have hstop : tick.bucketMs < tick.bucketMs + windowMs := lt_add_of_pos_right _ hwindow
  have hheld := incidentAfter_severity acc (planAlertLifecycle (acc.input policy tick))
    tick.bucketMs
  have hlawful := lawful_plan (acc.input policy tick)
  have hshows := h.shows
  have hagrees := h.agrees
  have hlast : some tick.bucketMs = some (tick.bucketMs + windowMs - windowMs) := by
    rw [Int.add_sub_cancel]
  rw [hincident, Option.map_some, Option.map_eq_some_iff] at hagrees
  obtain ⟨o, ho, -⟩ := hagrees
  rw [ReplayState.spansAt, ho] at hshows
  rw [show (acc.input policy tick).openIncident = some incident from hincident] at hlawful
  unfold replayTick
  dsimp only
  generalize planAlertLifecycle (acc.input policy tick) = plan at hheld hlawful ⊢
  rcases hlawful.goesOn with ⟨htransition, hseverity⟩ | ⟨hopened, hresolved, severity, hseverity⟩
  · have hnone : plan.group.openSeverity = none := by
      simp [AlertLifecyclePlan.group, htransition]
    rw [hnone] at hheld ⊢
    simp only [htransition, hseverity, ho]
    exact ⟨hheld.symm, absurd rfl, (hshows.extend (hbucket.trans hstop.le)).idle le_rfl,
      fun _ breach hbreach => absurd hbreach List.not_mem_nil⟩
  · have hsome : plan.group.openSeverity = some severity := by
      simp [AlertLifecyclePlan.group, hresolved, hseverity]
    rw [hsome] at hheld ⊢
    rw [hseverity, ho]
    split
    · exact absurd ‹_› hopened
    · exact absurd ‹_› hresolved
    · rename_i found span hfound hspan _ _
      obtain rfl := Option.some.inj hfound
      obtain rfl := Option.some.inj hspan
      by_cases hsame : severity = o.severity
      · subst hsame
        rw [if_pos rfl]
        have hlt : o.startMs < bound := (hshows.each _ List.mem_concat_self).1
        exact ⟨hheld.symm, fun _ => hlast, (hshows.extend (hbucket.trans hstop.le)).stay
          (hlt.trans_le hbucket).le hstop, fun hnone => absurd hnone (Option.some_ne_none _)⟩
      · -- a new severity: the span so far ends where the next one starts
        rw [if_neg hsame]
        have hended := hshows.extend hbucket
        exact ⟨hheld.symm, fun _ => hlast,
          hended.start (o := ⟨tick.bucketMs, severity⟩) hended.stops le_rfl hstop,
          fun hnone => absurd hnone (Option.some_ne_none _)⟩
    · rename_i hnone
      exact absurd rfl (hnone severity o rfl)

/-- One tick, whichever way its plan goes. -/
lemma Shown.step (policy : AlertLifecyclePolicy) (hwindow : 0 < windowMs)
    (h : Shown windowMs bound shown acc) (hbucket : bound ≤ tick.bucketMs) :
    Shown windowMs (tick.bucketMs + windowMs)
      (shown ++ [(tick.bucketMs,
        (planAlertLifecycle (acc.input policy tick)).group.openSeverity)])
      (replayTick policy windowMs acc tick) := by
  cases hincident : acc.incident with
  | none => exact h.step_closed hwindow hbucket hincident
  | some incident => exact h.step_open hwindow hbucket hincident

/-! ### The preview and the scheduler -/

/-- The scheduler evaluates the window the preview does; an empty one is evidence of nothing. -/
def Observes (tick : SimulatedEvaluation) (host : HostTick) : Prop :=
  host.evaluation = tick.evaluation ∧
    host.allowNoDataResolution = some (decide (tick.evaluation.status ≠ .skipped))

structure FollowsGroup (acc : ReplayState) (group : TrackedGroup) : Prop where
  state : acc.state.getD ⟨0, 0, some []⟩ = group.state
  incident : acc.incident.map (·.severity) = group.openSeverity

lemma followsGroup_replayTick (policy : AlertLifecyclePolicy) (windowMs : ℤ) (acc : ReplayState)
    (tick : SimulatedEvaluation) :
    FollowsGroup (replayTick policy windowMs acc tick)
      (planAlertLifecycle (acc.input policy tick)).group := by
  have hincident := incidentAfter_severity acc (planAlertLifecycle (acc.input policy tick))
    tick.bucketMs
  unfold replayTick
  dsimp only
  split
  · exact ⟨rfl, hincident⟩
  · exact ⟨rfl, hincident⟩
  · split_ifs
    · exact ⟨rfl, hincident⟩
    · exact ⟨rfl, hincident⟩
  · exact ⟨rfl, hincident⟩

/-- The severity that each plan of the scheduler leaves open, at its tick. -/
def heldTicks (ticks : List SimulatedEvaluation) (plans : List AlertLifecyclePlan) :
    List HeldTick :=
  List.zipWith (fun tick plan => (tick.bucketMs, plan.group.openSeverity)) ticks plans

lemma replay_shown (policy : AlertLifecyclePolicy) (renotifyMinutes : ℤ) (hwindow : 0 < windowMs)
    {ticks : List SimulatedEvaluation} {hosts : List HostTick}
    (hobserves : List.Forall₂ Observes ticks hosts) {group : TrackedGroup}
    (h : Shown windowMs bound shown acc) (hgroup : FollowsGroup acc group)
    (hbound : ∀ tick ∈ ticks, bound ≤ tick.bucketMs)
    (hspaced : ticks.Pairwise fun a b => a.bucketMs + windowMs ≤ b.bucketMs) :
    ∃ stop, Shown windowMs stop
      (shown ++ heldTicks ticks
        (replayPlans { policy with renotifyIntervalMinutes := renotifyMinutes } group hosts))
      (ticks.foldl (replayTick policy windowMs) acc) := by
  induction hobserves generalizing acc group shown bound with
  | nil => exact ⟨bound, by rwa [heldTicks, List.zipWith_nil_left, List.append_nil]⟩
  | @cons tick host ticks hosts hobserved _ ih =>
    obtain ⟨hlater, hspaced⟩ := List.pairwise_cons.mp hspaced
    have hcase : SameCase (acc.input policy tick)
        (group.input { policy with renotifyIntervalMinutes := renotifyMinutes } host) := by
      refine ⟨hobserved.1.symm, rfl, rfl, hgroup.state, ?_, hobserved.2.symm⟩
      rw [TrackedGroup.input, ← hgroup.incident, Option.map_map, Option.map_map]
      rfl
    have hstep := Shown.step policy hwindow h (hbound tick List.mem_cons_self)
    have htracks := followsGroup_replayTick policy windowMs acc tick
    rw [hcase.group] at hstep htracks
    obtain ⟨stop, hshown⟩ := ih hstep htracks hlater hspaced
    rw [List.append_assoc] at hshown
    exact ⟨stop, hshown⟩

lemma Shown.finish (h : Shown windowMs bound shown acc) :
    Shows bound shown (acc.finish windowMs) := by
  have hshows := h.shows
  unfold ReplayState.spansAt at hshows
  unfold ReplayState.finish
  cases ho : acc.openSpan with
  | none => rwa [ho] at hshows
  | some o =>
    rw [h.last (by rw [ho]; nofun)]
    rw [ho] at hshows
    dsimp only
    rwa [Int.sub_add_cancel]

lemma exists_bound (hwindow : 0 < windowMs) {ticks : List SimulatedEvaluation}
    (hspaced : ticks.Pairwise fun a b => a.bucketMs + windowMs ≤ b.bucketMs) :
    ∃ bound, ∀ tick ∈ ticks, bound ≤ tick.bucketMs := by
  cases hspaced with
  | nil => exact ⟨0, List.forall_mem_nil _⟩
  | @cons first rest hlater _ =>
    refine ⟨first.bucketMs, List.forall_mem_cons.mpr ⟨le_rfl, fun tick htick => ?_⟩⟩
    have hle := hlater tick htick
    omega

/-- The preview's spans follow one another without overlap, each shows a severity that the
scheduler holds open at a tick inside it, and every tick it leaves an incident open at is shown at
that severity, whatever clocks, notifications and reminders the scheduler has. -/
theorem simulateFiringSpans_as_scheduler (rule : AlertReplayPolicy)
    (evaluations : List SimulatedEvaluation) (windowMs renotifyMinutes : ℤ) (hosts : List HostTick)
    (hwindow : 0 < windowMs)
    (hspaced : (completeTicks evaluations).Pairwise fun a b => a.bucketMs + windowMs ≤ b.bucketMs)
    (hobserves : List.Forall₂ Observes (completeTicks evaluations) hosts) :
    let held := heldTicks (completeTicks evaluations)
      (replayPlans { rule.lifecycle with renotifyIntervalMinutes := renotifyMinutes }
        ⟨⟨0, 0, some []⟩, none⟩ hosts)
    let spans := simulateFiringSpans evaluations rule windowMs
    (spans.Pairwise fun a b => a.endMs ≤ b.startMs) ∧
      (∀ span ∈ spans, span.startMs < span.endMs ∧ ∃ tick ∈ held, span.Covers tick) ∧
      ∀ tick ∈ held, tick.2 ≠ none → ∃ span ∈ spans, span.Covers tick := by
  intro held spans
  obtain ⟨bound, hbound⟩ := exists_bound hwindow hspaced
  have hinit : Shown windowMs bound [] {} := ⟨rfl, absurd rfl, ⟨List.forall_mem_nil _, .nil,
    List.forall_mem_nil _, List.forall_mem_nil _⟩, fun _ _ hms => absurd hms List.not_mem_nil⟩
  have htracks : FollowsGroup {} ⟨⟨0, 0, some []⟩, none⟩ := ⟨rfl, rfl⟩
  obtain ⟨stop, hshown⟩ :=
    replay_shown rule.lifecycle renotifyMinutes hwindow hobserves hinit htracks hbound hspaced
  have hshows := hshown.finish
  exact ⟨hshows.ordered, hshows.each, hshows.covered⟩

def sampleWindow (bucketMs : ℤ) (status : AlertTierStatus) : SimulatedEvaluation where
  bucketMs := bucketMs
  evaluation :=
    { status := if status = .breach then .breached else .healthy
      value := some 1
      sampleCount := 1
      threshold := 1
      thresholdUpper := none
      comparator := .gte
      reason := "test"
      derivedFromNoData := false
      levels := [⟨.warning, status⟩] }

def sampleHost (tick : SimulatedEvaluation) : HostTick where
  evaluation := tick.evaluation
  allowNoDataResolution := some (tick.evaluation.status ≠ .skipped)
  nowMs := tick.bucketMs + 90000

/-- Two breaches open an incident, dated back to the first, and two clear windows resolve it. -/
theorem simulateFiringSpans_as_scheduler_sample :
    let evaluations := [sampleWindow 0 .clear, sampleWindow 60000 .breach,
      sampleWindow 120000 .breach, sampleWindow 180000 .clear, sampleWindow 240000 .clear]
    let spans := simulateFiringSpans evaluations ⟨2, none, 2, [.warning]⟩ 60000
    spans = [⟨60000, 300000, .warning⟩] ∧ spans.Pairwise fun a b => a.endMs ≤ b.startMs := by
  intro evaluations spans
  refine ⟨by with_unfolding_all decide, (simulateFiringSpans_as_scheduler _ evaluations 60000 30
    (evaluations.map sampleHost) (by decide) (by decide) ?_).1⟩
  exact List.forall₂_map_right_iff.mpr (List.forall₂_same.mpr fun _ _ => ⟨rfl, rfl⟩)

end Maple.Alerting
