import Maple.TrailingRun

/-! Severity tiers of an alert rule: where a value leaves each tier, the history of ticks, and the
severity the history stands for. -/

namespace Maple.Alerting
open TrailingRun

inductive AlertSeverity
  | warning
  | critical
deriving DecidableEq, Repr

def ALERT_SEVERITY_RANK : AlertSeverity → ℕ
  | .warning => 1
  | .critical => 2

inductive AlertTierStatus
  | clear
  | hold
  | breach
deriving DecidableEq, Repr

inductive AlertComparator
  | gt
  | gte
  | lt
  | lte
  | eq
  | neq
  | between
  | not_between
deriving DecidableEq, Repr

structure AlertThresholdTier where
  severity : AlertSeverity
  value : ℚ
  upper : Option ℚ
  /-- `none` recovers as soon as the trigger stops holding. -/
  recoveryValue : Option ℚ

structure AlertTierLevel where
  severity : AlertSeverity
  status : AlertTierStatus
deriving DecidableEq, Repr

structure TieredHysteresisPolicy where
  breachesToOpen : ℕ
  breachWindow : ℕ
  healthyToResolve : ℕ

def compareAlertThreshold (value : ℚ) (comparator : AlertComparator) (threshold : ℚ)
    (thresholdUpper : Option ℚ := none) : Bool :=
  match comparator with
  | .gt => threshold < value
  | .gte => threshold ≤ value
  | .lt => value < threshold
  | .lte => value ≤ threshold
  | .eq => value = threshold
  | .neq => value ≠ threshold
  | .between => thresholdUpper.any fun upper => threshold ≤ value ∧ value ≤ upper
  | .not_between => thresholdUpper.any fun upper => value < threshold ∨ upper < value

def classifyTier (value : ℚ) (comparator : AlertComparator) (tier : AlertThresholdTier) :
    AlertTierStatus :=
  if compareAlertThreshold value comparator tier.value tier.upper then .breach
  else
    match tier.recoveryValue with
    | none => .clear
    | some recoveryValue =>
      if compareAlertThreshold value comparator recoveryValue then .hold else .clear

/-! ### Ticks as small numbers -/

def STATUS_CODE : AlertTierStatus → ℕ
  | .clear => 0
  | .hold => 1
  | .breach => 2

def CODE_STATUS : List AlertTierStatus := [.clear, .hold, .breach]

def shiftOf (severity : AlertSeverity) : ℕ := (ALERT_SEVERITY_RANK severity - 1) * 2

/-- Two bits per tier, warning low, critical high. -/
def encodeTick (levels : List AlertTierLevel) : ℕ :=
  levels.foldl (fun code level => code ||| (STATUS_CODE level.status <<< shiftOf level.severity)) 0

def tierStatusAt (code : ℕ) (severity : AlertSeverity) : AlertTierStatus :=
  (CODE_STATUS[(code >>> shiftOf severity) &&& 0b11]?).getD .clear

def historyLength (policy : TieredHysteresisPolicy) : ℕ :=
  max policy.breachWindow (max policy.breachesToOpen policy.healthyToResolve)

/-- JavaScript's `slice(-n)`, which keeps everything for `n = 0`. -/
def sliceLast {α : Type} (n : ℕ) (xs : List α) : List α := if n = 0 then xs else lastN n xs

def appendTick (history : List ℕ) (code : ℕ) (policy : TieredHysteresisPolicy) : List ℕ :=
  sliceLast (historyLength policy) (history ++ [code])

def anyBreach (code : ℕ) : Bool :=
  tierStatusAt code .warning = .breach || tierStatusAt code .critical = .breach

def allClear (code : ℕ) : Bool :=
  tierStatusAt code .warning = .clear && tierStatusAt code .critical = .clear

/-- A tier activates when the newest tick and N of the last M breach it; an active one stays until
its last R ticks are clear. -/
def resolveActiveSeverity (history : List ℕ) (severities : List AlertSeverity)
    (current : Option AlertSeverity) (policy : TieredHysteresisPolicy) : Option AlertSeverity :=
  match history.getLast? with
  | none => current
  | some newest =>
    let recent := sliceLast policy.breachWindow history
    let currentRank := (current.map ALERT_SEVERITY_RANK).getD 0
    let ordered := severities.mergeSort fun a b =>
      decide (ALERT_SEVERITY_RANK b ≤ ALERT_SEVERITY_RANK a)
    ordered.find? fun severity =>
      (tierStatusAt newest severity = .breach &&
        policy.breachesToOpen ≤ recent.countP fun code => tierStatusAt code severity = .breach) ||
      (ALERT_SEVERITY_RANK severity ≤ currentRank &&
        trailingRun (fun code => tierStatusAt code severity = .clear) history <
          policy.healthyToResolve)

structure Counters where
  consecutiveBreaches : ℕ
  consecutiveHealthy : ℕ
deriving DecidableEq, Repr

def countersFromHistory (history : List ℕ) (policy : TieredHysteresisPolicy) : Counters where
  consecutiveBreaches := min (trailingRun anyBreach history) policy.breachesToOpen
  consecutiveHealthy := min (trailingRun allClear history) policy.healthyToResolve

/-- A history for a state row written before histories existed. -/
def seedHistory (counters : Counters) (severity : AlertSeverity)
    (policy : TieredHysteresisPolicy) : List ℕ :=
  let breach := encodeTick [⟨severity, .breach⟩]
  sliceLast (historyLength policy)
    (List.replicate counters.consecutiveHealthy 0 ++
      List.replicate counters.consecutiveBreaches breach)

/-- The rule tier an incident at `severity` reads as. -/
def nearestSeverity (severity : AlertSeverity) (severities : List AlertSeverity) : AlertSeverity :=
  if severity ∈ severities then severity else severities.head?.getD severity

def maxSeverity : Option AlertSeverity → Option AlertSeverity → Option AlertSeverity
  | none, b => b
  | a, none => a
  | some a, some b =>
      if ALERT_SEVERITY_RANK b ≤ ALERT_SEVERITY_RANK a then some a else some b

/-! ### One tier -/

section oneTier
variable {severity : AlertSeverity} {policy : TieredHysteresisPolicy} {history : List ℕ} {code : ℕ}

/-- The codes a rule with one tier records when no value is in a recovery band. -/
def codeOf (severity : AlertSeverity) (breached : Bool) : ℕ :=
  if breached then encodeTick [⟨severity, .breach⟩] else 0

lemma tierStatusAt_codeOf (severity : AlertSeverity) (breached : Bool) :
    tierStatusAt (codeOf severity breached) severity = if breached then .breach else .clear := by
  cases severity <;> cases breached <;> rfl

lemma anyBreach_codeOf (severity : AlertSeverity) (breached : Bool) : anyBreach (codeOf severity breached) = breached := by
  cases severity <;> cases breached <;> rfl

lemma allClear_codeOf (severity : AlertSeverity) (breached : Bool) : allClear (codeOf severity breached) = !breached := by
  cases severity <;> cases breached <;> rfl

/-- Every tick of the history is one of the tier's. -/
def OneTier (severity : AlertSeverity) (history : List ℕ) : Prop :=
  ∀ code ∈ history, ∃ breached, code = codeOf severity breached

lemma OneTier.sliceLast {n : ℕ} (h : OneTier severity history) :
    OneTier severity (sliceLast n history) := by
  intro code hcode
  unfold Alerting.sliceLast at hcode
  split_ifs at hcode
  · exact h code hcode
  · exact h code (mem_of_mem_lastN hcode)

lemma OneTier.appendTick (h : OneTier severity history) (breached : Bool) :
    OneTier severity (appendTick history (codeOf severity breached) policy) := by
  refine OneTier.sliceLast fun code hcode => ?_
  rcases List.mem_append.mp hcode with hold | hnew
  · exact h code hold
  · exact ⟨breached, List.mem_singleton.mp hnew⟩

lemma oneTier_seedHistory (counters : Counters) :
    OneTier severity (seedHistory counters severity policy) := by
  refine OneTier.sliceLast fun code hcode => ?_
  rcases List.mem_append.mp hcode with hclear | hbreach
  · exact ⟨false, List.eq_of_mem_replicate hclear⟩
  · exact ⟨true, List.eq_of_mem_replicate hbreach⟩

lemma OneTier.run_breach (h : OneTier severity history) :
    trailingRun (fun code => tierStatusAt code severity = .breach) history =
      trailingRun anyBreach history := by
  refine trailingRun_congr fun code hcode => ?_
  obtain ⟨breached, rfl⟩ := h code hcode
  rw [tierStatusAt_codeOf, anyBreach_codeOf]
  cases breached <;> rfl

lemma OneTier.run_clear (h : OneTier severity history) :
    trailingRun (fun code => tierStatusAt code severity = .clear) history =
      trailingRun allClear history := by
  refine trailingRun_congr fun code hcode => ?_
  obtain ⟨breached, rfl⟩ := h code hcode
  rw [tierStatusAt_codeOf, allClear_codeOf]
  cases breached <;> rfl

/-- What the counters read of a run is not forgotten. -/
lemma min_run_sliceLast {p : ℕ → Bool} {m n : ℕ} (h : m ≤ n) :
    min (trailingRun p (sliceLast n history)) m = min (trailingRun p history) m := by
  unfold sliceLast
  split_ifs with hzero
  · rfl
  · exact min_trailingRun_lastN h

/-- One tick more: a run goes on or starts again. -/
lemma countersFromHistory_appendTick (severity : AlertSeverity) (breached : Bool)
    (policy : TieredHysteresisPolicy) (history : List ℕ) :
    countersFromHistory (appendTick history (codeOf severity breached) policy) policy =
      if breached then
        ⟨min ((countersFromHistory history policy).consecutiveBreaches + 1) policy.breachesToOpen, 0⟩
      else
        ⟨0, min ((countersFromHistory history policy).consecutiveHealthy + 1)
          policy.healthyToResolve⟩ := by
  have hopen : policy.breachesToOpen ≤ historyLength policy := by
    simp [historyLength]
  have hresolve : policy.healthyToResolve ≤ historyLength policy := by
    simp [historyLength]
  simp only [countersFromHistory, appendTick, min_run_sliceLast hopen, min_run_sliceLast hresolve,
    trailingRun_append, anyBreach_codeOf, allClear_codeOf]
  cases breached with
  | true => simp; omega
  | false => simp; omega

/-- The counters of a seeded history are the stored ones. -/
lemma countersFromHistory_seedHistory {counters : Counters}
    (hbreaches : counters.consecutiveBreaches ≤ policy.breachesToOpen)
    (hhealthy : counters.consecutiveHealthy ≤ policy.healthyToResolve)
    (hone : counters.consecutiveBreaches = 0 ∨ counters.consecutiveHealthy = 0) :
    countersFromHistory (seedHistory counters severity policy) policy = counters := by
  have hopen : policy.breachesToOpen ≤ historyLength policy := by
    simp [historyLength]
  have hresolve : policy.healthyToResolve ≤ historyLength policy := by
    simp [historyLength]
  have hclear : ∀ p : ℕ → Bool, trailingRun p (List.replicate counters.consecutiveHealthy 0) =
      if p 0 then counters.consecutiveHealthy else 0 := by
    intro p
    have h := trailingRun_replicate (p := p) [] 0 counters.consecutiveHealthy
    simpa using h
  have hzero : codeOf severity false = 0 := rfl
  have hb0 := hzero ▸ anyBreach_codeOf severity false
  have hc0 := hzero ▸ allClear_codeOf severity false
  have hb1 := anyBreach_codeOf severity true
  have hc1 := allClear_codeOf severity true
  simp only [codeOf, if_true] at hb1 hc1
  unfold countersFromHistory seedHistory
  simp only [min_run_sliceLast hopen, min_run_sliceLast hresolve, trailingRun_replicate, hclear, hb0,
    hc0, hb1, hc1]
  obtain ⟨breaches, healthy⟩ := counters
  rcases hone with hone | hone
  · simp_all
  · simp_all

variable (policy) in
/-- The severity after a tick of a rule with one tier, from the counters. -/
lemma resolveActiveSeverity_oneTier {current : Option AlertSeverity}
    (hwindow : policy.breachWindow = policy.breachesToOpen) (hpos : 0 < policy.breachesToOpen)
    (htier : OneTier severity history) (hcurrent : current = none ∨ current = some severity)
    (breached : Bool) :
    let history' := appendTick history (codeOf severity breached) policy
    let counters := countersFromHistory history' policy
    resolveActiveSeverity history' [severity] current policy =
      if (breached = true ∧ policy.breachesToOpen ≤ counters.consecutiveBreaches) ∨
          (current = some severity ∧ counters.consecutiveHealthy < policy.healthyToResolve) then
        some severity
      else none := by
  intro history' counters
  have htier' : OneTier severity history' := htier.appendTick breached
  obtain ⟨older, hnewest⟩ : ∃ older, history' = older ++ [codeOf severity breached] := by
    have hlength : 0 < historyLength policy := by
      simp only [historyLength]
      omega
    obtain ⟨older, holder⟩ := lastN_append_singleton hlength history (codeOf severity breached)
    refine ⟨older, ?_⟩
    simp only [history', Alerting.appendTick, Alerting.sliceLast, if_neg hlength.ne', holder]
  have hlast : history'.getLast? = some (codeOf severity breached) := by
    rw [hnewest, List.getLast?_append, List.getLast?_singleton]
    rfl
  have hbreaches : policy.breachesToOpen ≤ (Alerting.sliceLast policy.breachWindow history').countP
      (fun code => tierStatusAt code severity = .breach) ↔
        policy.breachesToOpen ≤ counters.consecutiveBreaches := by
    rw [hwindow, Alerting.sliceLast, if_neg hpos.ne', le_countP_lastN_iff, htier'.run_breach]
    simp [counters, countersFromHistory]
  have hcleared : trailingRun (fun code => tierStatusAt code severity = .clear) history' <
      policy.healthyToResolve ↔ counters.consecutiveHealthy < policy.healthyToResolve := by
    rw [htier'.run_clear]
    simp [counters, countersFromHistory]
  have hrank : ¬ ALERT_SEVERITY_RANK severity ≤ 0 := by
    cases severity <;> decide
  unfold resolveActiveSeverity
  rw [hlast]
  dsimp only
  rw [List.mergeSort_singleton, List.find?_singleton]
  refine if_congr ?_ rfl rfl
  rw [Bool.or_eq_true, Bool.and_eq_true, Bool.and_eq_true, decide_eq_true_eq, decide_eq_true_eq,
    decide_eq_true_eq, decide_eq_true_eq, hbreaches, hcleared, tierStatusAt_codeOf]
  rcases hcurrent with rfl | rfl
  · cases breached with
    | true => simp [hrank]
    | false => simp [hrank]
  · cases breached with
    | true => simp
    | false => simp

end oneTier

end Maple.Alerting
