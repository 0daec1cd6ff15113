import Mathlib

/-! The consecutive-count machine of incidents: breach on N ticks in a row to open, be healthy on R
in a row to resolve. -/

namespace Maple.Alerting

structure HysteresisConfig where
  breachesToOpen : ℕ
  healthyToResolve : ℕ
  /-- Quiet time after a resolve; 0 disables it. -/
  cooldownMs : ℤ

inductive HysteresisState
  | Clear (consecutiveHealthy : ℕ) (cooldownUntilMs : Option ℤ)
  | Breaching (consecutiveBreaches : ℕ) (cooldownUntilMs : Option ℤ)
  | Open (consecutiveBreaches consecutiveHealthy : ℕ)
deriving DecidableEq

inductive HysteresisEvent
  | Breached (nowMs : ℤ) (config : HysteresisConfig)
  | Recovered (nowMs : ℤ) (config : HysteresisConfig)
  | Skipped

inductive HysteresisEmit
  | IncidentOpened (atMs : ℤ)
  | IncidentResolved (atMs : ℤ)
deriving DecidableEq

def cooling (untilMs : Option ℤ) (nowMs : ℤ) : Bool := untilMs.any fun untilMs => nowMs < untilMs

def carryCooldown (untilMs : Option ℤ) (nowMs : ℤ) : Option ℤ :=
  if cooling untilMs nowMs then untilMs else none

/-- The branch of a breach outside an incident. -/
def breach (consecutiveBreaches : ℕ) (cooldownUntilMs : Option ℤ) (nowMs : ℤ)
    (config : HysteresisConfig) : HysteresisState × List HysteresisEmit :=
  if config.breachesToOpen ≤ consecutiveBreaches ∧ ¬ cooling cooldownUntilMs nowMs then
    (.Open consecutiveBreaches 0, [.IncidentOpened nowMs])
  else (.Breaching consecutiveBreaches (carryCooldown cooldownUntilMs nowMs), [])

def IncidentHysteresis (state : HysteresisState) (event : HysteresisEvent) :
    HysteresisState × List HysteresisEmit :=
  match event, state with
  | .Skipped, _ => (state, [])
  | .Breached nowMs config, .Clear _ cooldownUntilMs =>
      breach (min 1 config.breachesToOpen) cooldownUntilMs nowMs config
  | .Breached nowMs config, .Breaching consecutiveBreaches cooldownUntilMs =>
      breach (min (consecutiveBreaches + 1) config.breachesToOpen) cooldownUntilMs nowMs config
  | .Breached _ config, .Open consecutiveBreaches _ =>
      (.Open (min (consecutiveBreaches + 1) config.breachesToOpen) 0, [])
  | .Recovered nowMs config, .Clear consecutiveHealthy cooldownUntilMs =>
      (.Clear (min (consecutiveHealthy + 1) config.healthyToResolve)
        (carryCooldown cooldownUntilMs nowMs), [])
  | .Recovered nowMs config, .Breaching _ cooldownUntilMs =>
      (.Clear (min 1 config.healthyToResolve) (carryCooldown cooldownUntilMs nowMs), [])
  | .Recovered nowMs config, .Open _ consecutiveHealthy =>
      let consecutiveHealthy := min (consecutiveHealthy + 1) config.healthyToResolve
      if consecutiveHealthy < config.healthyToResolve then (.Open 0 consecutiveHealthy, [])
      else
        (.Clear consecutiveHealthy
          (if 0 < config.cooldownMs then some (nowMs + config.cooldownMs) else none),
          [.IncidentResolved nowMs])

/-- The counters and whether an incident stands, as the rows of both callers store them. -/
structure HysteresisRow where
  consecutiveBreaches : ℕ
  consecutiveHealthy : ℕ
  incidentOpen : Bool
  lastResolvedAtMs : Option ℤ

inductive HysteresisTransition
  | open
  | continue
  | resolve
  | noop
deriving DecidableEq, Repr

structure HysteresisOutcome where
  transition : HysteresisTransition
  consecutiveBreaches : ℕ
  consecutiveHealthy : ℕ

def snapshotFrom (row : HysteresisRow) (config : HysteresisConfig) : HysteresisState :=
  let cooldownUntilMs :=
    if 0 < config.cooldownMs then row.lastResolvedAtMs.map (· + config.cooldownMs) else none
  if row.incidentOpen then .Open row.consecutiveBreaches row.consecutiveHealthy
  else if 0 < row.consecutiveBreaches then .Breaching row.consecutiveBreaches cooldownUntilMs
  else .Clear row.consecutiveHealthy cooldownUntilMs

def countersOf : HysteresisState → ℕ × ℕ
  | .Clear consecutiveHealthy _ => (0, consecutiveHealthy)
  | .Breaching consecutiveBreaches _ => (consecutiveBreaches, 0)
  | .Open consecutiveBreaches consecutiveHealthy => (consecutiveBreaches, consecutiveHealthy)

inductive AlertEvaluationStatus
  | breached
  | healthy
  | skipped
deriving DecidableEq, Repr

def foldObservation (row : HysteresisRow) (status : AlertEvaluationStatus)
    (config : HysteresisConfig) (nowMs : ℤ) : HysteresisOutcome :=
  let event : HysteresisEvent :=
    match status with
    | .skipped => .Skipped
    | .breached => .Breached nowMs config
    | .healthy => .Recovered nowMs config
  let (next, emittedEvents) := IncidentHysteresis (snapshotFrom row config) event
  let counters := countersOf next
  let opened := emittedEvents.any fun e => e matches .IncidentOpened _
  let resolved := emittedEvents.any fun e => e matches .IncidentResolved _
  let transition : HysteresisTransition :=
    if opened then .open
    else if resolved then .resolve
    else if row.incidentOpen && status = .breached then .continue
    else .noop
  ⟨transition, counters.1, counters.2⟩

/-- The row the host stores after a tick. -/
def HysteresisRow.next (row : HysteresisRow) (outcome : HysteresisOutcome) (nowMs : ℤ) :
    HysteresisRow where
  consecutiveBreaches := outcome.consecutiveBreaches
  consecutiveHealthy := outcome.consecutiveHealthy
  incidentOpen :=
    match outcome.transition with
    | .open => true
    | .resolve => false
    | _ => row.incidentOpen
  lastResolvedAtMs := if outcome.transition = .resolve then some nowMs else row.lastResolvedAtMs

lemma next_incidentOpen (row : HysteresisRow) (outcome : HysteresisOutcome) (nowMs : ℤ) :
    (row.next outcome nowMs).incidentOpen =
      if outcome.transition = .open then true
      else if outcome.transition = .resolve then false else row.incidentOpen := by
  obtain ⟨transition, consecutiveBreaches, consecutiveHealthy⟩ := outcome
  cases transition <;> rfl

/-- The tick opens an incident. -/
def Opens (config : HysteresisConfig) (row : HysteresisRow) (status : AlertEvaluationStatus) :
    Prop :=
  row.incidentOpen = false ∧ status = .breached ∧
    config.breachesToOpen ≤ min (row.consecutiveBreaches + 1) config.breachesToOpen

/-- The tick resolves the incident. -/
def Resolves (config : HysteresisConfig) (row : HysteresisRow) (status : AlertEvaluationStatus) :
    Prop :=
  row.incidentOpen = true ∧ status = .healthy ∧
    config.healthyToResolve ≤ min (row.consecutiveHealthy + 1) config.healthyToResolve

/-- What one tick does to the counters of a row. -/
def tickCounters (config : HysteresisConfig) (counters : ℕ × ℕ) : AlertEvaluationStatus → ℕ × ℕ
  | .skipped => counters
  | .breached => (min (counters.1 + 1) config.breachesToOpen, 0)
  | .healthy => (0, min (counters.2 + 1) config.healthyToResolve)

/-- When the cooldown of the row's last resolve ends. -/
def HysteresisRow.cooldownUntilMs (row : HysteresisRow) (config : HysteresisConfig) : Option ℤ :=
  if 0 < config.cooldownMs then row.lastResolvedAtMs.map (· + config.cooldownMs) else none

/-- A row whose counters are not both set moves by its counters and, to open, by the clock. -/
lemma foldObservation_tick {row : HysteresisRow} (config : HysteresisConfig) (nowMs : ℤ)
    (hone : row.consecutiveBreaches = 0 ∨ row.consecutiveHealthy = 0)
    (status : AlertEvaluationStatus) :
    let outcome := foldObservation row status config nowMs
    (outcome.consecutiveBreaches, outcome.consecutiveHealthy) =
        tickCounters config (row.consecutiveBreaches, row.consecutiveHealthy) status ∧
      (outcome.transition = .open ↔
        Opens config row status ∧ cooling (row.cooldownUntilMs config) nowMs = false) ∧
      (outcome.transition = .resolve ↔ Resolves config row status) := by
  obtain ⟨consecutiveBreaches, consecutiveHealthy, incidentOpen, lastResolvedAtMs⟩ := row
  dsimp only at hone ⊢
  generalize huntil : HysteresisRow.cooldownUntilMs ⟨consecutiveBreaches, consecutiveHealthy,
    incidentOpen, lastResolvedAtMs⟩ config = cooldownUntilMs
  cases incidentOpen with
  | true =>
    have hsnapshot : snapshotFrom ⟨consecutiveBreaches, consecutiveHealthy, true, lastResolvedAtMs⟩
        config = .Open consecutiveBreaches consecutiveHealthy := rfl
    cases status with
    | breached => simp [foldObservation, hsnapshot, IncidentHysteresis, countersOf, tickCounters,
        Opens, Resolves]
    | skipped => simp [foldObservation, hsnapshot, IncidentHysteresis, countersOf, tickCounters,
        Opens, Resolves]
    | healthy =>
      by_cases hstays : min (consecutiveHealthy + 1) config.healthyToResolve <
          config.healthyToResolve
      · simp [foldObservation, hsnapshot, IncidentHysteresis, hstays, countersOf, tickCounters,
          Opens, Resolves]
        omega
      · simp [foldObservation, hsnapshot, IncidentHysteresis, hstays, countersOf, tickCounters,
          Opens, Resolves]
        omega
  | false =>
    by_cases hzero : consecutiveBreaches = 0
    · have hsnapshot : snapshotFrom ⟨consecutiveBreaches, consecutiveHealthy, false,
          lastResolvedAtMs⟩ config = .Clear consecutiveHealthy cooldownUntilMs := by
        rw [← huntil]
        simp [snapshotFrom, hzero, HysteresisRow.cooldownUntilMs]
      subst hzero
      cases status with
      | skipped => simp [foldObservation, hsnapshot, IncidentHysteresis, countersOf, tickCounters,
          Opens, Resolves]
      | healthy => simp [foldObservation, hsnapshot, IncidentHysteresis, countersOf, tickCounters,
          Opens, Resolves]
      | breached =>
        by_cases hopens : config.breachesToOpen ≤ 1 ∧ cooling cooldownUntilMs nowMs = false
        · simp [foldObservation, hsnapshot, IncidentHysteresis, breach, hopens, countersOf,
            tickCounters, Opens, Resolves]
        · simp [foldObservation, hsnapshot, IncidentHysteresis, breach, hopens, countersOf,
            tickCounters, Opens, Resolves]
    · have hhealthy : consecutiveHealthy = 0 := by omega
      have hsnapshot : snapshotFrom ⟨consecutiveBreaches, consecutiveHealthy, false,
          lastResolvedAtMs⟩ config = .Breaching consecutiveBreaches cooldownUntilMs := by
        rw [← huntil]
        simp [snapshotFrom, HysteresisRow.cooldownUntilMs]
        omega
      subst hhealthy
      cases status with
      | skipped => simp [foldObservation, hsnapshot, IncidentHysteresis, countersOf, tickCounters,
          Opens, Resolves]
      | healthy => simp [foldObservation, hsnapshot, IncidentHysteresis, countersOf, tickCounters,
          Opens, Resolves]
      | breached =>
        by_cases hopens : config.breachesToOpen ≤ consecutiveBreaches + 1 ∧
            cooling cooldownUntilMs nowMs = false
        · simp [foldObservation, hsnapshot, IncidentHysteresis, breach, hopens, countersOf,
            tickCounters, Opens, Resolves]
        · simp [foldObservation, hsnapshot, IncidentHysteresis, breach, hopens, countersOf,
            tickCounters, Opens, Resolves]

/-- Without a cooldown, a row whose counters are not both set moves by its counters alone. -/
lemma foldObservation_spec {row : HysteresisRow} (config : HysteresisConfig) (nowMs : ℤ)
    (hcooldown : config.cooldownMs = 0)
    (hone : row.consecutiveBreaches = 0 ∨ row.consecutiveHealthy = 0)
    (status : AlertEvaluationStatus) :
    let outcome := foldObservation row status config nowMs
    (outcome.consecutiveBreaches, outcome.consecutiveHealthy) =
        tickCounters config (row.consecutiveBreaches, row.consecutiveHealthy) status ∧
      (outcome.transition = .open ↔ Opens config row status) ∧
      (outcome.transition = .resolve ↔ Resolves config row status) := by
  intro outcome
  obtain ⟨hcounters, hopens, hresolves⟩ := foldObservation_tick config nowMs hone status
  have hrested : cooling (row.cooldownUntilMs config) nowMs = false := by
    simp [HysteresisRow.cooldownUntilMs, hcooldown, cooling]
  refine ⟨hcounters, ?_, hresolves⟩
  rw [hopens]
  simp [hrested]

end Maple.Alerting
