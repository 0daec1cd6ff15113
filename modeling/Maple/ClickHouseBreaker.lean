import Mathlib

/-! The circuit breaker of one ClickHouse target, shared by all lane workers. Instants and durations
are nanoseconds; a call is atomic under the target's lock. -/

namespace Maple.ClickHouseBreaker

structure ClickHouseBreakerConfig where
  failureThreshold : ℕ
  cooldown : ℕ
deriving DecidableEq, Repr

inductive BreakerDecision
  | allow
  | shed
deriving DecidableEq, Repr

structure BreakerState where
  consecutiveFailures : ℕ := 0
  openedAt : Option ℕ := none
  probeStartedAt : Option ℕ := none
  deferralSpent : Bool := false
deriving DecidableEq, Repr

/-- `u32::MAX`, where the count of failures saturates. -/
def maxFailures : ℕ := 4294967295

/-- Time differences are 0 when the clock is behind. -/
def breakerDecision (state : BreakerState) (cfg : ClickHouseBreakerConfig) (now : ℕ) :
    BreakerDecision :=
  match state.openedAt with
  | none => .allow
  | some opened =>
    if now - opened < cfg.cooldown then .shed
    else
      match state.probeStartedAt with
      | some started => if now - started < cfg.cooldown then .shed else .allow
      | none => .allow

/-! ### The registry's entry of one target -/

/-- Absent until the first failure or deferral. -/
abbrev Entry := Option BreakerState

def enabled (cfg : ClickHouseBreakerConfig) : Bool := 0 < cfg.failureThreshold

def stateFor (entry : Entry) : BreakerState := entry.getD {}

def decide (cfg : ClickHouseBreakerConfig) (entry : Entry) (now : ℕ) : BreakerDecision × Entry :=
  if !enabled cfg then (.allow, entry)
  else
    match entry with
    | none => (.allow, none)
    | some state =>
      let decision := breakerDecision state cfg now
      if decision = .allow ∧ state.openedAt.isSome then
        (decision, some { state with probeStartedAt := some now })
      else (decision, some state)

def onSuccess (cfg : ClickHouseBreakerConfig) (entry : Entry) : Entry :=
  if !enabled cfg then entry
  else
    match entry with
    | none => none
    | some state =>
      some { state with
        consecutiveFailures := 0
        openedAt := none
        probeStartedAt := none
        deferralSpent := false }

def onFailure (cfg : ClickHouseBreakerConfig) (entry : Entry) (now : ℕ) : Entry :=
  if !enabled cfg then entry
  else
    let state := stateFor entry
    let consecutiveFailures := min (state.consecutiveFailures + 1) maxFailures
    let openedAt := if cfg.failureThreshold ≤ consecutiveFailures then some now else state.openedAt
    some { state with consecutiveFailures, openedAt, probeStartedAt := none }

def markDeferralSpent (entry : Entry) : Entry :=
  some { stateFor entry with deferralSpent := true }

/-! ### Runs -/

inductive Call
  | decide
  | onSuccess
  | onFailure
  | markDeferralSpent
deriving DecidableEq, Repr

/-- A call of some worker, at an instant. -/
structure Tick where
  call : Call
  now : ℕ
deriving DecidableEq, Repr

def step (cfg : ClickHouseBreakerConfig) (entry : Entry) (tick : Tick) : Entry :=
  match tick.call with
  | .decide => (decide cfg entry tick.now).2
  | .onSuccess => onSuccess cfg entry
  | .onFailure => onFailure cfg entry tick.now
  | .markDeferralSpent => markDeferralSpent entry

def run (cfg : ClickHouseBreakerConfig) (entry : Entry) (ticks : List Tick) : Entry :=
  ticks.foldl (step cfg) entry

def Tripped (entry : Entry) : Prop := ∃ state, entry = some state ∧ state.openedAt.isSome

/-- A decision at `now` lets the call through. -/
def Allows (cfg : ClickHouseBreakerConfig) (entry : Entry) (now : ℕ) : Prop :=
  (decide cfg entry now).1 = .allow

/-- The call at `now` is let through to a tripped target. -/
def Probes (cfg : ClickHouseBreakerConfig) (entry : Entry) (now : ℕ) : Prop :=
  Tripped entry ∧ Allows cfg entry now

/-- The clock of a run never goes back. -/
def Clock (ticks : List Tick) : Prop := ticks.Pairwise fun a b => a.now ≤ b.now

variable {cfg : ClickHouseBreakerConfig} {entry : Entry}

@[simp] lemma run_nil : run cfg entry [] = entry := rfl

@[simp] lemma run_cons (tick : Tick) (ticks : List Tick) :
    run cfg entry (tick :: ticks) = run cfg (step cfg entry tick) ticks := rfl

lemma run_append (ticks rest : List Tick) :
    run cfg entry (ticks ++ rest) = run cfg (run cfg entry ticks) rest := by
  simp [run]

/-! ### When a target is tripped -/

/-- Failures since the last success. -/
def count (failures : ℕ) (tick : Tick) : ℕ :=
  match tick.call with
  | .onSuccess => 0
  | .onFailure => failures + 1
  | _ => failures

/-- The failures counted in a state, which is open from the threshold on. -/
structure Counted (cfg : ClickHouseBreakerConfig) (entry : Entry) (failures : ℕ) : Prop where
  counts : (stateFor entry).consecutiveFailures = min failures maxFailures
  opens : (stateFor entry).openedAt.isSome ↔
    cfg.failureThreshold ≤ (stateFor entry).consecutiveFailures

lemma Counted.init (h : enabled cfg) : Counted cfg none 0 := by
  have hpos : 0 < cfg.failureThreshold := by simpa [enabled] using h
  constructor
  · rfl
  · simp [stateFor]
    omega

variable (cfg) in
lemma decide_state (entry : Entry) (now : ℕ) :
    (stateFor (decide cfg entry now).2).consecutiveFailures =
        (stateFor entry).consecutiveFailures ∧
      (stateFor (decide cfg entry now).2).openedAt = (stateFor entry).openedAt := by
  unfold decide
  split
  · exact ⟨rfl, rfl⟩
  · cases entry with
    | none => exact ⟨rfl, rfl⟩
    | some state =>
      dsimp only
      split
      · exact ⟨rfl, rfl⟩
      · exact ⟨rfl, rfl⟩

lemma onFailure_state (henabled : enabled cfg) (entry : Entry) (now : ℕ) :
    let failures := min ((stateFor entry).consecutiveFailures + 1) maxFailures
    stateFor (onFailure cfg entry now) = { stateFor entry with
      consecutiveFailures := failures
      openedAt := if cfg.failureThreshold ≤ failures then some now else (stateFor entry).openedAt
      probeStartedAt := none } := by
  simp [onFailure, henabled, stateFor]

lemma onSuccess_state (henabled : enabled cfg) (entry : Entry) :
    (stateFor (onSuccess cfg entry)).consecutiveFailures = 0 ∧
      (stateFor (onSuccess cfg entry)).openedAt = none ∧
      (stateFor (onSuccess cfg entry)).probeStartedAt = none := by
  cases entry with
  | none => simp [onSuccess, henabled, stateFor]
  | some state => simp [onSuccess, henabled, stateFor]

lemma Counted.step {failures : ℕ} (h : Counted cfg entry failures) (henabled : enabled cfg)
    (tick : Tick) : Counted cfg (step cfg entry tick) (count failures tick) := by
  have hpos : 0 < cfg.failureThreshold := by simpa [enabled] using henabled
  have hcounts := h.counts
  have hopens := h.opens
  unfold ClickHouseBreaker.step count
  cases tick.call with
  | decide =>
    obtain ⟨hsame, hopened⟩ := decide_state cfg entry tick.now
    constructor
    · rw [hsame, hcounts]
    · rw [hsame, hopened, hopens]
  | onSuccess =>
    obtain ⟨hzero, hclosed, -⟩ := onSuccess_state henabled entry
    constructor
    · simp [hzero]
    · simp [hzero, hclosed]
      omega
  | onFailure =>
    have hstate := onFailure_state henabled entry tick.now
    constructor
    · simp only [hstate]
      omega
    · simp only [hstate]
      by_cases htrips : cfg.failureThreshold ≤
          min ((stateFor entry).consecutiveFailures + 1) maxFailures
      · rw [if_pos htrips]
        exact iff_of_true rfl htrips
      · rw [if_neg htrips, hopens]
        omega
  | markDeferralSpent => exact ⟨hcounts, hopens⟩

lemma Counted.run {failures : ℕ} (h : Counted cfg entry failures) (henabled : enabled cfg)
    (ticks : List Tick) : Counted cfg (run cfg entry ticks) (ticks.foldl count failures) := by
  induction ticks generalizing entry failures with
  | nil => exact h
  | cons tick ticks ih => exact ih (h.step henabled tick)

lemma tripped_iff_isSome : Tripped entry ↔ (stateFor entry).openedAt.isSome := by
  cases entry with
  | none => simp [Tripped, stateFor]
  | some state => simp [Tripped, stateFor]

/-! ### Spacing -/

/-- The target has been tripped, and decided or failed at `time` or after it. -/
structure Since (cfg : ClickHouseBreakerConfig) (time : ℕ) (entry : Entry) : Prop where
  small : cfg.failureThreshold ≤ maxFailures
  full : cfg.failureThreshold ≤ (stateFor entry).consecutiveFailures
  stamped : ∃ opened, (stateFor entry).openedAt = some opened ∧
    (time ≤ opened ∨ ∃ started, (stateFor entry).probeStartedAt = some started ∧ time ≤ started)

lemma Since.step {time : ℕ} (h : Since cfg time entry) {tick : Tick} (htime : time ≤ tick.now)
    (hcall : tick.call ≠ .onSuccess) : Since cfg time (step cfg entry tick) := by
  obtain ⟨opened, hopened, hstamp⟩ := h.stamped
  unfold ClickHouseBreaker.step
  cases hkind : tick.call with
  | decide =>
    obtain ⟨hsame, hopened'⟩ := decide_state cfg entry tick.now
    refine ⟨h.small, hsame ▸ h.full, opened, hopened'.trans hopened, ?_⟩
    dsimp only
    unfold ClickHouseBreaker.decide
    split_ifs
    · exact hstamp
    · cases entry with
      | none => exact hstamp
      | some state =>
        dsimp only
        split_ifs
        · exact Or.inr ⟨tick.now, rfl, htime⟩
        · exact hstamp
  | onSuccess => exact absurd hkind hcall
  | onFailure =>
    by_cases henabled : enabled cfg
    · have hstate := onFailure_state henabled entry tick.now
      have hfull := h.full
      have hsmall := h.small
      have htrips : cfg.failureThreshold ≤
          min ((stateFor entry).consecutiveFailures + 1) maxFailures := by omega
      refine ⟨hsmall, ?_, tick.now, ?_, Or.inl htime⟩
      · simp only [hstate]
        exact htrips
      · simp only [hstate]
        exact if_pos htrips
    · simp only [onFailure, henabled]
      exact h
  | markDeferralSpent => exact ⟨h.small, h.full, opened, hopened, hstamp⟩

lemma Since.run {time : ℕ} (h : Since cfg time entry) {ticks : List Tick}
    (htime : ∀ tick ∈ ticks, time ≤ tick.now) (hcall : ∀ tick ∈ ticks, tick.call ≠ .onSuccess) :
    Since cfg time (run cfg entry ticks) := by
  induction ticks generalizing entry with
  | nil => exact h
  | cons tick ticks ih =>
    have hstep := h.step (htime tick (List.mem_cons_self ..)) (hcall tick (List.mem_cons_self ..))
    exact ih hstep (fun later hlater => htime later (List.mem_cons_of_mem _ hlater))
      (fun later hlater => hcall later (List.mem_cons_of_mem _ hlater))

/-- What a call is let through to, tripped: its cooldown is over, and no probe is out. -/
lemma allows_iff (henabled : enabled cfg) {now opened : ℕ}
    (hopened : (stateFor entry).openedAt = some opened) :
    Allows cfg entry now ↔ cfg.cooldown ≤ now - opened ∧
      ∀ started, (stateFor entry).probeStartedAt = some started → cfg.cooldown ≤ now - started := by
  cases entry with
  | none => simp [stateFor] at hopened
  | some state =>
    have hdecision : Allows cfg (some state) now ↔ breakerDecision state cfg now = .allow := by
      unfold Allows ClickHouseBreaker.decide
      simp only [henabled, Bool.not_true, Bool.false_eq_true, if_false]
      split_ifs
      · exact Iff.rfl
      · exact Iff.rfl
    have hopened' : state.openedAt = some opened := hopened
    rw [hdecision]
    simp only [breakerDecision, hopened', stateFor, Option.getD_some]
    by_cases hcool : now - opened < cfg.cooldown
    · simp [hcool]
    · cases hprobe : state.probeStartedAt with
      | none =>
        simp [hcool]
        omega
      | some started =>
        simp [hcool]
        omega

lemma allows_of_not_tripped (h : ¬Tripped entry) (now : ℕ) : Allows cfg entry now := by
  cases entry with
  | none => simp [Allows, ClickHouseBreaker.decide]
  | some state =>
    have hclosed : state.openedAt = none := by simpa [Tripped] using h
    simp [Allows, ClickHouseBreaker.decide, breakerDecision, hclosed]

/-- The next call let through is a cooldown later. -/
lemma Since.allows {time now : ℕ} (h : Since cfg time entry) (henabled : enabled cfg)
    (htime : time ≤ now) (hallows : Allows cfg entry now) : time + cfg.cooldown ≤ now := by
  obtain ⟨opened, hopened, hstamp⟩ := h.stamped
  obtain ⟨hcool, hprobe⟩ := (allows_iff henabled hopened).mp hallows
  rcases hstamp with hle | ⟨started, hstarted, hle⟩
  · omega
  · have hout := hprobe started hstarted
    omega

lemma run_disabled (henabled : ¬enabled cfg) (ticks : List Tick) :
    (stateFor (run cfg entry ticks)).openedAt = (stateFor entry).openedAt := by
  induction ticks generalizing entry with
  | nil => rfl
  | cons tick ticks ih =>
    rw [run_cons, ih]
    unfold step
    cases tick.call with
    | decide => exact (decide_state cfg entry tick.now).2
    | onSuccess => simp [onSuccess, henabled]
    | onFailure => simp [onFailure, henabled]
    | markDeferralSpent => rfl

/-- Only an enabled breaker trips. -/
lemma enabled_of_tripped {ticks : List Tick} (h : Tripped (run cfg none ticks)) : enabled cfg := by
  by_contra henabled
  rw [tripped_iff_isSome, run_disabled henabled] at h
  simp [stateFor] at h

lemma since_of_stamp {ticks : List Tick} {time : ℕ} (h : Tripped (run cfg none ticks))
    (hstamp : (stateFor (run cfg none ticks)).openedAt = some time ∨
      (stateFor (run cfg none ticks)).probeStartedAt = some time) :
    Since cfg time (run cfg none ticks) := by
  have hcounted := (Counted.init (enabled_of_tripped h)).run (enabled_of_tripped h) ticks
  have hcounts := hcounted.counts
  rw [tripped_iff_isSome] at h
  have hfull := hcounted.opens.mp h
  obtain ⟨opened, hopened⟩ := Option.isSome_iff_exists.mp h
  refine ⟨by omega, hfull, opened, hopened, ?_⟩
  rcases hstamp with hopen | hprobe
  · rw [hopened] at hopen
    exact Or.inl (Option.some.inj hopen).ge
  · exact Or.inr ⟨time, hprobe, le_rfl⟩

/-- A call let through to a tripped target is the probe, and leaves it tripped. -/
lemma since_of_probes {before : List Tick} {now : ℕ}
    (h : Probes cfg (run cfg none before) now) :
    Since cfg now (run cfg none (before ++ [⟨.decide, now⟩])) := by
  obtain ⟨htripped, hallows⟩ := h
  have henabled := enabled_of_tripped htripped
  have hstep : run cfg none (before ++ [⟨.decide, now⟩]) =
      (decide cfg (run cfg none before) now).2 := by
    rw [run_append]
    rfl
  apply since_of_stamp
  · rw [hstep, tripped_iff_isSome, (decide_state cfg _ _).2, ← tripped_iff_isSome]
    exact htripped
  · right
    rw [hstep]
    obtain ⟨state, hstate, hopened⟩ := htripped
    rw [hstate] at hallows ⊢
    unfold Allows ClickHouseBreaker.decide at hallows
    unfold ClickHouseBreaker.decide
    simp only [henabled, Bool.not_true, Bool.false_eq_true, if_false, hopened, and_true] at hallows ⊢
    by_cases hdecision : breakerDecision state cfg now = .allow
    · simp [hdecision, stateFor]
    · simp [hdecision] at hallows

lemma since_of_failure {before : List Tick} {now : ℕ}
    (h : Tripped (run cfg none (before ++ [⟨.onFailure, now⟩]))) :
    Since cfg now (run cfg none (before ++ [⟨.onFailure, now⟩])) := by
  have henabled := enabled_of_tripped h
  apply since_of_stamp h
  left
  have hcounted := (Counted.init henabled).run henabled (before ++ [⟨.onFailure, now⟩])
  have hstep : run cfg none (before ++ [⟨.onFailure, now⟩]) =
      onFailure cfg (run cfg none before) now := by
    rw [run_append]
    rfl
  have hfull := hcounted.opens.mp (tripped_iff_isSome.mp h)
  rw [hstep] at hfull ⊢
  have hstate := onFailure_state henabled (run cfg none before) now
  simp only [hstate] at hfull ⊢
  exact if_pos hfull

/-! ### Probes -/

/-- Every stamp of a run was left by a failure, or by a call let through to the tripped target. -/
def Stamped (cfg : ClickHouseBreakerConfig) (ticks : List Tick) (time : ℕ) : Prop :=
  ∃ before tick after, ticks = before ++ tick :: after ∧ tick.now = time ∧
    (tick.call = .onFailure ∨ tick.call = .decide ∧ Probes cfg (run cfg none before) tick.now)

lemma Stamped.append {ticks : List Tick} {time : ℕ} (h : Stamped cfg ticks time) (last : Tick) :
    Stamped cfg (ticks ++ [last]) time := by
  obtain ⟨before, tick, after, rfl, htick⟩ := h
  exact ⟨before, tick, after ++ [last], by simp, htick⟩

variable (cfg) in
/-- A decision leaves the probe as it was, or is the probe. -/
lemma decide_probe (entry : Entry) (now : ℕ) :
    (stateFor (decide cfg entry now).2).probeStartedAt = (stateFor entry).probeStartedAt ∨
      (stateFor (decide cfg entry now).2).probeStartedAt = some now ∧ Probes cfg entry now := by
  by_cases henabled : enabled cfg
  · cases entry with
    | none => simp [ClickHouseBreaker.decide, henabled]
    | some state =>
      by_cases hprobe : breakerDecision state cfg now = .allow ∧ state.openedAt.isSome
      · right
        simp [ClickHouseBreaker.decide, henabled, hprobe, stateFor, Probes, Tripped, Allows]
      · left
        simp [ClickHouseBreaker.decide, henabled, hprobe, stateFor]
  · left
    simp [ClickHouseBreaker.decide, henabled]

variable (cfg) in
lemma run_stamped (ticks : List Tick) :
    (∀ opened, (stateFor (run cfg none ticks)).openedAt = some opened →
      Stamped cfg ticks opened) ∧
    ∀ started, (stateFor (run cfg none ticks)).probeStartedAt = some started →
      Stamped cfg ticks started := by
  induction ticks using List.reverseRecOn with
  | nil => simp [stateFor]
  | append_singleton ticks tick ih =>
    obtain ⟨ihopened, ihstarted⟩ := ih
    have hrun : run cfg none (ticks ++ [tick]) = step cfg (run cfg none ticks) tick := by
      rw [run_append]
      rfl
    have hsame : ∀ entry, (stateFor entry).openedAt =
        (stateFor (run cfg none ticks)).openedAt → (stateFor entry).probeStartedAt =
        (stateFor (run cfg none ticks)).probeStartedAt →
        (∀ opened, (stateFor entry).openedAt = some opened →
          Stamped cfg (ticks ++ [tick]) opened) ∧
        ∀ started, (stateFor entry).probeStartedAt = some started →
          Stamped cfg (ticks ++ [tick]) started := by
      intro entry hopened hstarted
      rw [hopened, hstarted]
      exact ⟨fun opened h => (ihopened opened h).append tick,
        fun started h => (ihstarted started h).append tick⟩
    have hlast : tick.call = .onFailure ∨
        tick.call = .decide ∧ Probes cfg (run cfg none ticks) tick.now →
        Stamped cfg (ticks ++ [tick]) tick.now :=
      fun htick => ⟨ticks, tick, [], rfl, rfl, htick⟩
    rw [hrun]
    unfold step
    cases hcall : tick.call with
    | decide =>
      have hopened := (decide_state cfg (run cfg none ticks) tick.now).2
      rcases decide_probe cfg (run cfg none ticks) tick.now with hprobe | ⟨hnow, hprobe⟩
      · exact hsame _ hopened hprobe
      · refine ⟨?_, ?_⟩
        · intro opened h
          exact (ihopened opened (hopened ▸ h)).append tick
        · intro started h
          rw [hnow] at h
          rw [← Option.some.inj h]
          exact hlast (Or.inr ⟨hcall, hprobe⟩)
    | onSuccess =>
      by_cases henabled : enabled cfg
      · obtain ⟨-, hclosed, hidle⟩ := onSuccess_state henabled (run cfg none ticks)
        simp [hclosed, hidle]
      · have hunchanged : onSuccess cfg (run cfg none ticks) = run cfg none ticks := by
          simp [onSuccess, henabled]
        exact hsame _ (by rw [hunchanged]) (by rw [hunchanged])
    | onFailure =>
      by_cases henabled : enabled cfg
      · have hstate := onFailure_state henabled (run cfg none ticks) tick.now
        simp only [hstate]
        refine ⟨?_, by simp⟩
        intro opened h
        split_ifs at h
        · rw [← Option.some.inj h]
          exact hlast (Or.inl hcall)
        · exact (ihopened opened h).append tick
      · have hunchanged : onFailure cfg (run cfg none ticks) tick.now = run cfg none ticks := by
          simp [onFailure, henabled]
        exact hsame _ (by rw [hunchanged]) (by rw [hunchanged])
    | markDeferralSpent => exact hsame _ rfl rfl

lemma Clock.after {before middle : List Tick} {tick last : Tick}
    (h : Clock (before ++ tick :: middle ++ [last])) :
    (∀ later ∈ middle, tick.now ≤ later.now) ∧ tick.now ≤ last.now := by
  unfold Clock at h
  rw [List.append_assoc, List.cons_append, List.pairwise_append] at h
  have hrest := (List.pairwise_cons.mp h.2.1).1
  exact ⟨fun later hlater => hrest later (by simp [hlater]), hrest last (by simp)⟩

/-- Whatever a tick stamps, no call is let through for a cooldown from then on. -/
lemma spaced_of_since {before middle : List Tick} {tick : Tick} {last : ℕ}
    (h : Since cfg tick.now (run cfg none (before ++ [tick])))
    (hclock : Clock (before ++ tick :: middle ++ [⟨.decide, last⟩]))
    (htripped : Tripped (run cfg none (before ++ [tick])))
    (hcall : ∀ tick ∈ middle, tick.call ≠ .onSuccess)
    (hallows : Allows cfg (run cfg none (before ++ tick :: middle)) last) :
    tick.now + cfg.cooldown ≤ last := by
  obtain ⟨hmiddle, hlast⟩ := hclock.after
  have hsplit : before ++ tick :: middle = (before ++ [tick]) ++ middle := by simp
  rw [hsplit, run_append] at hallows
  exact (h.run hmiddle hcall).allows (enabled_of_tripped htripped) hlast hallows

/-- In any run of calls with a clock that never goes back: from a trip on, calls let through are a
cooldown apart until the next success, and a cooldown after every failure; a call a cooldown after
every probe and every failure is let through; and without a threshold every call is. -/
theorem probes_spaced_never_wedged (cfg : ClickHouseBreakerConfig) :
    (∀ before middle first last, Clock (before ++ ⟨.decide, first⟩ :: middle ++ [⟨.decide, last⟩]) →
      Probes cfg (run cfg none before) first →
      (∀ tick ∈ middle, tick.call ≠ .onSuccess) →
      Allows cfg (run cfg none (before ++ ⟨.decide, first⟩ :: middle)) last →
      first + cfg.cooldown ≤ last) ∧
    (∀ before middle failed last,
      Clock (before ++ ⟨.onFailure, failed⟩ :: middle ++ [⟨.decide, last⟩]) →
      Tripped (run cfg none (before ++ [⟨.onFailure, failed⟩])) →
      (∀ tick ∈ middle, tick.call ≠ .onSuccess) →
      Allows cfg (run cfg none (before ++ ⟨.onFailure, failed⟩ :: middle)) last →
      failed + cfg.cooldown ≤ last) ∧
    (∀ ticks now, (∀ before tick after, ticks = before ++ tick :: after →
        tick.call = .onFailure ∨ tick.call = .decide ∧ Probes cfg (run cfg none before) tick.now →
        tick.now + cfg.cooldown ≤ now) →
      Allows cfg (run cfg none ticks) now) ∧
    (cfg.failureThreshold = 0 → ∀ entry now, Allows cfg entry now) := by
  refine ⟨?_, ?_, ?_, ?_⟩
  · intro before middle first last hclock hprobes hcall hallows
    have hsince := since_of_probes hprobes
    have htripped : Tripped (run cfg none (before ++ [⟨.decide, first⟩])) := by
      obtain ⟨opened, hopened, -⟩ := hsince.stamped
      rw [tripped_iff_isSome, hopened]
      rfl
    exact spaced_of_since hsince hclock htripped hcall hallows
  · intro before middle failed last hclock htripped hcall hallows
    exact spaced_of_since (since_of_failure htripped) hclock htripped hcall hallows
  · intro ticks now hold
    obtain ⟨hopened, hstarted⟩ := run_stamped cfg ticks
    have hwait : ∀ time, Stamped cfg ticks time → cfg.cooldown ≤ now - time := by
      intro time ⟨before, tick, after, hticks, htime, htick⟩
      have hcool := hold before tick after hticks htick
      omega
    by_cases htripped : Tripped (run cfg none ticks)
    · rw [tripped_iff_isSome] at htripped
      obtain ⟨opened, hopen⟩ := Option.isSome_iff_exists.mp htripped
      have henabled := enabled_of_tripped (tripped_iff_isSome.mpr htripped)
      rw [allows_iff henabled hopen]
      exact ⟨hwait opened (hopened opened hopen),
        fun started hprobe => hwait started (hstarted started hprobe)⟩
    · exact allows_of_not_tripped htripped now
  · intro hzero entry now
    simp [Allows, ClickHouseBreaker.decide, enabled, hzero]

/-- In every run, on any clock, a target is tripped exactly when the failures since its last success
have reached the threshold, and no other call is shed. -/
theorem tripped_iff_failures (cfg : ClickHouseBreakerConfig) (ticks : List Tick) :
    (Tripped (run cfg none ticks) ↔ 0 < cfg.failureThreshold ∧
      cfg.failureThreshold ≤ min (ticks.foldl count 0) maxFailures) ∧
    ∀ now, ¬Allows cfg (run cfg none ticks) now → Tripped (run cfg none ticks) := by
  have henabled : enabled cfg ↔ 0 < cfg.failureThreshold := by simp [enabled]
  rw [← henabled, tripped_iff_isSome]
  refine ⟨⟨fun h => ?_, fun h => ?_⟩, fun now hshed => ?_⟩
  · have hon := enabled_of_tripped (tripped_iff_isSome.mpr h)
    have hcounted := (Counted.init hon).run hon ticks
    rw [← hcounted.counts]
    exact ⟨hon, hcounted.opens.mp h⟩
  · have hcounted := (Counted.init h.1).run h.1 ticks
    rw [← hcounted.counts] at h
    exact hcounted.opens.mpr h.2
  · rw [← tripped_iff_isSome]
    by_contra hclosed
    exact hshed (allows_of_not_tripped hclosed now)

end Maple.ClickHouseBreaker
