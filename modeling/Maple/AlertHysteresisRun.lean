import Maple.AlertHysteresis
import Maple.TrailingRun

/-! Whole runs of the consecutive-count machine, its row stored by the host between the ticks: what
the row remembers of the ticks so far, and when incidents open and resolve. -/

namespace Maple.Alerting
open TrailingRun

structure HysteresisTick where
  status : AlertEvaluationStatus
  nowMs : ℤ

/-- A tick and what the machine made of it. -/
structure TickRecord where
  tick : HysteresisTick
  transition : HysteresisTransition

def HysteresisRow.fresh : HysteresisRow := ⟨0, 0, false, none⟩

/-- The host folds each tick into the row it stored after the one before. -/
def runTicks (config : HysteresisConfig) : HysteresisRow → List HysteresisTick → List TickRecord
  | _, [] => []
  | row, tick :: ticks =>
    let outcome := foldObservation row tick.status config tick.nowMs
    ⟨tick, outcome.transition⟩ :: runTicks config (row.next outcome tick.nowMs) ticks

/-! ### What a run says without the row -/

def TickRecord.counted (r : TickRecord) : Bool := r.tick.status ≠ .skipped

def TickRecord.opened (r : TickRecord) : Bool := r.transition = .open

def TickRecord.resolved (r : TickRecord) : Bool := r.transition = .resolve

/-- How many of the last ticks that were not skipped had the status. -/
def statusRun (status : AlertEvaluationStatus) (run : List TickRecord) : ℕ :=
  trailingRun (fun r => r.tick.status = status) (run.filter TickRecord.counted)

/-- The opens and resolves, in order. -/
def verdicts (run : List TickRecord) : List HysteresisTransition :=
  (run.filter fun r => r.opened || r.resolved).map TickRecord.transition

/-- An incident stands: the last verdict is an open. -/
def Standing (run : List TickRecord) : Prop := (verdicts run).getLast? = some .open

def lastResolvedAt (run : List TickRecord) : Option ℤ :=
  (run.filter TickRecord.resolved).getLast?.map (·.tick.nowMs)

/-- The tick opens and resolves when the ticks before it say so. -/
structure Judged (config : HysteresisConfig) (earlier : List TickRecord) (r : TickRecord) :
    Prop where
  opens : r.transition = .open ↔ ¬ Standing earlier ∧ r.tick.status = .breached ∧
    config.breachesToOpen ≤ statusRun .breached (sinceLast TickRecord.resolved earlier ++ [r]) ∧
    ∀ resolvedAt ∈ lastResolvedAt earlier, resolvedAt + config.cooldownMs ≤ r.tick.nowMs
  resolves : r.transition = .resolve ↔ Standing earlier ∧
    config.healthyToResolve ≤ statusRun .healthy (sinceLast TickRecord.opened earlier ++ [r])

/-! ### One tick more -/

lemma statusRun_append (status : AlertEvaluationStatus) (run : List TickRecord) (r : TickRecord) :
    statusRun status (run ++ [r]) =
      if r.tick.status = .skipped then statusRun status run
      else if r.tick.status = status then statusRun status run + 1 else 0 := by
  by_cases hskipped : r.tick.status = .skipped
  · simp [statusRun, TickRecord.counted, hskipped]
  · simp [statusRun, TickRecord.counted, hskipped, List.filter_append, trailingRun_append]

lemma statusRun_one (run : List TickRecord) :
    statusRun .breached run = 0 ∨ statusRun .healthy run = 0 := by
  induction run using List.reverseRecOn with
  | nil => exact Or.inl rfl
  | append_singleton run r ih =>
    rw [statusRun_append, statusRun_append]
    cases r.tick.status with
    | breached => simp
    | healthy => simp
    | skipped => simpa using ih

lemma verdicts_append (run : List TickRecord) (r : TickRecord) :
    verdicts (run ++ [r]) =
      verdicts run ++ if r.opened || r.resolved then [r.transition] else [] := by
  cases hverdict : (r.opened || r.resolved) with
  | true => simp [verdicts, List.filter_append, hverdict]
  | false => simp [verdicts, List.filter_append, hverdict]

lemma standing_append (run : List TickRecord) (r : TickRecord) :
    Standing (run ++ [r]) ↔
      r.transition = .open ∨ (Standing run ∧ r.transition ≠ .resolve) := by
  unfold Standing
  rw [verdicts_append]
  cases htransition : r.transition with
  | «open» => simp [TickRecord.opened, htransition]
  | «continue» => simp [TickRecord.opened, TickRecord.resolved, htransition]
  | resolve => simp [TickRecord.opened, TickRecord.resolved, htransition]
  | noop => simp [TickRecord.opened, TickRecord.resolved, htransition]

lemma lastResolvedAt_append (run : List TickRecord) (r : TickRecord) :
    lastResolvedAt (run ++ [r]) =
      if r.transition = .resolve then some r.tick.nowMs else lastResolvedAt run := by
  by_cases hresolve : r.transition = .resolve
  · simp [lastResolvedAt, List.filter_append, TickRecord.resolved, hresolve]
  · simp [lastResolvedAt, List.filter_append, TickRecord.resolved, hresolve]

lemma mem_of_lastResolvedAt {run : List TickRecord} {resolvedAt : ℤ}
    (h : resolvedAt ∈ lastResolvedAt run) :
    ∃ r ∈ run, r.transition = .resolve ∧ r.tick.nowMs = resolvedAt := by
  obtain ⟨r, hlast, hat⟩ := Option.map_eq_some_iff.mp h
  have hmem := List.mem_filter.mp (List.mem_of_getLast? hlast)
  exact ⟨r, hmem.1, by simpa [TickRecord.resolved] using hmem.2, hat⟩

/-- What the row keeps of the run, and what held along it. -/
structure Tracks (config : HysteresisConfig) (run : List TickRecord) (row : HysteresisRow) :
    Prop where
  breaches : row.consecutiveBreaches = min (statusRun .breached run) config.breachesToOpen
  healthy : row.consecutiveHealthy = min (statusRun .healthy run) config.healthyToResolve
  standing : row.incidentOpen = true ↔ Standing run
  resolvedAt : row.lastResolvedAtMs = lastResolvedAt run
  unresolved : Standing run → statusRun .healthy run < config.healthyToResolve
  opened : ∀ r ∈ run, r.transition = .open → r.tick.status = .breached
  resolved : ∀ r ∈ run, r.transition = .resolve → r.tick.status = .healthy

lemma tracks_fresh (config : HysteresisConfig) : Tracks config [] .fresh := by
  constructor
  all_goals simp [HysteresisRow.fresh, statusRun, Standing, verdicts, lastResolvedAt]

/-- The breaches since the last resolve are all the breaches of the run's end. -/
lemma Tracks.breaches_since {config : HysteresisConfig} {run : List TickRecord}
    {row : HysteresisRow} (h : Tracks config run row) :
    statusRun .breached (sinceLast TickRecord.resolved run) = statusRun .breached run := by
  refine trailingRun_sinceLast fun r hr hresolved => ?_
  have hstatus := h.resolved r hr (by simpa [TickRecord.resolved] using hresolved)
  simp [TickRecord.counted, hstatus]

lemma Tracks.healthy_since {config : HysteresisConfig} {run : List TickRecord} {row : HysteresisRow}
    (h : Tracks config run row) :
    statusRun .healthy (sinceLast TickRecord.opened run) = statusRun .healthy run := by
  refine trailingRun_sinceLast fun r hr hopened => ?_
  have hstatus := h.opened r hr (by simpa [TickRecord.opened] using hopened)
  simp [TickRecord.counted, hstatus]

/-- The clock has not gone back behind the last resolve, so its cooldown is over when it says. -/
lemma Tracks.rested {config : HysteresisConfig} {run : List TickRecord} {row : HysteresisRow}
    (h : Tracks config run row) (hcooldown : 0 ≤ config.cooldownMs) {nowMs : ℤ}
    (hclock : ∀ r ∈ run, r.tick.nowMs ≤ nowMs) :
    cooling (row.cooldownUntilMs config) nowMs = false ↔
      ∀ resolvedAt ∈ lastResolvedAt run, resolvedAt + config.cooldownMs ≤ nowMs := by
  unfold HysteresisRow.cooldownUntilMs
  rw [h.resolvedAt]
  cases hlast : lastResolvedAt run with
  | none => simp [cooling]
  | some resolvedAt =>
    obtain ⟨r, hr, -, hat⟩ := mem_of_lastResolvedAt hlast
    have hpast := hclock r hr
    by_cases hpos : 0 < config.cooldownMs
    · simp [cooling, hpos]
    · simp [cooling, hpos]
      omega

section step
variable {config : HysteresisConfig} {run : List TickRecord} {row : HysteresisRow}

variable (config row) in
/-- The record of one tick. -/
def HysteresisTick.ticked (tick : HysteresisTick) : TickRecord :=
  ⟨tick, (foldObservation row tick.status config tick.nowMs).transition⟩

lemma Tracks.opens_iff (h : Tracks config run row) (hcooldown : 0 ≤ config.cooldownMs)
    (tick : HysteresisTick) (hclock : ∀ r ∈ run, r.tick.nowMs ≤ tick.nowMs) :
    (tick.ticked config row).transition = .open ↔ ¬ Standing run ∧ tick.status = .breached ∧
      config.breachesToOpen ≤ statusRun .breached run + 1 ∧
      ∀ resolvedAt ∈ lastResolvedAt run, resolvedAt + config.cooldownMs ≤ tick.nowMs := by
  have hone : row.consecutiveBreaches = 0 ∨ row.consecutiveHealthy = 0 := by
    have hruns := statusRun_one run
    rw [h.breaches, h.healthy]
    omega
  have hopens := (foldObservation_tick config tick.nowMs hone tick.status).2.1
  have hstanding : row.incidentOpen = false ↔ ¬ Standing run := by
    rw [← h.standing, Bool.not_eq_true]
  have hfull : config.breachesToOpen ≤ min (row.consecutiveBreaches + 1) config.breachesToOpen ↔
      config.breachesToOpen ≤ statusRun .breached run + 1 := by
    rw [h.breaches]
    omega
  rw [HysteresisTick.ticked, hopens, Opens, hstanding, hfull, h.rested hcooldown hclock]
  tauto

lemma Tracks.resolves_iff (h : Tracks config run row) (tick : HysteresisTick) :
    (tick.ticked config row).transition = .resolve ↔ Standing run ∧ tick.status = .healthy ∧
      config.healthyToResolve ≤ statusRun .healthy run + 1 := by
  have hone : row.consecutiveBreaches = 0 ∨ row.consecutiveHealthy = 0 := by
    have hruns := statusRun_one run
    rw [h.breaches, h.healthy]
    omega
  have hresolves := (foldObservation_tick config tick.nowMs hone tick.status).2.2
  have hfull : config.healthyToResolve ≤
      min (row.consecutiveHealthy + 1) config.healthyToResolve ↔
        config.healthyToResolve ≤ statusRun .healthy run + 1 := by
    rw [h.healthy]
    omega
  rw [HysteresisTick.ticked, hresolves, Resolves, h.standing, hfull]

lemma Tracks.judged (h : Tracks config run row) (hcooldown : 0 ≤ config.cooldownMs)
    (hresolve : 1 ≤ config.healthyToResolve)
    (tick : HysteresisTick) (hclock : ∀ r ∈ run, r.tick.nowMs ≤ tick.nowMs) :
    Judged config run (tick.ticked config row) := by
  constructor
  · rw [h.opens_iff hcooldown tick hclock, statusRun_append, h.breaches_since]
    have htick : (tick.ticked config row).tick = tick := rfl
    rw [htick]
    cases tick.status with
    | breached => simp
    | healthy => simp
    | skipped => simp
  · rw [h.resolves_iff, statusRun_append, h.healthy_since]
    have htick : (tick.ticked config row).tick = tick := rfl
    rw [htick]
    cases tick.status with
    | breached =>
      simp
      omega
    | healthy => simp
    | skipped =>
      have hunresolved := h.unresolved
      simp
      exact hunresolved

/-- The row the host stores tracks the run with the tick. -/
lemma Tracks.step (h : Tracks config run row) (hcooldown : 0 ≤ config.cooldownMs)
    (hresolve : 1 ≤ config.healthyToResolve)
    (tick : HysteresisTick) (hclock : ∀ r ∈ run, r.tick.nowMs ≤ tick.nowMs) :
    Tracks config (run ++ [tick.ticked config row])
      (row.next (foldObservation row tick.status config tick.nowMs) tick.nowMs) := by
  have hone : row.consecutiveBreaches = 0 ∨ row.consecutiveHealthy = 0 := by
    have hruns := statusRun_one run
    rw [h.breaches, h.healthy]
    omega
  have hopens := h.opens_iff hcooldown tick hclock
  have hresolves := h.resolves_iff tick
  obtain ⟨hbreaches, hhealthy⟩ :=
    Prod.mk.inj (foldObservation_tick config tick.nowMs hone tick.status).1
  have htick : (tick.ticked config row).tick = tick := rfl
  have htransition : (foldObservation row tick.status config tick.nowMs).transition =
      (tick.ticked config row).transition := rfl
  constructor
  · rw [statusRun_append, htick]
    simp only [HysteresisRow.next, hbreaches]
    cases tick.status with
    | breached => simp [h.breaches]; omega
    | healthy => simp
    | skipped => simp [h.breaches]
  · rw [statusRun_append, htick]
    simp only [HysteresisRow.next, hhealthy]
    cases tick.status with
    | breached => simp
    | healthy => simp [h.healthy]; omega
    | skipped => simp [h.healthy]
  · rw [next_incidentOpen, standing_append, htransition, ← h.standing]
    split_ifs with hopen hresolve'
    · simp [hopen]
    · simp [hresolve']
    · simp [hopen, hresolve']
  · rw [lastResolvedAt_append, htick]
    simp only [HysteresisRow.next, htransition, h.resolvedAt]
  · rw [standing_append, statusRun_append, htick]
    intro hstands
    cases hstatus : tick.status with
    | breached =>
      simp
      omega
    | healthy =>
      rcases hstands with hopen | ⟨hstanding, hnot⟩
      · simp [hstatus] at hopens
        exact absurd hopen hopens
      · have hshort := mt hresolves.mpr hnot
        simp [hstanding, hstatus] at hshort ⊢
        exact hshort
    | skipped =>
      rcases hstands with hopen | ⟨hstanding, -⟩
      · simp [hstatus] at hopens
        exact absurd hopen hopens
      · simpa using h.unresolved hstanding
  · intro r hr hopen
    rcases List.mem_append.mp hr with hr | hr
    · exact h.opened r hr hopen
    · obtain rfl := List.mem_singleton.mp hr
      exact (hopens.mp hopen).2.1
  · intro r hr hresolved
    rcases List.mem_append.mp hr with hr | hr
    · exact h.resolved r hr hresolved
    · obtain rfl := List.mem_singleton.mp hr
      exact (hresolves.mp hresolved).2.1

/-- Every tick of the run is judged by the ticks before it. -/
lemma Tracks.run_judged (h : Tracks config run row) (hcooldown : 0 ≤ config.cooldownMs)
    (hresolve : 1 ≤ config.healthyToResolve) (ticks : List HysteresisTick)
    (hclock : ticks.Pairwise fun a b => a.nowMs ≤ b.nowMs)
    (hlater : ∀ r ∈ run, ∀ tick ∈ ticks, r.tick.nowMs ≤ tick.nowMs)
    (earlier : List TickRecord) (r : TickRecord) (later : List TickRecord)
    (hsplit : runTicks config row ticks = earlier ++ r :: later) :
    Judged config (run ++ earlier) r := by
  induction ticks generalizing run row earlier with
  | nil => simp [runTicks] at hsplit
  | cons tick ticks ih =>
    have hnow : ∀ r ∈ run, r.tick.nowMs ≤ tick.nowMs := fun r hr => hlater r hr tick (by simp)
    obtain ⟨hfirst, hrest⟩ := List.pairwise_cons.mp hclock
    cases earlier with
    | nil =>
      obtain ⟨rfl, -⟩ := List.cons.inj hsplit
      rw [List.append_nil]
      exact h.judged hcooldown hresolve tick hnow
    | cons first earlier =>
      obtain ⟨rfl, htail⟩ := List.cons.inj hsplit
      have hstep := h.step hcooldown hresolve tick hnow
      have hnext : ∀ r ∈ run ++ [tick.ticked config row], ∀ tick' ∈ ticks,
          r.tick.nowMs ≤ tick'.nowMs := by
        intro r hr tick' htick'
        rcases List.mem_append.mp hr with hr | hr
        · exact hlater r hr tick' (List.mem_cons_of_mem _ htick')
        · obtain rfl := List.mem_singleton.mp hr
          exact hfirst tick' htick'
      have hjudged := ih hstep hrest hnext earlier htail
      rw [List.append_assoc] at hjudged
      exact hjudged

end step

lemma map_tick_runTicks (config : HysteresisConfig) (row : HysteresisRow)
    (ticks : List HysteresisTick) : (runTicks config row ticks).map TickRecord.tick = ticks := by
  induction ticks generalizing row with
  | nil => rfl
  | cons tick ticks ih => simp [runTicks, ih]

/-- Judged by the ticks before them, opens and resolves alternate, an open first. -/
lemma alternates_of_judged {config : HysteresisConfig} (run : List TickRecord)
    (h : ∀ earlier r later, run = earlier ++ r :: later → Judged config earlier r) :
    (verdicts run).IsChain (· ≠ ·) ∧ (verdicts run).head? ≠ some .resolve := by
  induction run using List.reverseRecOn with
  | nil => simp [verdicts]
  | append_singleton run r ih =>
    have hjudged : Judged config run r := h run r [] rfl
    obtain ⟨hchain, hhead⟩ := ih fun earlier r' later hsplit =>
      h earlier r' (later ++ [r]) (by simp [hsplit])
    rw [verdicts_append]
    cases hverdict : (r.opened || r.resolved) with
    | false => simpa using ⟨hchain, hhead⟩
    | true =>
      have hother : (verdicts run).getLast? ≠ some r.transition := by
        rcases Bool.or_eq_true_iff.mp hverdict with hopened | hresolved
        · have hopen : r.transition = .open := by simpa [TickRecord.opened] using hopened
          rw [hopen]
          exact (hjudged.opens.mp hopen).1
        · have hresolve : r.transition = .resolve := by simpa [TickRecord.resolved] using hresolved
          have hstanding := (hjudged.resolves.mp hresolve).1
          rw [hresolve, show (verdicts run).getLast? = some .open from hstanding]
          simp
      constructor
      · rw [List.isChain_append]
        refine ⟨hchain, by simp, ?_⟩
        intro x hx y hy
        simp only [if_true, List.head?_cons, Option.mem_def, Option.some.injEq] at hy
        intro heq
        rw [hx, heq, hy] at hother
        exact hother rfl
      · cases hverdicts : verdicts run with
        | cons first rest =>
          rw [hverdicts] at hhead
          simpa using hhead
        | nil =>
          intro hresolve
          have hstanding := (hjudged.resolves.mp (by simpa using hresolve)).1
          simp [Standing, hverdicts] at hstanding

/-- The last resolve is not older than any other. -/
lemma le_lastResolvedAt (run : List TickRecord)
    (hclock : run.Pairwise fun a b => a.tick.nowMs ≤ b.tick.nowMs) :
    ∀ r ∈ run, r.transition = .resolve → ∃ at' ∈ lastResolvedAt run, r.tick.nowMs ≤ at' := by
  induction run using List.reverseRecOn with
  | nil => simp
  | append_singleton run last ih =>
    obtain ⟨hprev, -, hlast⟩ := List.pairwise_append.mp hclock
    intro r hr hresolve
    rw [lastResolvedAt_append]
    by_cases hnew : last.transition = .resolve
    · rw [if_pos hnew]
      refine ⟨_, rfl, ?_⟩
      rcases List.mem_append.mp hr with hr | hr
      · exact hlast r hr last (by simp)
      · obtain rfl := List.mem_singleton.mp hr
        exact le_rfl
    · rw [if_neg hnew]
      rcases List.mem_append.mp hr with hr | hr
      · exact ih hprev r hr hresolve
      · obtain rfl := List.mem_singleton.mp hr
        exact absurd hresolve hnew

/-- Judged by the ticks before it, an open is never within the cooldown of a resolve. -/
lemma rested_of_judged {config : HysteresisConfig} (run : List TickRecord)
    (hclock : run.Pairwise fun a b => a.tick.nowMs ≤ b.tick.nowMs)
    (h : ∀ earlier r later, run = earlier ++ r :: later → Judged config earlier r) :
    run.Pairwise fun a b => a.transition = .resolve → b.transition = .open →
      a.tick.nowMs + config.cooldownMs ≤ b.tick.nowMs := by
  induction run using List.reverseRecOn with
  | nil => exact List.Pairwise.nil
  | append_singleton run r ih =>
    obtain ⟨hprev, -, -⟩ := List.pairwise_append.mp hclock
    have hjudged : Judged config run r := h run r [] rfl
    rw [List.pairwise_append]
    refine ⟨ih hprev fun earlier r' later hsplit =>
      h earlier r' (later ++ [r]) (by simp [hsplit]), by simp, ?_⟩
    intro a ha b hb hresolve hopen
    obtain rfl := List.mem_singleton.mp hb
    obtain ⟨resolvedAt, hlast, hle⟩ := le_lastResolvedAt run hprev a ha hresolve
    have hrested := (hjudged.opens.mp hopen).2.2.2 resolvedAt hlast
    omega

/-- From a fresh row, ticks open and resolve exactly when the ticks so far call for it; opens and
resolves alternate, and no open falls within a cooldown. -/
theorem hysteresis_opens_resolves_exactly (config : HysteresisConfig)
    (hresolve : 1 ≤ config.healthyToResolve) (hcooldown : 0 ≤ config.cooldownMs)
    (ticks : List HysteresisTick) (hclock : ticks.Pairwise fun a b => a.nowMs ≤ b.nowMs) :
    let run := runTicks config .fresh ticks
    (∀ earlier r later, run = earlier ++ r :: later → Judged config earlier r) ∧
    (verdicts run).IsChain (· ≠ ·) ∧ (verdicts run).head? ≠ some .resolve ∧
    run.Pairwise fun a b => a.transition = .resolve → b.transition = .open →
      a.tick.nowMs + config.cooldownMs ≤ b.tick.nowMs := by
  intro run
  have hjudged : ∀ earlier r later, run = earlier ++ r :: later → Judged config earlier r :=
    fun earlier r later hsplit => (tracks_fresh config).run_judged hcooldown hresolve ticks hclock
      (by simp) earlier r later hsplit
  have hrun : run.Pairwise fun a b => a.tick.nowMs ≤ b.tick.nowMs := by
    rw [← map_tick_runTicks config .fresh ticks, List.pairwise_map] at hclock
    exact hclock
  obtain ⟨hchain, hhead⟩ := alternates_of_judged run hjudged
  exact ⟨hjudged, hchain, hhead, rested_of_judged run hrun hjudged⟩

/-- Two breaches open, two healthy ticks resolve, and the next run of breaches waits out the
cooldown. -/
theorem hysteresis_opens_resolves_exactly_cooling :
    let config : HysteresisConfig := ⟨2, 2, 100⟩
    let ticks : List HysteresisTick := [⟨.breached, 0⟩, ⟨.breached, 10⟩, ⟨.healthy, 20⟩,
      ⟨.skipped, 30⟩, ⟨.healthy, 40⟩, ⟨.breached, 50⟩, ⟨.breached, 60⟩, ⟨.breached, 140⟩]
    verdicts (runTicks config .fresh ticks) = [.open, .resolve, .open] ∧
    (runTicks config .fresh ticks).Pairwise fun a b => a.transition = .resolve →
      b.transition = .open → a.tick.nowMs + config.cooldownMs ≤ b.tick.nowMs := by
  intro config ticks
  have hclock : ticks.Pairwise fun a b => a.nowMs ≤ b.nowMs := by decide
  have hrun := hysteresis_opens_resolves_exactly config (by decide) (by decide) ticks hclock
  exact ⟨by decide, hrun.2.2.2⟩

end Maple.Alerting
