import Mathlib
import Maple.AuditRecon
import Maple.AuditHuntRun

/-! What links a finding to the ledger, from the hunting phase of one run to the seeded ledger of
the next. -/

namespace Maple.Audit

variable {host : Host} {input : AuditRunInput} {agents : Agents} {verifiers : Verifiers}

/-- A unit with a candidate lists the fingerprint. -/
def Links (ledger : Ledger) (fingerprint : String) : Prop :=
  ∃ unit ∈ ledger, unit.status = .candidate ∧ fingerprint ∈ unit.resultFingerprints

/-- The fingerprint is listed by a unit with a candidate, or carried to a unit of the ledger. -/
def ItemLinked (s : EngineState) (fingerprint : String) : Prop :=
  Links s.ledger fingerprint ∨
    ∃ c ∈ s.carried, c.record.fingerprint = fingerprint ∧ c.coverageId ∈ unitIds s.ledger

/-- Every fingerprint that is about to be validated is linked. -/
def AllLinked (s : EngineState) : Prop := ∀ item ∈ items s, ItemLinked s item.fingerprint

/-- Candidates have an owner, and each finding is stored under its fingerprint and linked. -/
structure FindingsLinked (s : EngineState) : Prop where
  owner : ∀ unit ∈ s.ledger, unit.status = .candidate → unit.agentId ≠ none
  linked : ∀ fingerprint record, s.findings.get fingerprint = some record →
    record.fingerprint = fingerprint ∧ Links s.ledger fingerprint

/-- Suppressed records are rejections, each under its own fingerprint. -/
def SuppressedOwn (s : EngineState) : Prop :=
  ∀ fingerprint record, s.suppressed.get fingerprint = some record →
    record.fingerprint = fingerprint ∧ record.verdict = .rejected

lemma links_map {f : LedgerUnit → LedgerUnit} {ledger : Ledger} {fingerprint : String}
    (hf : ∀ unit ∈ ledger, unit.status = .candidate → fingerprint ∈ unit.resultFingerprints →
      (f unit).status = .candidate ∧ fingerprint ∈ (f unit).resultFingerprints)
    (h : Links ledger fingerprint) : Links (ledger.map f) fingerprint := by
  obtain ⟨unit, hunit, hstatus, hlisted⟩ := h
  exact ⟨f unit, List.mem_map_of_mem hunit, hf unit hunit hstatus hlisted⟩

/-- What a phase that began in `s₁` keeps of the ledger and the findings. -/
structure StillLinked (s₁ s : EngineState) : Prop where
  ids : unitIds s.ledger = unitIds s₁.ledger
  suppressed : s.suppressed = s₁.suppressed
  links : ∀ fingerprint, Links s₁.ledger fingerprint → Links s.ledger fingerprint
  linked : FindingsLinked s

lemma StillLinked.refl {s : EngineState} (h : FindingsLinked s) : StillLinked s s :=
  ⟨rfl, rfl, fun _ hlinks => hlinks, h⟩

lemma StillLinked.same {s₁ s s' : EngineState} (h : StillLinked s₁ s)
    (hledger : s'.ledger = s.ledger) (hfindings : s'.findings = s.findings)
    (hsuppressed : s'.suppressed = s.suppressed) : StillLinked s₁ s' where
  ids := hledger ▸ h.ids
  suppressed := hsuppressed.trans h.suppressed
  links := hledger ▸ h.links
  linked := ⟨hledger ▸ h.linked.owner, by rw [hledger, hfindings]; exact h.linked.linked⟩

/-- What a change of a unit must leave alone to keep the findings linked. -/
structure SameLinks (unit unit' : LedgerUnit) : Prop where
  coverageId : unit'.coverageId = unit.coverageId
  status : unit'.status = unit.status
  agentId : unit'.agentId = unit.agentId
  listed : unit'.resultFingerprints = unit.resultFingerprints

lemma StillLinked.map {s₁ s s' : EngineState} {f : LedgerUnit → LedgerUnit}
    (h : StillLinked s₁ s) (hledger : s'.ledger = s.ledger.map f)
    (hf : ∀ unit, SameLinks unit (f unit)) (hsuppressed : s'.suppressed = s.suppressed)
    (hfindings : ∀ fingerprint record, s'.findings.get fingerprint = some record →
      record.fingerprint = fingerprint ∧ Links s.ledger fingerprint) : StillLinked s₁ s' := by
  have hlinks : ∀ fingerprint, Links s.ledger fingerprint → Links s'.ledger fingerprint := by
    intro fingerprint hlinks
    rw [hledger]
    exact links_map (fun unit _ hs hl => ⟨(hf unit).status.trans hs, (hf unit).listed.symm ▸ hl⟩)
      hlinks
  refine ⟨?_, hsuppressed.trans h.suppressed, fun _ hl => hlinks _ (h.links _ hl), ?_, ?_⟩
  · rw [hledger, ← h.ids]
    exact unitIds_map fun unit _ => (hf unit).coverageId
  · intro unit' hunit' hstatus
    rw [hledger] at hunit'
    obtain ⟨unit, hunit, rfl⟩ := List.mem_map.mp hunit'
    rw [(hf unit).agentId]
    exact h.linked.owner unit hunit ((hf unit).status.symm.trans hstatus)
  · intro fingerprint record hget
    obtain ⟨hkey, hl⟩ := hfindings fingerprint record hget
    exact ⟨hkey, hlinks _ hl⟩

/-! ### Validation -/

lemma decideUnit_coverageId (item : ValidationItem) (record : Finding) (verifierId : String)
    (unit : LedgerUnit) : (decideUnit item record verifierId unit).coverageId = unit.coverageId := by
  unfold decideUnit
  dsimp only
  split_ifs <;> rfl

/-- A decision on a unit with a candidate keeps what it lists; one on a unit that carries the
record makes it list the record. -/
lemma decideUnit_lists {item : ValidationItem} {record : Finding} {verifierId fingerprint : String}
    {unit : LedgerUnit} (howner : unit.status = .candidate → unit.agentId ≠ none)
    (h : (unit.status = .candidate ∧ fingerprint ∈ unit.resultFingerprints) ∨
      (unit.coverageId ∈ item.carriedUnits ∧ fingerprint = record.fingerprint)) :
    (decideUnit item record verifierId unit).status = .candidate ∧
      fingerprint ∈ (decideUnit item record verifierId unit).resultFingerprints := by
  unfold decideUnit
  dsimp only
  split_ifs with hcarries hcandidate hlisted
  · refine ⟨hcandidate.1, ?_⟩
    simp only [List.mem_eraseDups, List.mem_append, List.mem_singleton]
    rcases h with h | h
    · exact .inl h.2
    · exact .inr h.2
  · rcases h with h | h
    · exact absurd ⟨h.1, howner h.1⟩ hcandidate
    · exact ⟨rfl, List.mem_singleton.mpr h.2⟩
  · rcases h with h | h
    · exact h
    · exact absurd h.1 hcarries
  · rcases h with h | h
    · exact h
    · exact absurd h.1 hcarries

lemma decideUnit_owner {item : ValidationItem} {record : Finding} {verifierId : String}
    {unit : LedgerUnit} (howner : unit.status = .candidate → unit.agentId ≠ none) :
    (decideUnit item record verifierId unit).status = .candidate →
      (decideUnit item record verifierId unit).agentId ≠ none := by
  unfold decideUnit
  dsimp only
  split_ifs with hcarries hcandidate hlisted
  · exact fun _ => hcandidate.2
  · simp
  · exact howner
  · exact howner

/-- What holds while the candidate verifiers of a run are out. -/
structure ValidationInv (s₁ : EngineState) (tasks : List Validation) (r : Run) : Prop extends
    StillLinked s₁ r.state where
  tasks : ∀ task ∈ tasks, task.item ∈ items s₁ ∧ ∀ record agentId,
    task.phase = .deciding record agentId → record.fingerprint = task.item.fingerprint

lemma ValidationInv.move {s₁ : EngineState} {task : Validation} {rest : List Validation}
    {r r' : Run} {phase : ValidationPhase} (h : ValidationInv s₁ (task :: rest) r)
    (hstill : StillLinked s₁ r'.state)
    (hphase : ∀ record agentId, phase = .deciding record agentId →
      record.fingerprint = task.item.fingerprint) :
    ValidationInv s₁ ({ task with phase := phase } :: rest) r' where
  toStillLinked := hstill
  tasks other hmem := by
    rcases List.mem_cons.mp hmem with rfl | hmem
    · exact ⟨(h.tasks task List.mem_cons_self).1, hphase⟩
    · exact h.tasks other (List.mem_cons_of_mem _ hmem)

lemma afterAttempt_not_decided {retried : Bool} {attempted : Attempted} {record : Finding}
    {agentId : String} (h : afterAttempt retried attempted = .deciding record agentId) :
    attempted = .decided record agentId := by
  cases attempted with
  | decided record' agentId' => simpa [afterAttempt] using h
  | budget => simp [afterAttempt] at h
  | unusable => cases retried <;> simp [afterAttempt] at h
  | otherRootCause => cases retried <;> simp [afterAttempt] at h

lemma readVerdict_decided {item : ValidationItem} {agentId agentId' : String}
    {record record' : Finding} (h : readVerdict host item agentId record = .decided record' agentId') :
    record'.fingerprint = item.fingerprint := by
  unfold readVerdict at h
  split_ifs at h with hother hbad
  obtain ⟨rfl, rfl⟩ : record = record' ∧ agentId = agentId' := by simpa using h
  exact not_not.mp hother

lemma ValidationInv.decide {s₁ : EngineState} {task : Validation} {rest : List Validation}
    {r : Run} {record : Finding} {agentId : String} (hall : AllLinked s₁)
    (hphase : task.phase = .deciding record agentId) (h : ValidationInv s₁ (task :: rest) r) :
    ValidationInv s₁ ({ task with phase := .finished } :: rest)
      (r.mutate (recordDecision task.item record agentId)) := by
  obtain ⟨hitem, hrecord⟩ := h.tasks task List.mem_cons_self
  have hkey := hrecord record agentId hphase
  have hkeep : ∀ fingerprint, Links r.state.ledger fingerprint →
      Links (r.state.ledger.map (decideUnit task.item record agentId)) fingerprint := fun _ =>
    links_map fun unit hunit hs hl => decideUnit_lists (h.linked.owner unit hunit) (.inl ⟨hs, hl⟩)
  have hnew : Links (r.state.ledger.map (decideUnit task.item record agentId))
      record.fingerprint := by
    rcases hall task.item hitem with hlinks | ⟨c, hc, hfingerprint, hid⟩
    · exact hkeep _ (h.links _ (hkey ▸ hlinks))
    · rw [← h.ids] at hid
      obtain ⟨unit, hunit, hunitId⟩ := List.mem_map.mp hid
      have hcarries : unit.coverageId ∈ task.item.carriedUnits := by
        obtain ⟨fingerprint, -, heq⟩ := List.mem_map.mp hitem
        rw [← heq] at hfingerprint ⊢
        rw [hunitId]
        exact List.mem_map_of_mem (List.mem_filter.mpr ⟨hc, by simpa using hfingerprint⟩)
      exact ⟨_, List.mem_map_of_mem hunit,
        decideUnit_lists (h.linked.owner unit hunit) (.inr ⟨hcarries, rfl⟩)⟩
  refine h.move ⟨?_, h.suppressed, fun fingerprint hl => hkeep _ (h.links _ hl), ?_, ?_⟩ (by simp)
  · rw [← h.ids]
    exact unitIds_map fun unit _ => decideUnit_coverageId _ _ _ unit
  · intro unit' hunit'
    obtain ⟨unit, hunit, rfl⟩ := List.mem_map.mp hunit'
    exact decideUnit_owner (h.linked.owner unit hunit)
  · intro fingerprint found hget
    simp only [Run.mutate, recordDecision, InsertMap.get_set] at hget
    split_ifs at hget with hsame
    · obtain rfl := Option.some.inj hget
      exact ⟨hsame.symm, hsame ▸ hnew⟩
    · obtain ⟨hfound, hlinks⟩ := h.linked.linked fingerprint found hget
      exact ⟨hfound, hkeep _ hlinks⟩

lemma markUnit_sameLinks (item : ValidationItem) (reason : String) (unit : LedgerUnit) :
    SameLinks unit (markUnit item reason unit) := by
  unfold markUnit
  split_ifs
  · exact ⟨rfl, rfl, rfl, rfl⟩
  · exact ⟨rfl, rfl, rfl, rfl⟩

/-- Whatever a candidate verifier does next, the findings stay linked. -/
lemma ValidationInv.step {s₁ : EngineState} (hall : AllLinked s₁) {task : Validation}
    {rest : List Validation} {r : Run} (h : ValidationInv s₁ (task :: rest) r) :
    ValidationInv s₁ ((stepValidation host input verifiers task r).1 :: rest)
      (stepValidation host input verifiers task r).2 := by
  unfold stepValidation
  cases hphase : task.phase with
  | waiting retried =>
    dsimp only
    split_ifs
    · exact h.move (h.same rfl rfl rfl) fun _ _ heq => by simp [afterAttempt] at heq
    · exact h.move (h.same rfl rfl rfl) (by simp)
  | cleared retried =>
    dsimp only
    rcases reserve_cases input (task.agentId retried) r.state with
      ⟨why, hwhy, heq⟩ | ⟨-, -, heq⟩
    · rw [heq]
      cases why with
      | ok => exact absurd rfl hwhy
      | budget | duplicate | halted =>
        exact h.move (h.same rfl rfl rfl) fun _ _ heq => by cases afterAttempt_not_decided heq
    · rw [heq]
      exact h.move (h.same rfl rfl rfl) (by simp)
  | running retried =>
    dsimp only
    cases hanswer : verifiers.candidate (task.agentId retried) with
    | refused reason => exact h.move (h.same rfl rfl rfl) (by simp)
    | failed | discarded =>
      exact h.move (h.same rfl rfl rfl) fun _ _ heq => by cases afterAttempt_not_decided heq
    | decoded record =>
      exact h.move (h.same rfl rfl rfl) fun _ _ heq => readVerdict_decided (afterAttempt_not_decided heq)
  | failing reason retried =>
    have hsame := sameLedger_fail reason r.state
    exact h.move (h.same hsame.ledger hsame.findings hsame.suppressed)
      fun _ _ heq => by cases afterAttempt_not_decided heq
  | deciding record agentId => exact h.decide hall hphase
  | failed reason =>
    have hsame := sameLedger_fail (if reason = "validation_budget_exhausted" then reason
      else "candidate_validation_failed") r.state
    exact h.move (h.same hsame.ledger hsame.findings hsame.suppressed) (by simp)
  | marking reason =>
    exact h.move (h.map rfl (markUnit_sameLinks task.item reason) rfl h.linked.linked) (by simp)
  | finished => exact h

lemma ValidationInv.perm {s₁ : EngineState} {tasks tasks' : List Validation} {r : Run}
    (hperm : tasks.Perm tasks') (h : ValidationInv s₁ tasks r) : ValidationInv s₁ tasks' r :=
  ⟨h.toStillLinked, fun task hmem => h.tasks task (hperm.mem_iff.mpr hmem)⟩

/-- How many moves a candidate verifier has before it at most. -/
def ValidationPhase.rank : ValidationPhase → ℕ
  | .waiting retried => if retried then 6 else 10
  | .cleared retried => if retried then 5 else 9
  | .running retried => if retried then 4 else 8
  | .failing _ retried => if retried then 3 else 7
  | .failed _ => 2
  | .marking _ => 1
  | .deciding _ _ => 1
  | .finished => 0

lemma afterAttempt_rank (retried : Bool) (attempted : Attempted) :
    (afterAttempt retried attempted).rank ≤ if retried then 2 else 6 := by
  cases attempted with
  | decided | budget | unusable | otherRootCause =>
    cases retried <;> simp [afterAttempt, ValidationPhase.rank]

lemma stepValidation_rank (task : Validation) (r : Run) :
    (stepValidation host input verifiers task r).1.phase.rank ≤ task.phase.rank - 1 := by
  unfold stepValidation
  cases hphase : task.phase with
  | waiting retried =>
    dsimp only
    split_ifs
    · have hrank := afterAttempt_rank retried .budget
      cases retried <;> simp [ValidationPhase.rank] at hrank ⊢ <;> omega
    · cases retried <;> simp [ValidationPhase.rank]
  | cleared retried =>
    dsimp only
    rcases reserve_cases input (task.agentId retried) r.state with
      ⟨why, hwhy, heq⟩ | ⟨-, -, heq⟩
    · rw [heq]
      have hrank := afterAttempt_rank retried .unusable
      cases why with
      | ok => exact absurd rfl hwhy
      | budget | duplicate | halted =>
        cases retried <;> simp [ValidationPhase.rank] at hrank ⊢ <;> omega
    · rw [heq]
      cases retried <;> simp [ValidationPhase.rank]
  | running retried =>
    dsimp only
    have hafter := afterAttempt_rank retried
    cases verifiers.candidate (task.agentId retried) with
    | refused reason => cases retried <;> simp [ValidationPhase.rank]
    | failed | discarded =>
      have hrank := hafter .unusable
      cases retried <;> simp [ValidationPhase.rank] at hrank ⊢ <;> omega
    | decoded record =>
      have hrank := hafter (readVerdict host task.item (task.agentId retried) record)
      cases retried <;> simp [ValidationPhase.rank] at hrank ⊢ <;> omega
  | failing reason retried =>
    have hrank := afterAttempt_rank retried .unusable
    cases retried <;> simp [ValidationPhase.rank] at hrank ⊢ <;> omega
  | deciding => simp [ValidationPhase.rank]
  | failed => simp [ValidationPhase.rank]
  | marking => simp [ValidationPhase.rank]
  | finished => simp [hphase, ValidationPhase.rank]

lemma ValidationPhase.rank_le (phase : ValidationPhase) : phase.rank ≤ 10 := by
  cases phase with
  | waiting retried | cleared retried | running retried | failing _ retried =>
    cases retried <;> simp [ValidationPhase.rank]
  | deciding | failed | marking | finished => simp [ValidationPhase.rank]

lemma deferCarried_eq {unit : LedgerUnit} (h : unit.status = .candidate) :
    deferCarried unit = unit := by
  unfold deferCarried
  rw [if_neg]
  simp [h]

variable (host input verifiers) in
/-- After phase 3 every finding is linked, if every item was when it began. -/
lemma runCandidateValidation_linked {r : Run} (schedule : List ℕ) (hall : AllLinked r.state)
    (h : FindingsLinked r.state) :
    StillLinked r.state (runCandidateValidation host input verifiers schedule r).state := by
  have hstart : ValidationInv r.state (validations r.state) r := by
    refine ⟨.refl h, fun task hmem => ?_⟩
    obtain ⟨i, hi, rfl⟩ := List.mem_mapIdx.mp hmem
    exact ⟨List.getElem_mem hi, by simp⟩
  obtain ⟨tasks, hinv, -⟩ := TaskPool.runPool_inv
    (stepValidation host input verifiers) (ValidationInv r.state)
    (fun task => task.phase.rank) (fun _ _ _ hperm h => h.perm hperm)
    (fun _ _ _ h => h.step hall) stepValidation_rank 10 schedule
    (fun task _ => task.phase.rank_le) hstart
  unfold runCandidateValidation
  set validated := TaskPool.runPool (stepValidation host input verifiers) 10 schedule
    (validations r.state) r
  have hids : ∀ unit, (deferCarried unit).coverageId = unit.coverageId := by
    intro unit
    unfold deferCarried
    split_ifs <;> rfl
  have hcandidate : ∀ unit, (deferCarried unit).status = .candidate → unit.status = .candidate := by
    intro unit hstatus
    unfold deferCarried at hstatus
    split_ifs at hstatus
    exact hstatus
  have hlinks : ∀ fingerprint, Links validated.state.ledger fingerprint →
      Links (validated.state.ledger.map deferCarried) fingerprint := fun _ =>
    links_map fun unit _ hs hl => by rw [deferCarried_eq hs]; exact ⟨hs, hl⟩
  refine ⟨?_, hinv.suppressed, fun _ hl => hlinks _ (hinv.links _ hl), ?_, ?_⟩
  · rw [← hinv.ids]
    exact unitIds_map fun unit _ => hids unit
  · intro unit' hunit' hstatus
    obtain ⟨unit, hunit, rfl⟩ := List.mem_map.mp hunit'
    have hbefore := hcandidate unit hstatus
    rw [deferCarried_eq hbefore]
    exact hinv.linked.owner unit hunit hbefore
  · intro fingerprint record hget
    obtain ⟨hkey, hl⟩ := hinv.linked.linked fingerprint record hget
    exact ⟨hkey, hlinks _ hl⟩

/-! ### Record verification -/

/-- The record a check has in hand. -/
def RecordPhase.current : RecordPhase → Option Finding
  | .waiting current _ _ | .cleared current _ _ | .running current _ _ | .failing _ current _ _ =>
    some current
  | .final record => some record
  | .unchecked _ | .noting _ | .noted | .finished => none

/-- What holds while the record verifiers of a run are out. -/
structure RecordInv (s₁ : EngineState) (tasks : List RecordTask) (r : Run) : Prop extends
    StillLinked s₁ r.state where
  tasks : ∀ task ∈ tasks, Links s₁.ledger task.record.fingerprint ∧
    ∀ current, task.phase.current = some current →
      current.fingerprint = task.record.fingerprint

lemma RecordInv.perm {s₁ : EngineState} {tasks tasks' : List RecordTask} {r : Run}
    (hperm : tasks.Perm tasks') (h : RecordInv s₁ tasks r) : RecordInv s₁ tasks' r :=
  ⟨h.toStillLinked, fun task hmem => h.tasks task (hperm.mem_iff.mpr hmem)⟩

lemma RecordInv.move {s₁ : EngineState} {task : RecordTask} {rest : List RecordTask}
    {r r' : Run} {phase : RecordPhase} (h : RecordInv s₁ (task :: rest) r)
    (hstill : StillLinked s₁ r'.state)
    (hphase : ∀ current, phase.current = some current →
      current.fingerprint = task.record.fingerprint) :
    RecordInv s₁ ({ task with phase := phase } :: rest) r' where
  toStillLinked := hstill
  tasks other hmem := by
    rcases List.mem_cons.mp hmem with rfl | hmem
    · exact ⟨(h.tasks task List.mem_cons_self).1, hphase⟩
    · exact h.tasks other (List.mem_cons_of_mem _ hmem)

lemma afterUnusable_current {current found : Finding} {left : ℕ} {retried : Bool}
    (h : (afterUnusable current left retried).current = some found) : found = current := by
  cases retried with
  | false => exact (Option.some.inj h).symm
  | true => cases h

/-- A replacement keeps the fingerprint of the record it replaces. -/
lemma afterVerdict_current {current found : Finding} {left : ℕ} {retried : Bool}
    {verdict : RecordVerdict}
    (h : (afterVerdict host current left retried verdict).current = some found) :
    found.fingerprint = current.fingerprint := by
  unfold afterVerdict at h
  split_ifs at h with husable
  · cases verdict with
    | verified fingerprint =>
      obtain rfl := Option.some.inj h
      rfl
    | replace record =>
      have hsame : record.fingerprint = current.fingerprint := husable.1
      dsimp only at h
      split_ifs at h
      · obtain rfl := Option.some.inj h
        exact hsame
      · obtain rfl := Option.some.inj h
        exact hsame
  · rw [afterUnusable_current h]

lemma finalUnit_sameLinks (record : Finding) (unit : LedgerUnit) :
    SameLinks unit (finalUnit record unit) := by
  unfold finalUnit
  split_ifs
  · exact ⟨rfl, rfl, rfl, rfl⟩
  · exact ⟨rfl, rfl, rfl, rfl⟩

lemma notRecheckedUnit_sameLinks (fingerprint : String) (unit : LedgerUnit) :
    SameLinks unit (notRecheckedUnit fingerprint unit) := by
  unfold notRecheckedUnit
  split_ifs
  · exact ⟨rfl, rfl, rfl, rfl⟩
  · exact ⟨rfl, rfl, rfl, rfl⟩

lemma sameLinks_refl (unit : LedgerUnit) : SameLinks unit (id unit) := ⟨rfl, rfl, rfl, rfl⟩

/-- Whatever a record verifier does next, the findings stay linked. -/
lemma RecordInv.step {s₁ : EngineState} {task : RecordTask} {rest : List RecordTask} {r : Run}
    (h : RecordInv s₁ (task :: rest) r) :
    RecordInv s₁ ((stepRecord host input verifiers task r).1 :: rest)
      (stepRecord host input verifiers task r).2 := by
  obtain ⟨hlinks, hcurrent⟩ := h.tasks task List.mem_cons_self
  unfold stepRecord
  cases hphase : task.phase with
  | waiting current left retried =>
    rw [hphase] at hcurrent
    dsimp only
    split_ifs
    · exact h.move (h.same rfl rfl rfl) (by simp [RecordPhase.current])
    · cases left with
      | zero => exact h.move (h.same rfl rfl rfl) (by simp [RecordPhase.current])
      | succ left => exact h.move (h.same rfl rfl rfl) hcurrent
  | cleared current left retried =>
    rw [hphase] at hcurrent
    have hunusable : ∀ found, (afterUnusable current left retried).current = some found →
        found.fingerprint = task.record.fingerprint := fun found hfound =>
      afterUnusable_current hfound ▸ hcurrent current rfl
    dsimp only
    rcases reserve_cases input (task.agentId left retried) r.state with
      ⟨why, hwhy, heq⟩ | ⟨-, -, heq⟩
    · rw [heq]
      cases why with
      | ok => exact absurd rfl hwhy
      | budget | duplicate | halted => exact h.move (h.same rfl rfl rfl) hunusable
    · rw [heq]
      exact h.move (h.same rfl rfl rfl) hcurrent
  | running current left retried =>
    rw [hphase] at hcurrent
    have hunusable : ∀ found, (afterUnusable current left retried).current = some found →
        found.fingerprint = task.record.fingerprint := fun found hfound =>
      afterUnusable_current hfound ▸ hcurrent current rfl
    dsimp only
    cases verifiers.record (task.agentId left retried) with
    | refused reason => exact h.move (h.same rfl rfl rfl) hcurrent
    | failed | discarded => exact h.move (h.same rfl rfl rfl) hunusable
    | decoded verdict =>
      exact h.move (h.same rfl rfl rfl) fun found hfound =>
        (afterVerdict_current hfound).trans (hcurrent current rfl)
  | failing reason current left retried =>
    rw [hphase] at hcurrent
    have hsame := sameLedger_fail reason r.state
    exact h.move (h.same hsame.ledger hsame.findings hsame.suppressed) fun found hfound =>
      afterUnusable_current hfound ▸ hcurrent current rfl
  | final record =>
    rw [hphase] at hcurrent
    refine h.move (h.map (f := finalUnit record) rfl (finalUnit_sameLinks record) rfl ?_)
      (by simp [RecordPhase.current])
    intro fingerprint found hget
    simp only [Run.mutate, settleFinal, InsertMap.get_set] at hget
    split_ifs at hget with hkey
    · obtain rfl := Option.some.inj hget
      refine ⟨hkey.symm, ?_⟩
      rw [hkey, hcurrent record rfl]
      exact h.links _ hlinks
    · exact h.linked.linked fingerprint found hget
  | unchecked why =>
    dsimp only
    by_cases hwhy : why = .verifier
    · refine h.move (h.map (f := notRecheckedUnit task.record.fingerprint) ?_
        (notRecheckedUnit_sameLinks _) ?_ ?_) (by simp [RecordPhase.current])
      · simp [Run.mutate, settleUnchecked, hwhy]
      · simp [Run.mutate, settleUnchecked, hwhy]
      · simp only [Run.mutate, settleUnchecked, hwhy, if_true]
        exact h.linked.linked
    · refine h.move (h.map (f := id) ?_ sameLinks_refl ?_ ?_) (by simp [RecordPhase.current])
      · simp [Run.mutate, settleUnchecked, hwhy]
      · simp [Run.mutate, settleUnchecked, hwhy]
      · intro fingerprint found hget
        simp only [Run.mutate, settleUnchecked, hwhy, if_false, InsertMap.get_erase] at hget
        split_ifs at hget
        exact h.linked.linked fingerprint found hget
  | noting why =>
    dsimp only
    have hsame := sameLedger_gap (keptUnchecked task.record) r.state
    split_ifs
    · exact h.move (h.same hsame.ledger hsame.findings hsame.suppressed)
        (by simp [RecordPhase.current])
    · exact h.move (h.same rfl rfl rfl) (by simp [RecordPhase.current])
  | noted =>
    have hsame := sameLedger_fail "record_verification_incomplete" r.state
    exact h.move (h.same hsame.ledger hsame.findings hsame.suppressed)
      (by simp [RecordPhase.current])
  | finished => exact h

/-- How many moves a record verifier's chain has before it at most. -/
def RecordPhase.rank : RecordPhase → ℕ
  | .waiting _ left retried => if retried then max (8 * left) 4 else 8 * left + 4
  | .cleared _ left retried => if retried then 8 * left + 7 else 8 * left + 11
  | .running _ left retried => if retried then 8 * left + 6 else 8 * left + 10
  | .failing _ _ left retried => if retried then 8 * left + 5 else 8 * left + 9
  | .final _ | .unchecked _ => 3
  | .noting _ => 2
  | .noted => 1
  | .finished => 0

lemma afterUnusable_rank (current : Finding) (left : ℕ) (retried : Bool) :
    (afterUnusable current left retried).rank ≤ if retried then 3 else 8 * left + 8 := by
  cases retried with
  | false => simp [afterUnusable, RecordPhase.rank]; omega
  | true => simp [afterUnusable, RecordPhase.rank]

variable (host) in
lemma afterVerdict_rank (current : Finding) (left : ℕ) (retried : Bool) (verdict : RecordVerdict) :
    (afterVerdict host current left retried verdict).rank ≤
      if retried then 8 * left + 4 else 8 * left + 8 := by
  unfold afterVerdict
  have hunusable := afterUnusable_rank current left retried
  by_cases husable : usable host current verdict
  · rw [if_pos husable]
    cases verdict with
    | verified => cases retried <;> simp [RecordPhase.rank]
    | replace record =>
      by_cases hmaterial : isMaterial current record
      · simp only [if_pos hmaterial]
        cases retried <;> simp [RecordPhase.rank]
      · simp only [if_neg hmaterial]
        cases retried <;> simp [RecordPhase.rank]
  · rw [if_neg husable]
    cases retried with
    | false => exact hunusable
    | true =>
      rw [if_pos rfl] at hunusable ⊢
      omega

lemma stepRecord_rank (task : RecordTask) (r : Run) :
    (stepRecord host input verifiers task r).1.phase.rank ≤ task.phase.rank - 1 := by
  unfold stepRecord
  cases hphase : task.phase with
  | waiting current left retried =>
    dsimp only
    split_ifs
    · cases retried <;> simp [RecordPhase.rank]
      omega
    · cases left with
      | zero => cases retried <;> simp [RecordPhase.rank]
      | succ left => cases retried <;> simp [RecordPhase.rank] <;> omega
  | cleared current left retried =>
    dsimp only
    rcases reserve_cases input (task.agentId left retried) r.state with
      ⟨why, hwhy, heq⟩ | ⟨-, -, heq⟩
    · rw [heq]
      have hrank := afterUnusable_rank current left retried
      cases why with
      | ok => exact absurd rfl hwhy
      | budget | duplicate | halted =>
        cases retried <;> simp [RecordPhase.rank] at hrank ⊢ <;> omega
    · rw [heq]
      cases retried <;> simp [RecordPhase.rank]
  | running current left retried =>
    dsimp only
    have hrank := afterUnusable_rank current left retried
    cases verifiers.record (task.agentId left retried) with
    | refused reason => cases retried <;> simp [RecordPhase.rank]
    | failed | discarded => cases retried <;> simp [RecordPhase.rank] at hrank ⊢ <;> omega
    | decoded verdict =>
      have hverdict := afterVerdict_rank host current left retried verdict
      cases retried <;> simp [RecordPhase.rank] at hverdict ⊢ <;> omega
  | failing reason current left retried =>
    have hrank := afterUnusable_rank current left retried
    cases retried <;> simp [RecordPhase.rank] at hrank ⊢ <;> omega
  | final => simp [RecordPhase.rank]
  | unchecked => simp [RecordPhase.rank]
  | noting => simp [RecordPhase.rank]
  | noted => simp [RecordPhase.rank]
  | finished => simp [hphase, RecordPhase.rank]

variable (host input verifiers) in
/-- Phase 5 keeps the findings linked. -/
lemma runRecordVerification_linked {r : Run} (schedule : List ℕ) (h : FindingsLinked r.state) :
    StillLinked r.state (runRecordVerification host input verifiers schedule r).state := by
  unfold runRecordVerification
  split_ifs
  · exact .refl h
  · have htasks : ∀ task ∈ recordTasks r.state,
        task.phase = .waiting task.record (maxMaterialChain + 1) false ∧
          Links r.state.ledger task.record.fingerprint := by
      intro task hmem
      obtain ⟨i, hi, rfl⟩ := List.mem_mapIdx.mp hmem
      refine ⟨rfl, ?_⟩
      have hrecord := (List.perm_insertionSort _ _).mem_iff.mp (List.getElem_mem hi)
      obtain ⟨fingerprint, hget⟩ := InsertMap.mem_values.mp (List.mem_filter.mp hrecord).1
      obtain ⟨hkey, hlinks⟩ := h.linked fingerprint _ hget
      exact hkey ▸ hlinks
    have hstart : RecordInv r.state (recordTasks r.state) r := by
      refine ⟨.refl h, fun task hmem => ⟨(htasks task hmem).2, fun current hcurrent => ?_⟩⟩
      rw [(htasks task hmem).1] at hcurrent
      obtain rfl := Option.some.inj hcurrent
      rfl
    obtain ⟨tasks, hinv, -⟩ := TaskPool.runPool_inv
      (stepRecord host input verifiers) (RecordInv r.state)
      (fun task => task.phase.rank) (fun _ _ _ hperm h => h.perm hperm)
      (fun _ _ _ h => h.step) stepRecord_rank 36 schedule
      (fun task hmem => by rw [(htasks task hmem).1]; simp [RecordPhase.rank, maxMaterialChain])
      hstart
    exact hinv.toStillLinked

end Maple.Audit
