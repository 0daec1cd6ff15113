import Mathlib
import Maple.AuditLinked

/-! The findings a run stores, and what the next run's seeded ledger makes of them. -/

namespace Maple.Audit

variable {host : Host} {input : AuditRunInput} {agents : Agents} {verifiers : Verifiers}

/-! ### What a run stores -/

lemma byFingerprint_get {findings : List Finding} {fingerprint : String} {record : Finding}
    (h : (byFingerprint findings).get fingerprint = some record) :
    record.fingerprint = fingerprint ∧ record ∈ findings := by
  unfold byFingerprint at h
  rw [InsertMap.get_setAll, InsertMap.get_empty, Option.or_none] at h
  exact ⟨by simpa using List.find?_some h, List.mem_reverse.mp (List.mem_of_find?_eq_some h)⟩

lemma byFingerprint_of_mem {findings : List Finding}
    (hdistinct : (findings.map Finding.fingerprint).Nodup) {record : Finding}
    (h : record ∈ findings) : (byFingerprint findings).get record.fingerprint = some record := by
  cases hget : (byFingerprint findings).get record.fingerprint with
  | none =>
    unfold byFingerprint at hget
    rw [InsertMap.get_setAll, InsertMap.get_empty, Option.or_none, List.find?_eq_none] at hget
    simpa using hget record (List.mem_reverse.mpr h)
  | some found =>
    obtain ⟨hkey, hmem⟩ := byFingerprint_get hget
    rw [List.inj_on_of_nodup_map hdistinct hmem h hkey]

/-- The state a run stores from: distinct ids, linked findings, and suppressed rejections. -/
structure Storable (s : EngineState) : Prop where
  distinct : (unitIds s.ledger).Nodup
  linked : FindingsLinked s
  suppressed : SuppressedOwn s

/-- Values stored under their own fingerprints have distinct ones. -/
lemma nodup_fingerprints {m : InsertMap String Finding}
    (hkey : ∀ fingerprint record, m.get fingerprint = some record →
      record.fingerprint = fingerprint) : (m.values.map Finding.fingerprint).Nodup := by
  have hkeys : m.values.map Finding.fingerprint = m.entries.map Prod.fst := by
    unfold InsertMap.values
    rw [List.map_map]
    refine List.map_congr_left fun entry hentry => ?_
    exact hkey entry.1 entry.2 (InsertMap.mem_entries.mp hentry)
  rw [hkeys]
  exact m.nodup

lemma sortRecords_perm (records : List Finding) : (sortRecords records).Perm records :=
  List.perm_insertionSort _ _

lemma storedFindings_sublist (s : EngineState) :
    (storedFindings host s).Sublist (assembleFindings s) := by
  unfold storedFindings
  dsimp only
  split_ifs
  · exact List.filter_sublist
  · exact List.nil_sublist _

/-- What a stored finding is: a decided record, or a suppressed rejection raised again. -/
lemma mem_storedFindings {s : EngineState} {record : Finding}
    (h : record ∈ storedFindings host s) :
    record ∈ s.findings.values ∨ record ∈ s.suppressed.values := by
  have hmem := (sortRecords_perm _).mem_iff.mp ((storedFindings_sublist s).subset h)
  rcases List.mem_append.mp hmem with hfinal | hraised
  · exact .inl ((sortRecords_perm _).mem_iff.mp hfinal)
  · exact .inr (List.mem_filter.mp hraised).1

variable (host) in
lemma storedFindings_nodup {s : EngineState} (h : Storable s) :
    ((storedFindings host s).map Finding.fingerprint).Nodup := by
  refine List.Nodup.sublist ((storedFindings_sublist s).map _) ?_
  refine ((sortRecords_perm _).map Finding.fingerprint).nodup_iff.mpr ?_
  have hdecided := nodup_fingerprints fun fingerprint record hget =>
    (h.linked.linked fingerprint record hget).1
  have hsuppressed := nodup_fingerprints fun fingerprint record hget =>
    (h.suppressed fingerprint record hget).1
  rw [List.map_append, List.nodup_append]
  refine ⟨((sortRecords_perm _).map Finding.fingerprint).nodup_iff.mpr hdecided,
    hsuppressed.sublist (List.filter_sublist.map _), ?_⟩
  intro fingerprint hfinal fingerprint' hraised heq
  obtain ⟨record, hrecord, rfl⟩ := List.mem_map.mp hfinal
  obtain ⟨other, hother, rfl⟩ := List.mem_map.mp hraised
  obtain ⟨key, hget⟩ := InsertMap.mem_values.mp ((sortRecords_perm _).mem_iff.mp hrecord)
  have hnone := (List.mem_filter.mp hother).2
  simp only [decide_eq_true_eq] at hnone
  rw [← heq, (h.linked.linked key record hget).1, hget] at hnone
  simp at hnone

/-- A stored open finding is listed by a unit of the stored ledger. -/
lemma stored_open_linked {s : EngineState} (h : Storable s) {record : Finding}
    (hstored : record ∈ storedFindings host s) (hopen : record.verdict ≠ .rejected) :
    Links s.ledger record.fingerprint := by
  rcases mem_storedFindings hstored with hdecided | hraised
  · obtain ⟨fingerprint, hget⟩ := InsertMap.mem_values.mp hdecided
    obtain ⟨hkey, hlinks⟩ := h.linked.linked fingerprint record hget
    exact hkey ▸ hlinks
  · obtain ⟨fingerprint, hget⟩ := InsertMap.mem_values.mp hraised
    exact absurd (h.suppressed fingerprint record hget).2 hopen

/-! ### Planning from the prior run -/

lemma planUnit_coverageId (findings : List Finding) (changed : List String → Bool)
    (unit : LedgerUnit) : (planUnit findings changed unit).1.coverageId = unit.coverageId := by
  unfold planUnit
  split_ifs
  · rfl
  · dsimp only
    cases strongestOpen (openRecords findings unit) with
    | none => rfl
    | some strongest =>
      dsimp only
      split_ifs <;> rfl

/-- A prior unit is planned anew, unless it did not apply. -/
lemma planUnit_status (findings : List Finding) (changed : List String → Bool)
    (unit : LedgerUnit) :
    (planUnit findings changed unit).1.status = .planned ∨
      (planUnit findings changed unit).1.status = .notApplicable := by
  unfold planUnit
  split_ifs with hna
  · exact .inr hna
  · left
    dsimp only
    cases strongestOpen (openRecords findings unit) with
    | none => rfl
    | some strongest =>
      dsimp only
      split_ifs <;> rfl

lemma strongestOpen_isSome {records : List Finding} {record : Finding} (h : record ∈ records) :
    ∃ strongest, strongestOpen records = some strongest := by
  cases records with
  | nil => cases h
  | cons first rest =>
    unfold strongestOpen
    cases (first :: rest).find? fun record => record.verdict = .confirmed with
    | none => exact ⟨first, rfl⟩
    | some strongest => exact ⟨strongest, rfl⟩

/-- A unit that lists an open record is re-verified with it, or becomes revalidation work. -/
lemma planUnit_open {findings : List Finding} (changed : List String → Bool) {unit : LedgerUnit}
    {record : Finding} (happlies : unit.status ≠ .notApplicable)
    (hrecord : record ∈ openRecords findings unit) :
    (planUnit findings changed unit).1.status = .planned ∧
      (⟨record, unit.coverageId⟩ ∈ (planUnit findings changed unit).2 ∨
        (planUnit findings changed unit).1.priorStatus = .priorConfirmedChangedSource ∨
        (planUnit findings changed unit).1.priorStatus = .priorNeedsValidation) := by
  obtain ⟨strongest, hstrongest⟩ := strongestOpen_isSome hrecord
  unfold planUnit
  rw [if_neg happlies]
  dsimp only
  rw [hstrongest]
  dsimp only
  by_cases hchanged : (openRecords findings unit).any
      fun record => changed (recordFiles record).eraseDups
  · rw [if_pos hchanged]
    refine ⟨rfl, .inr ?_⟩
    by_cases hconfirmed : strongest.verdict = .confirmed
    · exact .inl (if_pos hconfirmed)
    · exact .inr (if_neg hconfirmed)
  · rw [if_neg hchanged]
    exact ⟨rfl, .inl (List.mem_map_of_mem hrecord)⟩

lemma planUnit_carried {findings : List Finding} {changed : List String → Bool}
    {unit : LedgerUnit} {c : CarriedRecord} (h : c ∈ (planUnit findings changed unit).2) :
    c.coverageId = unit.coverageId ∧ openRecords findings unit ≠ [] := by
  unfold planUnit at h
  split_ifs at h
  · cases h
  · dsimp only at h
    cases hstrongest : strongestOpen (openRecords findings unit) with
    | none =>
      rw [hstrongest] at h
      cases h
    | some strongest =>
      rw [hstrongest] at h
      dsimp only at h
      by_cases hchanged : (openRecords findings unit).any
          fun record => changed (recordFiles record).eraseDups
      · rw [if_pos hchanged] at h
        cases h
      · rw [if_neg hchanged] at h
        obtain ⟨record, hrecord, rfl⟩ := List.mem_map.mp h
        exact ⟨rfl, List.ne_nil_of_mem hrecord⟩

lemma scopedUnit_cases (unit : LedgerUnit) (scope : List String) :
    scopedUnit unit scope = unit ∨
      (scopedUnit unit scope).coverageId = unit.coverageId ∧
        (scopedUnit unit scope).status = .outOfScope := by
  unfold scopedUnit
  split_ifs
  · exact .inl rfl
  · exact .inr ⟨rfl, rfl⟩

lemma scopedUnit_coverageId (unit : LedgerUnit) (scope : List String) :
    (scopedUnit unit scope).coverageId = unit.coverageId := by
  rcases scopedUnit_cases unit scope with h | h
  · rw [h]
  · exact h.1

/-! ### The seeded ledger -/

variable (host input) in
lemma seedState_fields (units : List SeedUnit) (s : EngineState) :
    (seedState host input units s).ledger = (admittedSeeds host input units).ledger ∧
      (seedState host input units s).carried =
        input.plan.carried.filter (fun c => c.coverageId ∈ input.inScopeIds) ∧
      (seedState host input units s).suppressed = input.plan.suppressed ∧
      (seedState host input units s).findings = s.findings ∧
      (seedState host input units s).candidates = s.candidates := by
  unfold seedState
  dsimp only
  split_ifs
  · exact ⟨rfl, rfl, rfl, rfl, rfl⟩
  · have hsame := sameLedger_gap ("synthesis proposed " ++
      toString (seedRefusals host input units).length ++ " units the ledger refused") s
    exact ⟨rfl, rfl, rfl, hsame.findings, hsame.candidates⟩

lemma admittedPrior_mem {unit : LedgerUnit}
    (h : unit ∈ (admitUnits host.toSkill [] input.priorUnits).ledger) :
    unit ∈ input.priorUnits := by
  obtain ⟨fresh, hperm, hsub, -⟩ := admitUnits_spec host.toSkill [] input.priorUnits
  exact hsub (by simpa using hperm.mem_iff.mp h)

lemma admittedPrior_subset (units : List SeedUnit) {unit : LedgerUnit}
    (h : unit ∈ (admitUnits host.toSkill [] input.priorUnits).ledger) :
    unit ∈ (admittedSeeds host input units).ledger := by
  obtain ⟨fresh, hperm, -, -⟩ := admitUnits_spec host.toSkill
    (admitUnits host.toSkill [] input.priorUnits).ledger (seeds host input units)
  exact hperm.mem_iff.mpr (List.mem_append_left _ h)

lemma seeded_distinct (units : List SeedUnit) :
    (unitIds (admittedSeeds host input units).ledger).Nodup := by
  have hnodup : ∀ ledger added, (unitIds ledger).Nodup →
      (unitIds (admitUnits host.toSkill ledger added).ledger).Nodup := by
    intro ledger added hledger
    obtain ⟨fresh, hperm, -, hfresh⟩ := admitUnits_spec host.toSkill ledger added
    exact (hperm.map LedgerUnit.coverageId).nodup_iff.mpr (hfresh hledger)
  exact hnodup _ _ (hnodup _ _ List.nodup_nil)

lemma plan_status {unit : LedgerUnit} (h : unit ∈ input.plan.units) :
    unit.status = .planned ∨ unit.status = .notApplicable := by
  unfold AuditRunInput.plan at h
  cases hprior : input.prior with
  | none =>
    rw [hprior] at h
    cases h
  | some prior =>
    rw [hprior] at h
    obtain ⟨old, -, rfl⟩ := List.mem_map.mp h
    exact planUnit_status _ _ old

lemma priorUnits_status {unit : LedgerUnit} (h : unit ∈ input.priorUnits) :
    unit.status = .planned ∨ unit.status = .notApplicable ∨ unit.status = .outOfScope := by
  obtain ⟨planned, hplanned, rfl⟩ := List.mem_map.mp h
  rcases scopedUnit_cases planned input.scopePaths with hsame | hout
  · rw [hsame]
    rcases plan_status hplanned with hs | hs
    · exact .inl hs
    · exact .inr (.inl hs)
  · exact .inr (.inr hout.2)

/-- No unit of a seeded ledger has been hunted. -/
lemma seeded_status (units : List SeedUnit) {unit : LedgerUnit}
    (h : unit ∈ (admittedSeeds host input units).ledger) :
    unit.status ≠ .inProgress ∧ unit.status.terminal = false := by
  have hidle : unit.status = .planned ∨ unit.status = .notApplicable ∨
      unit.status = .outOfScope := by
    obtain ⟨fresh, hperm, hsub, -⟩ := admitUnits_spec host.toSkill
      (admitUnits host.toSkill [] input.priorUnits).ledger (seeds host input units)
    rcases List.mem_append.mp (hperm.mem_iff.mp h) with hprior | hnew
    · exact priorUnits_status (admittedPrior_mem hprior)
    · obtain ⟨seed, -, rfl⟩ := List.mem_map.mp (List.mem_filter.mp (hsub hnew)).1
      rcases (seedUnit_spec host.toSkill seed.toUnitSeed input.scopePaths _ seed.priority).1 with
        hs | hs
      · exact .inl hs
      · exact .inr (.inr hs)
  rcases hidle with hs | hs | hs
  · simp [hs, UnitStatus.terminal]
  · simp [hs, UnitStatus.terminal]
  · simp [hs, UnitStatus.terminal]

lemma plan_suppressed {fingerprint : String} {record : Finding}
    (h : input.plan.suppressed.get fingerprint = some record) :
    record.fingerprint = fingerprint ∧ record.verdict = .rejected := by
  unfold AuditRunInput.plan at h
  cases hprior : input.prior with
  | none =>
    rw [hprior] at h
    cases h
  | some prior =>
    rw [hprior] at h
    obtain ⟨hkey, hmem⟩ := byFingerprint_get h
    have hfilter := (List.mem_filter.mp hmem).2
    simp only [decide_eq_true_eq] at hfilter
    exact ⟨hkey, hfilter.1⟩

/-- In every ledger of the phase a terminal unit has an owner, if none was terminal at its start. -/
lemma History.owner {s₀ : EngineState} {r : Run} (h : History agents s₀ r)
    (hstart : ∀ unit ∈ s₀.ledger, unit.status.terminal = false) :
    ∀ unit ∈ r.state.ledger, unit.status.terminal = true → unit.agentId ≠ none := by
  have hhead := h.head
  have hlast := h.last
  have hsteps := h.steps
  have hdistinct := h.distinct
  generalize hpresent : r.state.ledger = present at hhead ⊢
  generalize r.ledgers = ledgers at hhead hlast hsteps hdistinct
  clear hpresent
  induction ledgers generalizing present with
  | nil => cases hhead
  | cons newest ledgers ih =>
    obtain rfl : newest = present := by simpa using hhead
    intro unit hunit hterminal
    cases ledgers with
    | nil =>
      obtain rfl : newest = s₀.ledger := by simpa using hlast
      rw [hstart unit hunit] at hterminal
      cases hterminal
    | cons previous ledgers =>
      obtain ⟨hstep, hrest⟩ := List.isChain_cons_cons.mp hsteps
      rw [List.getLast?_cons_cons] at hlast
      have hprevious := ih previous rfl hlast hrest
        (fun ledger hmem => hdistinct ledger (List.mem_cons_of_mem _ hmem))
      by_cases hold : unit.coverageId ∈ unitIds previous
      · obtain ⟨before, hbefore, hid⟩ := List.mem_map.mp hold
        obtain ⟨unit', hunit', hunitStep⟩ := hstep.kept before hbefore
        obtain rfl : unit' = unit := eq_of_coverageId (hdistinct newest List.mem_cons_self) hunit'
          hunit (hunitStep.keeps.coverageId.trans hid)
        rcases hunitStep.settled hterminal with ⟨hstatus, hagent⟩ | ⟨hunter, hby⟩
        · rw [hagent]
          exact hprevious before hbefore (hstatus ▸ hterminal)
        · obtain ⟨result, -, report, -, -, -, hagent⟩ := hby.answered
          simp [hagent]
      · rw [hstep.fresh unit hunit hold] at hterminal
        cases hterminal

/-- A run whose every item is linked when its validation begins stores from a linked state. -/
lemma runPhases_storable {recon : Recon} {schedule : Schedule}
    (hlinked : ∀ units, recon.units = some units →
      AllLinked (huntedState host input agents recon schedule units).state) :
    Storable (runPhases host input agents verifiers recon schedule) := by
  unfold runPhases
  cases hunits : recon.units with
  | none =>
    refine ⟨List.nodup_nil, ⟨?_, ?_⟩, ?_⟩
    · simp [Recon.state, initialState]
    · intro fingerprint record hget
      cases hget
    · intro fingerprint record hget
      cases hget
  | some units =>
    obtain ⟨hledger, -, hsuppressed, hfindings, -⟩ :=
      seedState_fields host input units recon.state
    have hends : Ends input agents (seedState host input units recon.state)
        (huntedState host input agents recon schedule units) :=
      runHunting_ends host input agents _ (hledger ▸ seeded_distinct units)
        (fun unit hunit => (seeded_status units (hledger ▸ hunit)).1)
    have hstart : FindingsLinked (huntedState host input agents recon schedule units).state := by
      refine ⟨fun unit hunit hstatus => ?_, fun fingerprint record hget => ?_⟩
      · exact hends.history.owner
          (fun unit hunit => (seeded_status units (hledger ▸ hunit)).2) unit hunit
          (by rw [hstatus]; rfl)
      · rw [hends.history.findings, hfindings] at hget
        cases hget
    have hvalidated := runCandidateValidation_linked host input verifiers
      schedule.candidates (hlinked units hunits) hstart
    have hverified := runRecordVerification_linked host input verifiers
      schedule.records hvalidated.linked
    refine ⟨?_, hverified.linked, ?_⟩
    · rw [hverified.ids, hvalidated.ids]
      exact hends.history.nodup
    · intro fingerprint record hget
      rw [hverified.suppressed, hvalidated.suppressed, hends.history.suppressed, hsuppressed]
        at hget
      exact plan_suppressed hget

/-! ### No open finding is lost -/

/-- What the next run's seeded ledger owes to the prior run's findings. -/
structure NothingLost (prior : PriorRun) (changed : List String → Bool) (s : EngineState) :
    Prop where
  kept : ∀ record ∈ prior.findings, record.verdict ≠ .rejected →
    (∃ c ∈ s.carried, c.record = record ∧
      ∃ unit ∈ s.ledger, unit.coverageId = c.coverageId ∧ unit.status = .planned) ∨
    ∃ old ∈ prior.ledger, record.fingerprint ∈ old.resultFingerprints ∧
      ∃ unit ∈ s.ledger, unit.coverageId = old.coverageId ∧
        ((unit.status = .planned ∧ (unit.priorStatus = .priorConfirmedChangedSource ∨
          unit.priorStatus = .priorNeedsValidation)) ∨ unit.status = .outOfScope)
  carriedIn : ∀ c ∈ s.carried, c.coverageId ∈ unitIds s.ledger
  suppressed : ∀ record ∈ prior.findings, record.verdict = .rejected →
    changed (recordFiles record).eraseDups = false →
    s.suppressed.get record.fingerprint = some record
  onlyOwn : ∀ fingerprint record, s.suppressed.get fingerprint = some record →
    record.fingerprint = fingerprint ∧ record ∈ prior.findings ∧ record.verdict = .rejected ∧
      changed (recordFiles record).eraseDups = false

/-- The admission check refuses no prior unit that lists an open finding. -/
def AdmitsOpen (host : Host) (input : AuditRunInput) (prior : PriorRun) : Prop :=
  ∀ unit ∈ prior.ledger, openRecords prior.findings unit ≠ [] →
    unit.coverageId ∈ unitIds (admitUnits host.toSkill [] input.priorUnits).ledger

/-- The run after `prior`. -/
def AuditRunInput.after (input : AuditRunInput) (prior : PriorRun) : AuditRunInput :=
  { input with prior := some prior }

/-- A prior unit that lists an open finding is in the next seeded ledger as it was planned. -/
lemma seeded_of_admitted {prior : PriorRun} (units : List SeedUnit)
    (hdistinct : (unitIds prior.ledger).Nodup) (hadmits : AdmitsOpen host (input.after prior) prior)
    {old : LedgerUnit} (hold : old ∈ prior.ledger) (hopen : openRecords prior.findings old ≠ []) :
    scopedUnit (planUnit prior.findings input.changedSincePrior old).1 input.scopePaths ∈
      (admittedSeeds host (input.after prior) units).ledger := by
  obtain ⟨unit, hunit, hid⟩ := List.mem_map.mp (hadmits old hold hopen)
  have hprior := admittedPrior_mem hunit
  obtain ⟨planned, hplanned, rfl⟩ := List.mem_map.mp hprior
  obtain ⟨other, hother, rfl⟩ := List.mem_map.mp hplanned
  rw [scopedUnit_coverageId, planUnit_coverageId] at hid
  obtain rfl : other = old := eq_of_coverageId hdistinct hother hold hid
  exact admittedPrior_subset units hunit

/-- The findings of a linked run are all in the next seeded ledger, if its admission check refuses
none of their units. -/
lemma nothingLost_of_storable {s : EngineState} (h : Storable s) {units : List SeedUnit}
    {s₂ : EngineState}
    (hadmits : AdmitsOpen host (input.after ⟨s.ledger, storedFindings host s⟩)
      ⟨s.ledger, storedFindings host s⟩) :
    NothingLost ⟨s.ledger, storedFindings host s⟩ input.changedSincePrior
      (seedState host (input.after ⟨s.ledger, storedFindings host s⟩) units s₂) := by
  set prior : PriorRun := ⟨s.ledger, storedFindings host s⟩ with hprior
  obtain ⟨hledger, hcarried, hsuppressed, -, -⟩ :=
    seedState_fields host (input.after prior) units s₂
  have hnodup := storedFindings_nodup host h
  refine ⟨fun record hrecord hopen => ?_, fun c hc => ?_, fun record hrecord hrejected hsame => ?_,
    fun fingerprint record hget => ?_⟩
  · obtain ⟨old, hold, hstatus, hlisted⟩ := stored_open_linked h hrecord hopen
    have hlinked : record ∈ openRecords prior.findings old :=
      List.mem_filter.mpr ⟨List.mem_filterMap.mpr ⟨record.fingerprint, hlisted,
        byFingerprint_of_mem hnodup hrecord⟩, by simpa using hopen⟩
    obtain ⟨hplanned, hwork⟩ := planUnit_open input.changedSincePrior (by simp [hstatus]) hlinked
    have hseeded := seeded_of_admitted units h.distinct hadmits hold
      (List.ne_nil_of_mem hlinked)
    have hid : (scopedUnit (planUnit prior.findings input.changedSincePrior old).1
        input.scopePaths).coverageId = old.coverageId := by
      rw [scopedUnit_coverageId, planUnit_coverageId]
    rw [← hledger] at hseeded
    rcases scopedUnit_cases (planUnit prior.findings input.changedSincePrior old).1
      input.scopePaths with hscope | ⟨-, hout⟩
    · have hstays : (scopedUnit (planUnit prior.findings input.changedSincePrior old).1
          input.scopePaths).status = .planned := by rw [hscope]; exact hplanned
      rcases hwork with hmem | hrevalidate
      · left
        refine ⟨⟨record, old.coverageId⟩, ?_, rfl, _, hseeded, hid, hstays⟩
        rw [hcarried]
        refine List.mem_filter.mpr ⟨List.mem_flatMap.mpr ⟨old, hold, hmem⟩, ?_⟩
        rw [decide_eq_true_iff, ← hid]
        refine List.mem_map_of_mem (List.mem_filter.mpr
          ⟨List.mem_map_of_mem (List.mem_map_of_mem hold), ?_⟩)
        have hin : (scopedUnit (planUnit prior.findings input.changedSincePrior old).1
            input.scopePaths).status ≠ .outOfScope := by simp [hstays]
        exact decide_eq_true hin
      · refine .inr ⟨old, hold, hlisted, _, hseeded, hid, .inl ⟨hstays, ?_⟩⟩
        rw [hscope]
        exact hrevalidate
    · exact .inr ⟨old, hold, hlisted, _, hseeded, hid, .inr hout⟩
  · rw [hcarried] at hc
    obtain ⟨old, hold, hmem⟩ := List.mem_flatMap.mp (List.mem_filter.mp hc).1
    obtain ⟨hid, hopen⟩ := planUnit_carried hmem
    have hseeded := seeded_of_admitted units h.distinct hadmits hold hopen
    rw [hledger, hid, ← planUnit_coverageId prior.findings input.changedSincePrior old,
      ← scopedUnit_coverageId _ input.scopePaths]
    exact mem_unitIds hseeded
  · rw [hsuppressed]
    refine byFingerprint_of_mem (hnodup.sublist (List.filter_sublist.map _)) ?_
    refine List.mem_filter.mpr ⟨hrecord, ?_⟩
    have hsame' : (input.after prior).changedSincePrior (recordFiles record).eraseDups = false := hsame
    simp [hrejected, hsame']
  · rw [hsuppressed] at hget
    obtain ⟨hkey, hmem⟩ := byFingerprint_get hget
    obtain ⟨hrecord, hfilter⟩ := List.mem_filter.mp hmem
    rw [decide_eq_true_iff, Bool.not_eq_true] at hfilter
    exact ⟨hkey, hrecord, hfilter.1, hfilter.2⟩

/-- In every run whose items are all linked when its validation begins, no open finding is lost to a
next run whose admission check refuses none of the units that list one. -/
theorem open_findings_survive (host : Host) (input : AuditRunInput) (agents : Agents)
    (verifiers : Verifiers) (recon : Recon) (schedule : Schedule) (second : AuditRunInput)
    (units : List SeedUnit) (s₂ : EngineState)
    (hlinked : ∀ units, recon.units = some units →
      AllLinked (huntedState host input agents recon schedule units).state)
    (hadmits : AdmitsOpen host (second.after (runAudit host input agents verifiers recon schedule))
      (runAudit host input agents verifiers recon schedule)) :
    NothingLost (runAudit host input agents verifiers recon schedule) second.changedSincePrior
      (seedState host (second.after (runAudit host input agents verifiers recon schedule))
        units s₂) :=
  nothingLost_of_storable (runPhases_storable hlinked) hadmits

/-! ### Two runs -/

def plainRecon : Recon :=
  { spent := 5, usedIds := ["synthesis-1"], halted := none, gaps := [], incomplete := []
    units := some [⟨plainSeed "login", some 1⟩] }

def plainVerifiers : Verifiers where
  candidate _ := .decoded (candidateRecord plainCandidate)
  record _ := .decoded (.verified "login-injection")

def plainSchedule : Schedule := ⟨fun _ => [], [], []⟩

/-- One wave whose hunter raises a candidate, and critics with nothing to add. -/
theorem open_findings_survive_plain :
    NothingLost (runAudit plainHost plainInput plainAgents plainVerifiers plainRecon plainSchedule)
      (fun _ => false)
      (seedState plainHost (plainInput.after
        (runAudit plainHost plainInput plainAgents plainVerifiers plainRecon plainSchedule))
        [] initialState) :=
  open_findings_survive plainHost plainInput plainAgents plainVerifiers plainRecon plainSchedule
    plainInput [] initialState
    (by
      intro units hunits
      obtain rfl := Option.some.inj hunits
      intro item hitem
      left
      revert item hitem
      unfold Links
      decide)
    (by unfold AdmitsOpen; decide)

/-- A critic reassigns the unit that lists the candidate, and its next hunter reports it covered. -/
def reassigningAgents : Agents where
  hunter id :=
    if id = "hunter-w1-1" then
      .decoded ⟨[plainReport id "login" .candidate ["login-injection"]], [plainCandidate], [], []⟩
    else .decoded ⟨[plainReport id "login" .covered []], [], [], []⟩
  critic id :=
    if id = "critic-w1-post" then .decoded ⟨[], [plainId "login"], []⟩ else .decoded ⟨[], [], []⟩

def reassignedRun : PriorRun :=
  runAudit plainHost plainInput reassigningAgents plainVerifiers plainRecon plainSchedule

theorem reassigned_finding_lost :
    ¬NothingLost reassignedRun (fun _ => false)
      (seedState plainHost (plainInput.after reassignedRun) [] initialState) := by
  intro h
  have hstored : candidateRecord plainCandidate ∈ reassignedRun.findings := by decide
  have hunlisted : ∀ unit ∈ reassignedRun.ledger, unit.resultFingerprints = [] := by
    decide
  have hcarried : (seedState plainHost (plainInput.after reassignedRun) [] initialState).carried =
      [] := by decide
  rcases h.kept _ hstored (by decide) with ⟨c, hc, -⟩ | ⟨old, hold, hlisted, -⟩
  · rw [hcarried] at hc
    cases hc
  · rw [hunlisted old hold] at hlisted
    cases hlisted

end Maple.Audit
