import Mathlib
import Maple.AuditHunt

/-! What one step of the hunting phase does to the ledger, the candidates and the accounts. -/

namespace Maple.Audit

variable (host : Host) (input : AuditRunInput) (agents : Agents)

/-! ### A hunter's result -/

/-- A recorded candidate proposes the fingerprint. -/
def Recorded (candidates : InsertMap String (List CandidateEntry)) (fingerprint : String) : Prop :=
  ∃ entries, candidates.get fingerprint = some entries ∧
    ∃ entry ∈ entries, entry.candidate.fingerprint = fingerprint

/-- What a hunter's return makes of one unit. -/
inductive HunterChange (s : EngineState) (owned : List String) (agentId : String)
    (result : Option HunterResult) (unit unit' : LedgerUnit) : Prop
  | reported (value : HunterResult) (report : HunterUnitResult) (hresult : result = some value)
      (hreport : report ∈ value.units) (hid : report.coverageId = unit.coverageId)
      (howned : unit.coverageId ∈ owned)
      (hunit : unit' = addHardening value.hardening (resultUnit report agentId unit))
      (hlisted : ∀ fingerprint ∈ report.candidateFingerprints,
        Recorded (applyHunterResult host owned agentId result s).candidates fingerprint ∨
          (s.suppressed.get fingerprint).isSome)
  | reverted (howned : unit.coverageId ∈ owned) (hunit : unit' = revertUnit maxUnitFailures unit)
  | untouched (howned : unit.coverageId ∉ owned) (hunit : unit' = unit)

lemma applyUnits_map (agentId : String) (ledger : Ledger) {units : List HunterUnitResult}
    (hdistinct : (units.map HunterUnitResult.coverageId).Nodup) :
    let applied := units.foldl (applyUnit host agentId) ⟨ledger, []⟩
    (∀ id ∈ applied.ok, id ∈ units.map HunterUnitResult.coverageId) ∧
      ∃ change, applied.ledger = ledger.map change ∧ ∀ unit,
        (unit.coverageId ∉ applied.ok → change unit = unit) ∧
          (unit.coverageId ∈ applied.ok → ∃ report ∈ units,
            report.coverageId = unit.coverageId ∧
              change unit = resultUnit report agentId unit) := by
  induction units using List.reverseRecOn with
  | nil => exact ⟨by simp, id, by simp, fun unit => ⟨fun _ => rfl, by simp⟩⟩
  | append_singleton units report ih =>
    rw [List.map_append, List.map_singleton, List.nodup_append] at hdistinct
    obtain ⟨hunits, -, hnew⟩ := hdistinct
    obtain ⟨hok, change, hledger, hchange⟩ := ih hunits
    dsimp only at hok hledger hchange ⊢
    rw [List.foldl_append, List.foldl_cons, List.foldl_nil]
    set applied := units.foldl (applyUnit host agentId) ⟨ledger, []⟩
    have hfresh : report.coverageId ∉ applied.ok := fun h =>
      hnew _ (hok _ h) _ (List.mem_singleton_self _) rfl
    unfold applyUnit
    dsimp only
    split_ifs with herrors
    · refine ⟨?_, fun unit =>
        if unit.coverageId = report.coverageId then resultUnit report agentId unit
        else change unit, ?_, fun unit => ⟨fun h => ?_, fun h => ?_⟩⟩
      · intro id hid
        rw [List.map_append, List.map_singleton]
        rcases List.mem_append.mp hid with h | h
        · exact List.mem_append_left _ (hok id h)
        · exact List.mem_append_right _ h
      · unfold applyUnitResult update
        rw [hledger, List.map_map]
        apply List.map_congr_left
        intro unit _
        by_cases hid : unit.coverageId = report.coverageId
        · have hsame : change unit = unit := (hchange unit).1 (hid ▸ hfresh)
          simp [hsame, hid]
        · have hkept : (change unit).coverageId = unit.coverageId := by
            by_cases hmem : unit.coverageId ∈ applied.ok
            · obtain ⟨other, -, -, h⟩ := (hchange unit).2 hmem
              rw [h]
              rfl
            · rw [(hchange unit).1 hmem]
          simp [hkept, hid]
      · rw [List.mem_append, List.mem_singleton, not_or] at h
        simpa only [if_neg h.2] using (hchange unit).1 h.1
      · by_cases hid : unit.coverageId = report.coverageId
        · exact ⟨report, by simp, hid.symm, by simp only [if_pos hid]⟩
        · rw [List.mem_append, List.mem_singleton] at h
          obtain ⟨other, hother, heq, hunit⟩ := (hchange unit).2 (h.resolve_right hid)
          exact ⟨other, List.mem_append_left _ hother, heq, by simp only [if_neg hid, hunit]⟩
    · refine ⟨fun id hid => ?_, change, hledger, fun unit => ⟨(hchange unit).1, fun h => ?_⟩⟩
      · rw [List.map_append]
        exact List.mem_append_left _ (hok id hid)
      · obtain ⟨other, hother, hrest⟩ := (hchange unit).2 h
        exact ⟨other, List.mem_append_left _ hother, hrest⟩

lemma recorded_addCandidate (agentId fingerprint : String) (candidate : Candidate)
    (candidates : InsertMap String (List CandidateEntry)) :
    Recorded (addCandidate agentId candidates candidate) fingerprint ↔
      Recorded candidates fingerprint ∨ fingerprint = candidate.fingerprint := by
  unfold Recorded addCandidate
  rw [InsertMap.get_set]
  by_cases h : fingerprint = candidate.fingerprint
  · simp [h]
  · simp [h]

/-- Recording the raised candidates loses none, and adds their fingerprints. -/
lemma recorded_foldl (agentId fingerprint : String) (raised : List Candidate)
    (candidates : InsertMap String (List CandidateEntry)) :
    Recorded (raised.foldl (addCandidate agentId) candidates) fingerprint ↔
      Recorded candidates fingerprint ∨ fingerprint ∈ raised.map Candidate.fingerprint := by
  induction raised generalizing candidates with
  | nil => simp
  | cons candidate raised ih =>
    rw [List.foldl_cons, ih, recorded_addCandidate, List.map_cons, List.mem_cons, or_assoc]

lemma isSome_of_isSuppressed {s : EngineState} {candidate : Candidate}
    (h : isSuppressed s candidate = true) :
    (s.suppressed.get candidate.fingerprint).isSome := by
  unfold isSuppressed at h
  cases hget : s.suppressed.get candidate.fingerprint with
  | none => simp [hget] at h
  | some prior => rfl

lemma addHardening_eq (hardening : List String) (unit : LedgerUnit) :
    ∃ notes, addHardening hardening unit = { unit with hardening := notes } := by
  unfold addHardening
  split_ifs
  · exact ⟨unit.hardening, rfl⟩
  · exact ⟨_, rfl⟩

lemma HunterChange.keeps {s : EngineState} {owned : List String} {agentId : String}
    {result : Option HunterResult} {unit unit' : LedgerUnit}
    (h : HunterChange host s owned agentId result unit unit') : Keeps unit unit' := by
  rcases h with ⟨value, report, -, -, -, -, hunit, -⟩ | ⟨-, hunit⟩ | ⟨-, hunit⟩
  · obtain ⟨notes, hnotes⟩ := addHardening_eq value.hardening (resultUnit report agentId unit)
    rw [hunit, hnotes]
    exact ⟨rfl, rfl, List.prefix_refl _⟩
  · rw [hunit]
    exact keeps_revertUnit _ _
  · rw [hunit]
    exact Keeps.refl unit

/-- A hunter's return spends nothing. -/
lemma applyHunterResult_accounts (owned : List String) (agentId : String)
    (result : Option HunterResult) (s : EngineState) :
    (applyHunterResult host owned agentId result s).spent = s.spent ∧
      (applyHunterResult host owned agentId result s).usedIds = s.usedIds := by
  unfold applyHunterResult
  cases result with
  | none => exact ⟨rfl, rfl⟩
  | some value =>
    dsimp only
    split_ifs
    · exact ⟨rfl, rfl⟩
    · exact ⟨rfl, rfl⟩

/-- Nor does it touch the carried records or the findings. -/
lemma applyHunterResult_carried (owned : List String) (agentId : String)
    (result : Option HunterResult) (s : EngineState) :
    (applyHunterResult host owned agentId result s).carried = s.carried ∧
      (applyHunterResult host owned agentId result s).findings = s.findings := by
  unfold applyHunterResult
  cases result with
  | none => exact ⟨rfl, rfl⟩
  | some value =>
    dsimp only
    split_ifs
    · exact ⟨rfl, rfl⟩
    · exact ⟨rfl, rfl⟩

/-- What a hunter's return does: each unit changes as above, the suppressed records stay, and no
candidate is lost. -/
lemma applyHunterResult_spec (owned : List String) (agentId : String)
    (result : Option HunterResult) (s : EngineState) :
    let s' := applyHunterResult host owned agentId result s
    (∃ change, s'.ledger = s.ledger.map change ∧
        ∀ unit, HunterChange host s owned agentId result unit (change unit)) ∧
      s'.suppressed = s.suppressed ∧
      ∀ fingerprint, Recorded s.candidates fingerprint → Recorded s'.candidates fingerprint := by
  have hrevert : ∀ unit, HunterChange host s owned agentId result unit
      (if unit.coverageId ∈ owned then revertUnit maxUnitFailures unit else unit) := by
    intro unit
    by_cases h : unit.coverageId ∈ owned
    · rw [if_pos h]
      exact .reverted h rfl
    · rw [if_neg h]
      exact .untouched h rfl
  rcases result with _ | value
  · exact ⟨⟨_, rfl, hrevert⟩, rfl, fun _ h => h⟩
  · by_cases hbad : (reportedIds value).length ≠ owned.dedup.length ∨
        ¬(∀ id ∈ reportedIds value, id ∈ owned) ∨ ¬(reportedIds value).Nodup
    · simp only [applyHunterResult, if_pos hbad]
      exact ⟨⟨_, rfl, by simpa only [applyHunterResult, if_pos hbad] using hrevert⟩, trivial,
        fun _ h => h⟩
    · have hreported : (∀ id ∈ reportedIds value, id ∈ owned) ∧ (reportedIds value).Nodup := by
        simp only [not_or, not_not] at hbad
        exact hbad.2
      have hsub : (goodUnits host s agentId value).Sublist value.units := List.filter_sublist
      obtain ⟨hok, change, hledger, hchange⟩ := applyUnits_map host agentId s.ledger
        (hreported.2.sublist (hsub.map _))
      simp only [applyHunterResult, if_neg hbad]
      set applied := (goodUnits host s agentId value).foldl (applyUnit host agentId) ⟨s.ledger, []⟩
        with happlied
      have howned : ∀ id ∈ applied.ok, id ∈ owned := fun id hid =>
        hreported.1 id ((hsub.map _).subset (hok id hid))
      refine ⟨?_, trivial, fun fingerprint h => (recorded_foldl _ _ _ _).mpr (.inl h)⟩
      simp only [hledger, revert, update, List.map_map]
      refine ⟨_, rfl, fun unit => ?_⟩
      by_cases hmem : unit.coverageId ∈ applied.ok
      · obtain ⟨report, hreport, hid, hunit⟩ := (hchange unit).2 hmem
        have hgood := List.mem_filter.mp hreport
        refine .reported value report rfl hgood.1 hid (howned _ hmem) ?_ ?_
        · have hkeep : (resultUnit report agentId unit).coverageId = unit.coverageId := rfl
          simp [hunit, hkeep, hmem]
        · intro fingerprint hfingerprint
          simp only [decide_eq_true_eq] at hgood
          simp only [applyHunterResult, if_neg hbad, ← happlied]
          rcases hgood.2.2.2 fingerprint hfingerprint with hvalid | hsuppressed
          · obtain ⟨candidate, hcandidate, rfl⟩ := List.mem_map.mp hvalid
            by_cases hs : isSuppressed s candidate = true
            · exact .inr (isSome_of_isSuppressed hs)
            · left
              rw [recorded_foldl]
              right
              refine List.mem_map_of_mem (List.mem_filter.mpr ⟨hcandidate, ?_⟩)
              rw [decide_eq_true_iff]
              exact ⟨List.mem_flatMap.mpr ⟨report, List.mem_filter.mpr
                ⟨hgood.1, by simp [hid, hmem]⟩, hfingerprint⟩, hs⟩
          · exact .inr hsuppressed
      · have hunit := (hchange unit).1 hmem
        by_cases hown : unit.coverageId ∈ owned
        · refine .reverted hown ?_
          have hkeep := (keeps_revertUnit maxUnitFailures unit).coverageId
          simp [hunit, hown, hmem, hkeep]
        · exact .untouched hown (by simp [hunit, hown, hmem])

/-! ### A critic's result -/

/-- What a critic makes of one unit: its live record stays, or the unit starts over. -/
structure CriticChange (unit unit' : LedgerUnit) : Prop where
  keeps : Keeps unit unit'
  live : (unit'.status = unit.status ∧ unit'.agentId = unit.agentId ∧
      unit'.resultFingerprints = unit.resultFingerprints) ∨
    (Cleared unit' ∧ unit'.status ≠ .inProgress)

lemma CriticChange.trans {u v w : LedgerUnit} (huv : CriticChange u v) (hvw : CriticChange v w) :
    CriticChange u w := by
  refine ⟨huv.keeps.trans hvw.keeps, ?_⟩
  rcases hvw.live with ⟨hstatus, hagent, hlisted⟩ | hcleared
  · rcases huv.live with ⟨hs, ha, hl⟩ | ⟨⟨hs, hl⟩, hprogress⟩
    · exact .inl ⟨hstatus.trans hs, hagent.trans ha, hlisted.trans hl⟩
    · exact .inr ⟨⟨hstatus ▸ hs, hlisted.trans hl⟩, hstatus ▸ hprogress⟩
  · exact .inr hcleared

lemma criticChange_reopenUnit (reason : String) (unit : LedgerUnit) :
    CriticChange unit (reopenUnit reason unit) := by
  rcases reopenUnit_cases reason unit with ⟨-, hkeeps, hstatus, hlisted⟩ | ⟨-, hsame⟩
  · exact ⟨hkeeps, .inr ⟨⟨.inl hstatus, hlisted⟩, by simp [hstatus]⟩⟩
  · rw [hsame]
    exact ⟨Keeps.refl unit, .inl ⟨rfl, rfl, rfl⟩⟩

lemma markLeads_eq (resolved : List String) (unit : LedgerUnit) :
    ∃ leads, markLeads resolved unit = { unit with resolvedPriorLeads := leads } := by
  unfold markLeads
  dsimp only
  split_ifs
  · exact ⟨unit.resolvedPriorLeads, rfl⟩
  · exact ⟨_, rfl⟩

lemma criticChange_markLeads (resolved : List String) (unit : LedgerUnit) :
    CriticChange unit (markLeads resolved unit) := by
  obtain ⟨leads, hleads⟩ := markLeads_eq resolved unit
  rw [hleads]
  exact ⟨⟨rfl, rfl, List.prefix_refl _⟩, .inl ⟨rfl, rfl, rfl⟩⟩

lemma criticChange_deferUnit (reason : String) (unit : LedgerUnit) :
    CriticChange unit (deferUnit reason unit) :=
  ⟨keeps_deferUnit reason unit, .inr ⟨cleared_deferUnit reason unit, by simp [deferUnit]⟩⟩

lemma find_of_mem {ledger : Ledger} (hdistinct : (unitIds ledger).Nodup) {unit : LedgerUnit}
    (hunit : unit ∈ ledger) :
    (ledger.find? fun other => other.coverageId == unit.coverageId) = some unit := by
  cases hfind : ledger.find? fun other => other.coverageId == unit.coverageId with
  | none => simpa using List.find?_eq_none.mp hfind unit hunit
  | some other =>
    have hid : other.coverageId = unit.coverageId := by simpa using List.find?_some hfind
    rw [eq_of_coverageId hdistinct (List.mem_of_find?_eq_some hfind) hunit hid]

/-- The unit as a critic marks it. -/
def markedUnit (agentId : String) (result : CriticResult) (ledger : Ledger) (unit : LedgerUnit) :
    LedgerUnit :=
  markLeads result.resolvedPriorLeads
    (if unit.coverageId ∈ reassigned result ledger then
      reopenUnit ("coverage critic " ++ agentId ++ " reassigned this unit") unit else unit)

lemma criticChange_markedUnit (agentId : String) (result : CriticResult) (ledger : Ledger)
    (unit : LedgerUnit) : CriticChange unit (markedUnit agentId result ledger unit) := by
  unfold markedUnit
  refine CriticChange.trans ?_ (criticChange_markLeads _ _)
  split_ifs
  · exact criticChange_reopenUnit _ unit
  · exact ⟨Keeps.refl unit, .inl ⟨rfl, rfl, rfl⟩⟩

lemma markLeads_status (resolved : List String) (unit : LedgerUnit) :
    (markLeads resolved unit).status = unit.status := by
  obtain ⟨leads, hleads⟩ := markLeads_eq resolved unit
  rw [hleads]

/-- Seeds a critic adds are new to the ledger, carry no record and have no live evidence. -/
lemma acceptedSeeds_spec {result : CriticResult} {ledger : Ledger} {unit : LedgerUnit}
    (h : unit ∈ acceptedSeeds host input result ledger) :
    unit.coverageId ∉ unitIds ledger ∧ (unit.status = .planned ∨ unit.status = .outOfScope) ∧
      unit.resultFingerprints = [] := by
  obtain ⟨hseed, hnew⟩ := List.mem_filter.mp h
  obtain ⟨missing, -, rfl⟩ := List.mem_map.mp hseed
  obtain ⟨hstatus, -, hlisted⟩ := seedUnit_spec host.toSkill missing.toUnitSeed input.scopePaths
    (if input.prior.isNone then .none else .new) none
  refine ⟨fun hmem => ?_, hstatus, hlisted⟩
  obtain ⟨other, hother, hid⟩ := List.mem_map.mp hmem
  simp only [List.any_eq_true, beq_iff_eq, not_exists, not_and, decide_eq_true_eq] at hnew
  exact hnew other hother hid

lemma markedLedger_spec (agentId : String) (result : CriticResult) (ledger : Ledger) :
    ∃ fresh,
      (admitUnits host.toSkill ledger (acceptedSeeds host input result ledger)).ledger.Perm
        (ledger ++ fresh) ∧
      (markedLedger host input agentId result ledger).Perm
        ((ledger ++ fresh).map (markedUnit agentId result ledger)) ∧
      fresh ⊆ acceptedSeeds host input result ledger ∧
      ((unitIds ledger).Nodup → (unitIds (ledger ++ fresh)).Nodup) := by
  obtain ⟨fresh, hperm, hsub, hnodup⟩ := admitUnits_spec host.toSkill ledger
    (acceptedSeeds host input result ledger)
  refine ⟨fresh, hperm, ?_, hsub, hnodup⟩
  unfold markedLedger reopen update
  rw [List.map_map]
  exact hperm.map _

/-- A unit that waits for a hunter after a critic waited before it, or is work it accepted. -/
lemma awaits_markedLedger {agentId : String} {result : CriticResult} {ledger : Ledger}
    (hdistinct : (unitIds ledger).Nodup) {unit : LedgerUnit}
    (hunit : unit ∈ markedLedger host input agentId result ledger) (hawaits : unit.awaitsHunter) :
    (∃ before ∈ ledger, before.awaitsHunter) ∨
      unit.coverageId ∈ acceptedIds host input agentId result ledger := by
  obtain ⟨fresh, hadmitted, hperm, hsub, hnodup⟩ :=
    markedLedger_spec host input agentId result ledger
  have hmarked : (unitIds (markedLedger host input agentId result ledger)).Nodup := by
    have hids : unitIds ((ledger ++ fresh).map (markedUnit agentId result ledger)) =
        unitIds (ledger ++ fresh) := unitIds_map fun u _ =>
      (criticChange_markedUnit agentId result ledger u).keeps.coverageId
    unfold unitIds at hids hnodup ⊢
    rw [(hperm.map _).nodup_iff, hids]
    exact hnodup hdistinct
  have haccepted : ∀ id, unit.coverageId = id →
      (id ∈ (((admitUnits host.toSkill ledger
        (acceptedSeeds host input result ledger)).ledger.filter fun unit =>
          ¬ledger.any fun existing => existing.coverageId == unit.coverageId).map
          LedgerUnit.coverageId ++ reassigned result ledger)) →
      id ∈ acceptedIds host input agentId result ledger := by
    rintro _ rfl hid
    unfold acceptedIds
    rw [List.mem_dedup, List.mem_filter]
    refine ⟨hid, ?_⟩
    rw [find_of_mem hmarked hunit]
    simp [hawaits.1]
  obtain ⟨before, hbefore, rfl⟩ := List.mem_map.mp (hperm.mem_iff.mp hunit)
  have hid := (criticChange_markedUnit agentId result ledger before).keeps.coverageId
  rcases List.mem_append.mp hbefore with hold | hnew
  · by_cases hre : before.coverageId ∈ reassigned result ledger
    · exact .inr (hid ▸ haccepted _ hid (List.mem_append_right _ hre))
    · refine .inl ⟨before, hold, ?_, ?_⟩
      · have hstatus := hawaits.1
        unfold markedUnit at hstatus
        rwa [if_neg hre, markLeads_status] at hstatus
      · exact (criticChange_markedUnit agentId result ledger before).keeps.carried ▸ hawaits.2
  · right
    rw [hid]
    refine haccepted _ hid (List.mem_append_left _ (List.mem_map_of_mem
      (List.mem_filter.mpr ⟨hadmitted.mem_iff.mpr (List.mem_append_right _ hnew), ?_⟩)))
    have hfresh := (acceptedSeeds_spec host input (hsub hnew)).1
    simp only [List.any_eq_true, beq_iff_eq, not_exists, not_and, decide_eq_true_eq]
    exact fun other hother heq => hfresh (heq ▸ mem_unitIds hother)

/-- A deferred unit waits for no hunter. -/
lemma not_awaits_defer {ledger : Ledger} {ids : List String} {reason : String}
    (h : ∀ unit ∈ ledger, unit.awaitsHunter → unit.coverageId ∈ ids) :
    ∀ unit ∈ defer ledger ids reason, ¬unit.awaitsHunter := by
  intro unit hunit hawaits
  obtain ⟨before, hbefore, rfl⟩ := List.mem_map.mp hunit
  split_ifs at hawaits with hmem
  · exact absurd hawaits.1 (by simp [deferUnit])
  · exact hmem (h before hbefore hawaits)

/-! ### Groups of units -/

lemma chunks_flatten {size : ℕ} (hsize : 0 < size) (group : List LedgerUnit) :
    (chunks size group).flatten = group := by
  have htake : ∀ n, ((List.range n).map fun i => (group.drop (i * size)).take size).flatten =
      group.take (n * size) := by
    intro n
    induction n with
    | zero => simp
    | succ n ih =>
      rw [List.range_succ, List.map_append, List.flatten_append, ih, Nat.succ_mul, List.take_add]
      simp
  unfold chunks
  rw [htake]
  apply List.take_of_length_le
  have hdiv := Nat.div_add_mod (group.length + size - 1) size
  have hmod := Nat.mod_lt (group.length + size - 1) hsize
  rw [Nat.mul_comm]
  omega

/-- Every unit of a wave is in one group. -/
lemma groupUnits_flatten (units : List LedgerUnit) (size : ℕ+) :
    (groupUnits units size).flatten.Perm units := by
  unfold groupUnits
  have hgroups : ∀ groups : List (List LedgerUnit),
      (groups.flatMap (chunks size)).flatten = groups.flatten := by
    intro groups
    induction groups with
    | nil => rfl
    | cons group groups ih =>
      rw [List.flatMap_cons, List.flatten_append, chunks_flatten size.pos, ih, List.flatten_cons]
  rw [hgroups]
  exact InsertMap.groupAll_flatten groupKey units

end Maple.Audit
