import Mathlib
import Maple.AuditHuntSound

/-! Waves of concurrent hunters, and the hunting phase to its end. -/

namespace Maple.Audit

variable {host : Host} {input : AuditRunInput} {agents : Agents} {s₀ : EngineState}

def HunterPhase.isRunning : HunterPhase → Bool
  | .running => true
  | _ => false

def HunterPhase.isFinished : HunterPhase → Bool
  | .finished => true
  | _ => false

/-- How many moves a hunter has before it at most. -/
def HunterPhase.rank : HunterPhase → ℕ
  | .waiting => 4
  | .running => 3
  | .failing _ => 2
  | .returning _ => 1
  | .finished => 0

def runningIds (hunters : List Hunter) : List String :=
  (hunters.filter fun hunter => hunter.phase.isRunning).map Hunter.agentId

/-- What holds while the hunters of a wave are out, in any order of theirs. -/
structure WaveInv (input : AuditRunInput) (agents : Agents) (s₀ : EngineState)
    (hunters : List Hunter) (r : Run) : Prop where
  accounts : Accounts input s₀ (r.launched ++ runningIds hunters) r.state
  history : History agents s₀ r
  disjoint : hunters.Pairwise fun a b => a.owned.Disjoint b.owned
  assigned : ∀ hunter ∈ hunters, hunter.phase.isFinished = false → ∀ unit ∈ r.state.ledger,
    unit.coverageId ∈ hunter.owned →
      unit.status = .inProgress ∧ unit.agentId = some hunter.agentId
  owners : ∀ unit ∈ r.state.ledger, unit.status = .inProgress →
    ∃ hunter ∈ hunters, hunter.phase.isFinished = false ∧ unit.coverageId ∈ hunter.owned
  answers : ∀ hunter ∈ hunters, ∀ value, hunter.phase = .returning (some value) →
    agents.hunter hunter.agentId = .decoded value ∧ hunter.agentId ∈ r.launched

lemma WaveInv.perm {hunters hunters' : List Hunter} {r : Run} (hperm : hunters.Perm hunters')
    (h : WaveInv input agents s₀ hunters r) : WaveInv input agents s₀ hunters' r where
  accounts := h.accounts.perm (((hperm.filter _).map _).append_left _)
  history := h.history
  disjoint := (hperm.pairwise_iff fun hdisjoint => List.Disjoint.symm hdisjoint).mp h.disjoint
  assigned hunter hmem := h.assigned hunter (hperm.mem_iff.mpr hmem)
  owners unit hunit hprogress := by
    obtain ⟨hunter, hmem, hrest⟩ := h.owners unit hunit hprogress
    exact ⟨hunter, hperm.mem_iff.mp hmem, hrest⟩
  answers hunter hmem := h.answers hunter (hperm.mem_iff.mpr hmem)

/-- A hunter that moves without touching the ledger. -/
lemma WaveInv.move {hunter : Hunter} {rest : List Hunter} {r r' : Run} {phase : HunterPhase}
    (h : WaveInv input agents s₀ (hunter :: rest) r) (hsame : SameLedger r.state r'.state)
    (hledgers : r'.ledgers = r.ledgers) (hlaunched : r.launched ⊆ r'.launched)
    (haccounts : Accounts input s₀
      (r'.launched ++ runningIds ({ hunter with phase := phase } :: rest)) r'.state)
    (hbefore : hunter.phase.isFinished = false) (hafter : phase.isFinished = false)
    (hanswer : ∀ value, phase = .returning (some value) →
      agents.hunter hunter.agentId = .decoded value ∧ hunter.agentId ∈ r'.launched) :
    WaveInv input agents s₀ ({ hunter with phase := phase } :: rest) r' where
  accounts := haccounts
  history := h.history.same hsame hledgers hlaunched
  disjoint := by
    rw [List.pairwise_cons]
    exact List.pairwise_cons.mp h.disjoint
  assigned other hmem hunfinished unit hunit hid := by
    rw [hsame.ledger] at hunit
    rcases List.mem_cons.mp hmem with rfl | hmem
    · exact h.assigned hunter List.mem_cons_self hbefore unit hunit hid
    · exact h.assigned other (List.mem_cons_of_mem _ hmem) hunfinished unit hunit hid
  owners unit hunit hprogress := by
    rw [hsame.ledger] at hunit
    obtain ⟨other, hmem, hunfinished, hid⟩ := h.owners unit hunit hprogress
    rcases List.mem_cons.mp hmem with rfl | hmem
    · exact ⟨_, List.mem_cons_self, hafter, hid⟩
    · exact ⟨other, List.mem_cons_of_mem _ hmem, hunfinished, hid⟩
  answers other hmem value hvalue := by
    rcases List.mem_cons.mp hmem with rfl | hmem
    · exact hanswer value hvalue
    · obtain ⟨hdecoded, hin⟩ := h.answers other (List.mem_cons_of_mem _ hmem) value hvalue
      exact ⟨hdecoded, hlaunched hin⟩

lemma resultUnit_listed {report : HunterUnitResult} {agentId fingerprint : String}
    {unit : LedgerUnit} (h : fingerprint ∈ (resultUnit report agentId unit).resultFingerprints) :
    fingerprint ∈ report.candidateFingerprints := by
  simp only [resultUnit] at h
  split_ifs at h
  · exact h
  · cases h

/-- A hunter that returns settles or reverts the units it owns, and no other. -/
lemma WaveInv.finish {hunter : Hunter} {rest : List Hunter} {r : Run}
    {result : Option HunterResult} (hphase : hunter.phase = .returning result)
    (h : WaveInv input agents s₀ (hunter :: rest) r) :
    WaveInv input agents s₀ ({ hunter with phase := .finished } :: rest)
      (r.mutate (applyHunterResult host hunter.owned hunter.agentId result)) := by
  obtain ⟨⟨change, hledger, hchange⟩, hsuppressed, hcandidates⟩ :=
    applyHunterResult_spec host hunter.owned hunter.agentId result r.state
  have hcarried := applyHunterResult_carried host hunter.owned hunter.agentId result r.state
  have hunfinished : hunter.phase.isFinished = false := by rw [hphase]; rfl
  have hown := h.assigned hunter List.mem_cons_self hunfinished
  have hdisjoint := (List.pairwise_cons.mp h.disjoint).1
  refine ⟨?_, ?_, ?_, ?_, ?_, ?_⟩
  · have hrunning : runningIds ({ hunter with phase := .finished } :: rest) =
        runningIds (hunter :: rest) := by
      simp [runningIds, hphase, HunterPhase.isRunning]
    rw [hrunning]
    have haccounts := applyHunterResult_accounts host hunter.owned hunter.agentId result r.state
    exact h.accounts.congr haccounts.1 haccounts.2
  · refine h.history.mutate change [] ?_ hsuppressed hcarried.1
      hcarried.2 hcandidates ?_ (by simp) ?_ ?_
    · rw [hledger, List.append_nil]
    · rw [List.append_nil]
      exact h.history.nodup
    · intro unit hunit
      rcases hchange unit with ⟨value, report, hresult, hreport, hid, howned, heq, -⟩ |
        ⟨howned, heq⟩ | ⟨-, heq⟩
      · obtain ⟨hdecoded, hin⟩ := h.answers hunter List.mem_cons_self value (hresult ▸ hphase)
        obtain ⟨notes, hnotes⟩ :=
          addHardening_eq value.hardening (resultUnit report hunter.agentId unit)
        rw [heq, hnotes]
        exact ⟨⟨rfl, rfl, List.prefix_refl _⟩, fun _ => .inr ⟨hunter.agentId,
          hown unit hunit howned, hin, value, hdecoded, report, hreport, hid, rfl, rfl⟩⟩
      · rw [heq]
        exact unitStep_cleared (keeps_revertUnit _ _) (cleared_revertUnit _ _)
      · rw [heq]
        exact unitStep_refl unit
    · intro unit hunit fingerprint hfingerprint
      rcases hchange unit with ⟨value, report, hresult, hreport, hid, howned, heq, hlisted⟩ |
        ⟨howned, heq⟩ | ⟨-, heq⟩
      · obtain ⟨notes, hnotes⟩ :=
          addHardening_eq value.hardening (resultUnit report hunter.agentId unit)
        have hreported : fingerprint ∈
            (resultUnit report hunter.agentId unit).resultFingerprints := by
          rwa [heq, hnotes] at hfingerprint
        rcases hlisted fingerprint (resultUnit_listed hreported) with hsome | hsome
        · exact .inl hsome
        · exact .inr (.inl (hsuppressed ▸ hsome))
      · rw [heq, (cleared_revertUnit _ _).listed] at hfingerprint
        cases hfingerprint
      · rw [heq] at hfingerprint ⊢
        exact linked_grows hsuppressed (hcandidates fingerprint)
          (h.history.listed _ h.history.mem unit hunit fingerprint hfingerprint)
  · rw [List.pairwise_cons]
    exact List.pairwise_cons.mp h.disjoint
  · intro other hmem hother unit' hunit' hid
    rcases List.mem_cons.mp hmem with rfl | hmem
    · cases hother
    · rw [Run.mutate, hledger] at hunit'
      obtain ⟨unit, hunit, rfl⟩ := List.mem_map.mp hunit'
      have hkeep := (hchange unit).keeps.coverageId
      rcases hchange unit with ⟨value, report, -, -, -, howned, -, -⟩ | ⟨howned, -⟩ | ⟨-, heq⟩
      · exact absurd (hkeep ▸ hid) (hdisjoint other hmem howned)
      · exact absurd (hkeep ▸ hid) (hdisjoint other hmem howned)
      · rw [heq] at hid ⊢
        exact h.assigned other (List.mem_cons_of_mem _ hmem) hother unit hunit hid
  · intro unit' hunit' hprogress
    rw [Run.mutate, hledger] at hunit'
    obtain ⟨unit, hunit, rfl⟩ := List.mem_map.mp hunit'
    rcases hchange unit with ⟨value, report, -, -, -, -, heq, -⟩ | ⟨-, heq⟩ | ⟨howned, heq⟩
    · obtain ⟨notes, hnotes⟩ :=
        addHardening_eq value.hardening (resultUnit report hunter.agentId unit)
      rw [heq, hnotes] at hprogress
      cases hd : report.disposition <;> simp [resultUnit, hd, Disposition.status] at hprogress
    · rcases revertUnit_status maxUnitFailures unit with hs | hs
      · simp [heq, hs] at hprogress
      · simp [heq, hs] at hprogress
    · rw [heq] at hprogress ⊢
      obtain ⟨other, hmem, hother, hid⟩ := h.owners unit hunit hprogress
      rcases List.mem_cons.mp hmem with rfl | hmem
      · exact absurd hid howned
      · exact ⟨other, List.mem_cons_of_mem _ hmem, hother, hid⟩
  · intro other hmem value hvalue
    rcases List.mem_cons.mp hmem with rfl | hmem
    · cases hvalue
    · exact h.answers other (List.mem_cons_of_mem _ hmem) value hvalue

/-- Whatever a hunter does next, the wave's invariant stays. -/
lemma WaveInv.step {hunter : Hunter} {rest : List Hunter} {r : Run}
    (h : WaveInv input agents s₀ (hunter :: rest) r) :
    WaveInv input agents s₀ ((stepHunter host input agents hunter r).1 :: rest)
      (stepHunter host input agents hunter r).2 := by
  have haccounts := h.accounts
  unfold stepHunter
  cases hphase : hunter.phase with
  | waiting =>
    have hunfinished : hunter.phase.isFinished = false := by rw [hphase]; rfl
    have hrunning : runningIds (hunter :: rest) = runningIds rest := by
      simp [runningIds, hphase, HunterPhase.isRunning]
    rw [hrunning] at haccounts
    dsimp only
    rcases reserve_cases input hunter.agentId r.state with
      ⟨why, hwhy, heq⟩ | ⟨hid, hroom, heq⟩
    · rw [heq]
      cases why with
      | ok => exact absurd rfl hwhy
      | budget | duplicate | halted =>
        exact h.move (SameLedger.refl _) rfl (List.Subset.refl _)
          (by simpa [runningIds, HunterPhase.isRunning] using haccounts) hunfinished rfl (by simp)
    · rw [heq]
      refine h.move ⟨rfl, rfl, rfl, rfl, rfl⟩ rfl (List.Subset.refl _) ?_ hunfinished rfl (by simp)
      exact (haccounts.reserve hid hroom).perm List.perm_middle.symm
  | running =>
    have hunfinished : hunter.phase.isFinished = false := by rw [hphase]; rfl
    have hrunning : runningIds (hunter :: rest) = hunter.agentId :: runningIds rest := by
      simp [runningIds, hphase, HunterPhase.isRunning]
    rw [hrunning] at haccounts
    have hreserved := haccounts.perm List.perm_middle
    dsimp only
    cases hanswer : agents.hunter hunter.agentId with
    | refused reason =>
      exact h.move ⟨rfl, rfl, rfl, rfl, rfl⟩ rfl (List.Subset.refl _) hreserved.giveBack hunfinished rfl
        (by simp)
    | failed =>
      exact h.move (SameLedger.refl _) rfl (List.subset_cons_self _ _) hreserved hunfinished rfl
        (by simp)
    | discarded issuePaths =>
      exact h.move (SameLedger.refl _) rfl (List.subset_cons_self _ _) hreserved hunfinished rfl
        (by simp)
    | decoded value =>
      refine h.move (SameLedger.refl _) rfl (List.subset_cons_self _ _) hreserved hunfinished rfl ?_
      intro value' hvalue
      obtain rfl : value = value' := by simpa using hvalue
      exact ⟨hanswer, List.mem_cons_self⟩
  | failing reason =>
    have hunfinished : hunter.phase.isFinished = false := by rw [hphase]; rfl
    have hrunning : runningIds (hunter :: rest) = runningIds rest := by
      simp [runningIds, hphase, HunterPhase.isRunning]
    rw [hrunning] at haccounts
    exact h.move (sameLedger_fail reason r.state) rfl (List.Subset.refl _)
      (accounts_fail reason haccounts) hunfinished rfl (by simp)
  | returning result => exact h.finish hphase
  | finished => exact h

lemma stepHunter_rank (hunter : Hunter) (r : Run) :
    (stepHunter host input agents hunter r).1.phase.rank ≤ hunter.phase.rank - 1 := by
  unfold stepHunter
  cases hphase : hunter.phase with
  | waiting =>
    rcases reserve_cases input hunter.agentId r.state with
      ⟨why, hwhy, heq⟩ | ⟨-, -, heq⟩
    · rw [heq]
      cases why with
      | ok => exact absurd rfl hwhy
      | budget | duplicate | halted => simp [HunterPhase.rank]
    · rw [heq]
      simp [HunterPhase.rank]
  | running =>
    cases agents.hunter hunter.agentId with
    | refused | failed | discarded | decoded => simp [HunterPhase.rank]
  | failing => simp [HunterPhase.rank]
  | returning => simp [HunterPhase.rank]
  | finished => simp [hphase, HunterPhase.rank]

lemma HunterPhase.rank_le (phase : HunterPhase) : phase.rank ≤ 4 := by
  cases phase with
  | waiting | running | failing | returning | finished => simp [HunterPhase.rank]

/-- When a wave has run, every hunter of it has finished, so none of its units is in progress. -/
lemma runWave_between {hunters : List Hunter} {r : Run} (schedule : List ℕ)
    (h : WaveInv input agents s₀ hunters r) :
    Between input agents s₀ (runWave host input agents schedule hunters r) := by
  obtain ⟨hunters', hinv, hzero⟩ := TaskPool.runPool_inv
    (stepHunter host input agents) (WaveInv input agents s₀)
    (fun hunter => hunter.phase.rank) (fun _ _ _ hperm h => h.perm hperm)
    (fun _ _ _ h => h.step) stepHunter_rank 4 schedule (fun hunter _ => hunter.phase.rank_le) h
  have hfinished : ∀ hunter ∈ hunters', hunter.phase = .finished := by
    intro hunter hmem
    have hrank := hzero hunter hmem
    cases hphase : hunter.phase with
    | finished => rfl
    | waiting | running | failing | returning => simp [hphase, HunterPhase.rank] at hrank
  have hrunning : runningIds hunters' = [] := by
    unfold runningIds
    rw [List.map_eq_nil_iff, List.filter_eq_nil_iff]
    intro hunter hmem
    rw [hfinished hunter hmem]
    simp [HunterPhase.isRunning]
  refine ⟨?_, hinv.history, fun unit hunit hprogress => ?_⟩
  · have haccounts := hinv.accounts
    rwa [hrunning, List.append_nil] at haccounts
  · obtain ⟨hunter, hmem, hunfinished, -⟩ := hinv.owners unit hunit hprogress
    rw [hfinished hunter hmem] at hunfinished
    cases hunfinished

/-! ### Launching a wave -/

/-- Assigning the groups of a wave puts each of their units in progress under its hunter. -/
lemma assignAll_spec {hunters : List Hunter}
    (hdisjoint : hunters.Pairwise fun a b => a.owned.Disjoint b.owned) (ledger : Ledger) :
    ∃ change, hunters.foldl (fun ledger hunter => assign ledger hunter.owned hunter.agentId)
        ledger = ledger.map change ∧
      ∀ unit, (change unit = unit ∧ ∀ hunter ∈ hunters, unit.coverageId ∉ hunter.owned) ∨
        ∃ hunter ∈ hunters, unit.coverageId ∈ hunter.owned ∧
          change unit = assignUnit hunter.agentId unit := by
  induction hunters generalizing ledger with
  | nil => exact ⟨id, by simp, fun unit => .inl ⟨rfl, by simp⟩⟩
  | cons hunter hunters ih =>
    obtain ⟨hhead, htail⟩ := List.pairwise_cons.mp hdisjoint
    obtain ⟨change, hledger, hchange⟩ := ih htail (assign ledger hunter.owned hunter.agentId)
    refine ⟨fun unit => change (if unit.coverageId ∈ hunter.owned then
      assignUnit hunter.agentId unit else unit), ?_, fun unit => ?_⟩
    · rw [List.foldl_cons, hledger, assign, update, List.map_map]
      rfl
    · by_cases hmem : unit.coverageId ∈ hunter.owned
      · right
        refine ⟨hunter, List.mem_cons_self, hmem, ?_⟩
        dsimp only
        rw [if_pos hmem]
        rcases hchange (assignUnit hunter.agentId unit) with ⟨hsame, -⟩ | ⟨other, hother, hid, -⟩
        · exact hsame
        · exact absurd hid (hhead other hother hmem)
      · simp only [if_neg hmem]
        rcases hchange unit with ⟨hsame, hnone⟩ | ⟨other, hother, hid, heq⟩
        · exact .inl ⟨hsame, List.forall_mem_cons.mpr ⟨hmem, hnone⟩⟩
        · exact .inr ⟨other, List.mem_cons_of_mem _ hother, hid, heq⟩

lemma waveHunters_owned (wave : ℕ) (launch : List (List LedgerUnit)) :
    (waveHunters wave launch).map Hunter.owned = launch.map unitIds := by
  unfold waveHunters
  refine List.ext_getElem (by simp) fun i hi hi' => ?_
  simp

lemma waveHunters_waiting {wave : ℕ} {launch : List (List LedgerUnit)} {hunter : Hunter}
    (h : hunter ∈ waveHunters wave launch) : hunter.phase = .waiting := by
  obtain ⟨i, hi, rfl⟩ := List.mem_mapIdx.mp h
  rfl

/-- The groups launched share no unit. -/
lemma waveHunters_disjoint {ledger : Ledger} (hdistinct : (unitIds ledger).Nodup) (wave n : ℕ)
    (size : ℕ+) :
    (waveHunters wave ((groupUnits (huntable ledger) size).take n)).Pairwise
      fun a b => a.owned.Disjoint b.owned := by
  have hhuntable : (unitIds (huntable ledger)).Nodup := by
    have hsorted := List.perm_insertionSort
      (fun a b => rank a < rank b ∨ rank a = rank b ∧ ¬jsLt b.coverageId a.coverageId)
      (ledger.filter fun unit => unit.awaitsHunter)
    refine ((hsorted.map LedgerUnit.coverageId).nodup_iff).mpr ?_
    exact hdistinct.sublist (List.filter_sublist.map _)
  have hgroups : ((groupUnits (huntable ledger) size).map unitIds).flatten.Nodup := by
    have hperm := (groupUnits_flatten (huntable ledger) size).map LedgerUnit.coverageId
    rw [List.map_flatten] at hperm
    exact hperm.nodup_iff.mpr hhuntable
  have hpairwise := (List.nodup_flatten.mp hgroups).2
  rw [← List.pairwise_map (f := Hunter.owned), waveHunters_owned]
  exact hpairwise.sublist ((List.take_sublist _ _).map _)

/-- A wave begins with its units assigned and every hunter still waiting. -/
lemma assign_waveInv {hunters : List Hunter} {r : Run}
    (hdisjoint : hunters.Pairwise fun a b => a.owned.Disjoint b.owned)
    (hwaiting : ∀ hunter ∈ hunters, hunter.phase = .waiting) (h : Between input agents s₀ r) :
    WaveInv input agents s₀ hunters (r.mutate fun s => { s with
      ledger := hunters.foldl (fun ledger hunter => assign ledger hunter.owned hunter.agentId)
        s.ledger }) := by
  obtain ⟨change, hledger, hchange⟩ := assignAll_spec hdisjoint r.state.ledger
  have hunfinished : ∀ hunter ∈ hunters, hunter.phase.isFinished = false := by
    intro hunter hmem
    rw [hwaiting hunter hmem]
    rfl
  have hrunning : runningIds hunters = [] := by
    unfold runningIds
    rw [List.map_eq_nil_iff, List.filter_eq_nil_iff]
    intro hunter hmem
    rw [hwaiting hunter hmem]
    simp [HunterPhase.isRunning]
  refine ⟨?_, h.history.clear change hledger rfl rfl rfl rfl fun unit => ?_, hdisjoint, ?_, ?_, ?_⟩
  · rw [hrunning, List.append_nil]
    exact h.accounts.congr rfl rfl
  · rcases hchange unit with ⟨hsame, -⟩ | ⟨hunter, -, -, heq⟩
    · rw [hsame]
      exact ⟨Keeps.refl unit, .inl rfl⟩
    · rw [heq]
      exact ⟨keeps_assignUnit _ unit, .inr (cleared_assignUnit _ unit)⟩
  · intro hunter hmem _ unit' hunit' hid
    simp only [Run.mutate, hledger] at hunit'
    obtain ⟨unit, hunit, rfl⟩ := List.mem_map.mp hunit'
    rcases hchange unit with ⟨hsame, hnone⟩ | ⟨other, hother, hid', heq⟩
    · exact absurd (hsame ▸ hid) (hnone hunter hmem)
    · rw [heq] at hid ⊢
      by_cases hne : other = hunter
      · exact ⟨rfl, by rw [← hne]; rfl⟩
      · have hsymm : Std.Symm fun a b : Hunter => a.owned.Disjoint b.owned :=
          ⟨fun _ _ hd => List.Disjoint.symm hd⟩
        have hapart := hdisjoint.forall hother hmem hne
        exact absurd hid (hapart hid')
  · intro unit' hunit' hprogress
    simp only [Run.mutate, hledger] at hunit'
    obtain ⟨unit, hunit, rfl⟩ := List.mem_map.mp hunit'
    rcases hchange unit with ⟨hsame, -⟩ | ⟨hunter, hmem, hid, heq⟩
    · rw [hsame] at hprogress
      exact absurd hprogress (h.idle unit hunit)
    · rw [heq]
      exact ⟨hunter, hmem, hunfinished hunter hmem, hid⟩
  · intro hunter hmem value hvalue
    rw [hwaiting hunter hmem] at hvalue
    cases hvalue

/-- Deferring units by their ids. -/
lemma Between.defer {r : Run} (ids : List String) (reason : String)
    (h : Between input agents s₀ r) :
    Between input agents s₀
      (r.mutate fun s => { s with ledger := defer s.ledger ids reason }) := by
  refine ⟨h.accounts.congr rfl rfl, h.history.clear (fun unit =>
    if unit.coverageId ∈ ids then deferUnit reason unit else unit) rfl rfl rfl rfl rfl
    fun unit => ?_,
    fun unit' hunit' => ?_⟩
  · split_ifs
    · exact ⟨keeps_deferUnit _ unit, .inr (cleared_deferUnit _ unit)⟩
    · exact ⟨Keeps.refl unit, .inl rfl⟩
  · obtain ⟨unit, hunit, rfl⟩ := List.mem_map.mp hunit'
    split_ifs
    · simp [deferUnit]
    · exact h.idle unit hunit

lemma deferQueued_between {r : Run} (reason : String) (h : Between input agents s₀ r) :
    Between input agents s₀ (deferQueued reason r) ∧
      huntable (deferQueued reason r).state.ledger = [] := by
  unfold deferQueued
  dsimp only
  split_ifs with hnone
  · exact ⟨h, List.map_eq_nil_iff.mp hnone⟩
  · refine ⟨(h.defer _ reason).gap reason, ?_⟩
    rw [Run.update, (sameLedger_gap _ _).ledger, huntable_eq_nil]
    exact not_awaits_defer fun unit hunit hawaits =>
      mem_unitIds (mem_huntable.mpr ⟨hunit, hawaits⟩)

lemma recordGap_between {r : Run} (wave : ℕ) (reason : String) (finalSpent : Bool)
    (h : Between input agents s₀ r) :
    Ends input agents s₀ (recordGap host input agents wave reason finalSpent r) := by
  obtain ⟨hqueued, hdrained⟩ := deferQueued_between reason h
  unfold recordGap
  dsimp only
  split_ifs
  · exact ⟨hqueued, fun _ => hdrained⟩
  · obtain ⟨hcritic, hempty⟩ :=
      runCritic_between host .gap wave (some reason) hqueued
    exact ⟨hcritic, fun _ => hempty _ rfl (.inl rfl) hdrained⟩
  · exact ⟨hqueued, fun _ => hdrained⟩

lemma launchWave_between {r r' : Run} {schedule : List ℕ} {wave : ℕ}
    (h : Between input agents s₀ r)
    (hlaunch : launchWave host input agents schedule wave r = some r') :
    Between input agents s₀ r' := by
  unfold launchWave at hlaunch
  dsimp only at hlaunch
  split_ifs at hlaunch with hfunded hnone
  · obtain rfl := Option.some.inj hlaunch
    exact runWave_between schedule (assign_waveInv
      (waveHunters_disjoint h.history.nodup _ _ _) (fun _ hmem => waveHunters_waiting hmem) h)
  · obtain rfl := Option.some.inj hlaunch
    exact runWave_between schedule (assign_waveInv
      (waveHunters_disjoint h.history.nodup _ _ _) (fun _ hmem => waveHunters_waiting hmem)
      ((h.defer _ budgetDefer).gap budgetDefer))

/-! ### The phase -/

variable {more : Option (Run → Run)}

lemma finalCritic_ends {r : Run} {wave : ℕ} (hmore : ∀ next ∈ more, ∀ r,
      Between input agents s₀ r → Ends input agents s₀ (next r))
    (h : Between input agents s₀ r) (hdrained : huntable r.state.ledger = []) :
    Ends input agents s₀ (finalCritic host input agents wave more r) := by
  obtain ⟨hcritic, hempty⟩ := runCritic_between host .finalClean wave none h
  unfold finalCritic
  dsimp only
  cases hclean : (runCritic host input agents .finalClean wave none r).1 with
  | none =>
    exact ⟨hcritic.fail _, fun hcomplete => absurd hcomplete (fail_incomplete _ _)⟩
  | some accepted =>
    cases accepted with
    | zero =>
      have hidle := hempty _ hclean (.inr rfl) hdrained
      exact ⟨hcritic.update ⟨rfl, rfl, rfl, rfl, rfl⟩ (hcritic.accounts.congr rfl rfl), fun _ => hidle⟩
    | succ accepted =>
      cases hnext : more with
      | none => exact recordGap_between wave _ true hcritic
      | some next => exact hmore next hnext _ hcritic

lemma postWave_ends {r : Run} {wave : ℕ} (hmore : ∀ next ∈ more, ∀ r,
      Between input agents s₀ r → Ends input agents s₀ (next r))
    (h : Between input agents s₀ r) :
    Ends input agents s₀ (postWave host input agents wave more r) := by
  obtain ⟨hcritic, -⟩ := runCritic_between host .postWave wave
    (if input.quick then some "quick_profile_final_critic" else none) h
  unfold postWave
  dsimp only
  set critic := runCritic host input agents .postWave wave
    (if input.quick then some "quick_profile_final_critic" else none) r
  cases hanswer : critic.1 with
  | none =>
    exact ⟨hcritic.fail _, fun hcomplete => absurd hcomplete (fail_incomplete _ _)⟩
  | some accepted =>
    dsimp only
    split_ifs with hquick hwork
    · obtain ⟨hqueued, hdrained⟩ := deferQueued_between "quick_profile_final_critic" hcritic
      refine ⟨hqueued.gap _, fun _ => ?_⟩
      rw [Run.update, (sameLedger_gap _ _).ledger]
      exact hdrained
    · cases hnext : more with
      | none => exact recordGap_between wave _ false hcritic
      | some next => exact hmore next hnext _ hcritic
    · rw [not_or, not_not] at hwork
      exact finalCritic_ends hmore hcritic hwork.2

lemma huntWave_ends {r : Run} {schedule : List ℕ} {number : ℕ} (hmore : ∀ next ∈ more, ∀ r,
      Between input agents s₀ r → Ends input agents s₀ (next r))
    (h : Between input agents s₀ r) :
    Ends input agents s₀ (huntWave host input agents schedule number more r) := by
  unfold huntWave
  split_ifs with hnone hfirst
  · exact postWave_ends hmore h
  · cases hlaunch : launchWave host input agents schedule number r with
    | none => exact recordGap_between number _ false (h.fail _)
    | some hunted => exact postWave_ends hmore (launchWave_between h hlaunch)
  · cases hlaunch : launchWave host input agents schedule number r with
    | none => exact recordGap_between number _ false h
    | some hunted => exact postWave_ends hmore (launchWave_between h hlaunch)

/-- The induction is on the waves the limit still allows. -/
lemma waves_ends {schedule : ℕ → List ℕ} (left number : ℕ) {r : Run}
    (h : Between input agents s₀ r) :
    Ends input agents s₀ (waves host input agents schedule left number r) := by
  induction left generalizing number r with
  | zero => exact huntWave_ends (by simp) h
  | succ left ih =>
    refine huntWave_ends ?_ h
    intro next hnext r' hr'
    obtain rfl := Option.some.inj hnext
    exact ih (number + 1) hr'

/-- A ledger the phase may start from: distinct ids, and units that are planned, some of them
carrying a prior record, or out of scope. -/
structure Startable (s : EngineState) : Prop where
  distinct : (unitIds s.ledger).Nodup
  statuses : ∀ unit ∈ s.ledger, unit.status = .planned ∨ unit.status = .outOfScope

lemma Startable.idle {s : EngineState} (h : Startable s) :
    ∀ unit ∈ s.ledger, unit.status ≠ .inProgress := by
  intro unit hunit
  rcases h.statuses unit hunit with hs | hs
  · simp [hs]
  · simp [hs]

lemma start_between (hdistinct : (unitIds s₀.ledger).Nodup)
    (hidle : ∀ unit ∈ s₀.ledger, unit.status ≠ .inProgress) : Between input agents s₀ (.start s₀) where
  accounts := ⟨by simp [Run.start], fun _ _ hle => hle, List.nodup_nil, by simp [Run.start],
    by simp [Run.start], fun _ hid => hid⟩
  history :=
    { head := rfl
      last := rfl
      steps := List.isChain_singleton _
      distinct := by
        intro ledger hmem
        obtain rfl := List.mem_singleton.mp hmem
        exact hdistinct
      suppressed := rfl
      carried := rfl
      findings := rfl
      listed := by
        intro ledger hmem unit hunit fingerprint hfingerprint
        obtain rfl := List.mem_singleton.mp hmem
        exact .inr (.inr ⟨unit, hunit, rfl, rfl, hfingerprint⟩) }
  idle := hidle

lemma History.keeps {r : Run} (h : History agents s₀ r) :
    ∀ ledger ∈ r.ledgers, ∀ unit ∈ ledger, ∃ unit' ∈ r.state.ledger, Keeps unit unit' := by
  have hhead := h.head
  have hsteps := h.steps
  generalize hpresent : r.state.ledger = present at hhead ⊢
  generalize r.ledgers = ledgers at hhead hsteps ⊢
  clear hpresent
  induction ledgers generalizing present with
  | nil => cases hhead
  | cons newest ledgers ih =>
    obtain rfl : newest = present := by simpa using hhead
    intro ledger hmem unit hunit
    rcases List.mem_cons.mp hmem with rfl | hmem
    · exact ⟨unit, hunit, Keeps.refl unit⟩
    · cases ledgers with
      | nil => cases hmem
      | cons previous ledgers =>
        obtain ⟨hstep, hrest⟩ := List.isChain_cons_cons.mp hsteps
        obtain ⟨mid, hmid, hkeeps⟩ := ih previous rfl hrest ledger hmem unit hunit
        obtain ⟨unit', hunit', hlast⟩ := hstep.kept mid hmid
        exact ⟨unit', hunit', hkeeps.trans hlast.keeps⟩

variable (host input agents) in
lemma runHunting_ends (schedule : ℕ → List ℕ) (hdistinct : (unitIds s₀.ledger).Nodup)
    (hidle : ∀ unit ∈ s₀.ledger, unit.status ≠ .inProgress) :
    Ends input agents s₀ (runHunting host input agents schedule s₀) :=
  waves_ends _ _ (start_between hdistinct hidle)

/-- What the hunting phase owes: for its invocations, for every unit at every time, for what units
list, and for the work it leaves. -/
structure PhaseAccounted (input : AuditRunInput) (agents : Agents) (s : EngineState) (run : Run) :
    Prop where
  spent : run.state.spent = s.spent + run.launched.length
  within : ∀ budget ∈ input.budget, s.spent ≤ budget → run.state.spent ≤ budget
  once : run.launched.Nodup
  unused : ∀ id ∈ run.launched, id ∉ s.usedIds
  first : run.ledgers.getLast? = some s.ledger
  last : run.ledgers.head? = some run.state.ledger
  distinct : ∀ ledger ∈ run.ledgers, (unitIds ledger).Nodup
  stays : ∀ ledger ∈ run.ledgers, ∀ unit ∈ ledger, ∃ unit' ∈ run.state.ledger, Keeps unit unit'
  steps : run.ledgers.IsChain (LedgerStep agents run.launched)
  live : ∀ ledger ∈ run.ledgers, ∀ unit ∈ ledger, unit.status ≠ .planned →
    unit.status ≠ .outOfScope → ∀ fingerprint ∈ unit.resultFingerprints,
      Recorded run.state.candidates fingerprint ∨ (s.suppressed.get fingerprint).isSome
  seeded : (∀ unit ∈ s.ledger, unit.resultFingerprints = []) →
    ∀ ledger ∈ run.ledgers, ∀ unit ∈ ledger, ∀ fingerprint ∈ unit.resultFingerprints,
      Recorded run.state.candidates fingerprint ∨ (s.suppressed.get fingerprint).isSome
  idle : ∀ unit ∈ run.state.ledger, unit.status ≠ .inProgress
  drained : run.state.incomplete = [] →
    ∀ unit ∈ run.state.ledger, unit.status = .planned → unit.carriedFingerprint ≠ none

/-- Whatever the agents answer and in whatever order the hunters of each wave move, the phase ends
and accounts for every invocation and every unit. -/
theorem hunting_accounts_for_all (host : Host) (input : AuditRunInput) (agents : Agents)
    (schedule : ℕ → List ℕ) (s : EngineState) (h : Startable s) :
    PhaseAccounted input agents s (runHunting host input agents schedule s) := by
  have hends := runHunting_ends host input agents schedule h.distinct h.idle
  have hhistory := hends.history
  refine
    { spent := hends.accounts.spent
      within := hends.accounts.within
      once := hends.accounts.distinct
      unused := hends.accounts.fresh
      first := hhistory.last
      last := hhistory.head
      distinct := hhistory.distinct
      stays := hhistory.keeps
      steps := hhistory.steps
      live := ?_
      seeded := ?_
      idle := hends.idle
      drained := ?_ }
  · intro ledger hledger unit hunit hplanned hscope fingerprint hfingerprint
    rcases hhistory.listed ledger hledger unit hunit fingerprint hfingerprint with
      hrecorded | hsuppressed | ⟨unit₀, hunit₀, -, hstatus, -⟩
    · exact .inl hrecorded
    · exact .inr (hhistory.suppressed ▸ hsuppressed)
    · rcases h.statuses unit₀ hunit₀ with hs | hs
      · exact absurd (hstatus.trans hs) hplanned
      · exact absurd (hstatus.trans hs) hscope
  · intro hnone ledger hledger unit hunit fingerprint hfingerprint
    rcases hhistory.listed ledger hledger unit hunit fingerprint hfingerprint with
      hrecorded | hsuppressed | ⟨unit₀, hunit₀, -, -, hlisted⟩
    · exact .inl hrecorded
    · exact .inr (hhistory.suppressed ▸ hsuppressed)
    · rw [hnone unit₀ hunit₀] at hlisted
      cases hlisted
  · intro hcomplete unit hunit hplanned hcarried
    exact huntable_eq_nil.mp (hends.drained hcomplete) unit hunit ⟨hplanned, hcarried⟩

/-! ### A run of the phase -/

/-- Plain references joined as the skill joins them, and validators that accept. -/
def plainHost : Host where
  canonicalCoverageId refs := some ("::".intercalate
    ([refs.surface, refs.boundary, refs.subsystem, refs.attackClass] ++ refs.lifecycle.toList))
  knownBlock _ := true
  isSafeRelativePath path := !path.isEmpty
  ledgerErrors _ := []
  findingsErrors _ := []
  thirtyPercent balance := -(-(balance * 3) / 10)

def plainSeed (surface : String) : UnitSeed :=
  { canonicalRefs := ⟨surface, "edge", "api", "injection", none⟩
    surface, boundary := "edge", subsystem := "api", attackClass := "injection"
    lifecycle := none, startingPaths := [surface ++ ".ts"], ordinaryAttackClassBlock := none
    selectedCompanionBlocks := [], excludedBlocks := [] }

def plainUnit (surface : String) : LedgerUnit :=
  seedUnit plainHost.toSkill (plainSeed surface) [] .none none

def plainId (surface : String) : String := plainHost.coverageId (plainSeed surface).canonicalRefs

def plainCheck (agentId : String) : Check :=
  { agentId, reviewedPaths := ["login.ts"], invariant := "input is escaped", method := .source
    result := "read", artifact := none }

def plainCandidate : Candidate :=
  { fingerprint := "login-injection", title := "Injection", trace := [⟨.sink, "login.ts", "query"⟩]
    evidence := [⟨"login.ts"⟩], proposal := .needsValidation "unescaped", details := "" }

def plainReport (agentId surface : String) (disposition : Disposition)
    (fingerprints : List String) : HunterUnitResult :=
  { coverageId := plainId surface, disposition, checks := [plainCheck agentId]
    candidateFingerprints := fingerprints, unresolved := [] }

/-- The first hunter raises a candidate, the second is refused by the host; the critics have
nothing to add. -/
def plainAgents : Agents where
  hunter id :=
    if id = "hunter-w1-1" then
      .decoded ⟨[plainReport id "login" .candidate ["login-injection"]], [plainCandidate], [], []⟩
    else .refused "the organization's budget is spent"
  critic _ := .decoded ⟨[], [], []⟩

def plainInput : AuditRunInput :=
  { profile := .deep, scopePaths := [], budget := some 20, prior := none
    changedSincePrior := fun _ => false, unitsPerHunter := none, maxWaves := some 3 }

def plainState : EngineState :=
  { initialState with
    ledger := [plainUnit "login", plainUnit "upload",
      { plainUnit "search" with carriedFingerprint := some "search-leak" },
      scopedUnit (plainUnit "mail") ["src/"]] }

theorem hunting_accounts_for_four : PhaseAccounted plainInput plainAgents plainState
    (runHunting plainHost plainInput plainAgents (fun _ => [1, 0, 1, 1, 0]) plainState) :=
  hunting_accounts_for_all plainHost plainInput plainAgents (fun _ => [1, 0, 1, 1, 0]) plainState
    ⟨by decide, by decide⟩

end Maple.Audit
