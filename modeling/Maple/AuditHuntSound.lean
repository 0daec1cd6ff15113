import Mathlib
import Maple.AuditHuntStep

/-! The hunting phase accounts for every invocation and every unit, whatever its agents do and in
whatever order the hunters of a wave move. -/

namespace Maple.Audit

variable (host : Host) (input : AuditRunInput) (agents : Agents)

/-! ### What a whole run keeps -/

/-- A unit took its terminal status from what the hunter it was assigned to answered. -/
structure SettledBy (launched : List String) (hunter : String) (unit unit' : LedgerUnit) :
    Prop where
  assigned : unit.status = .inProgress ∧ unit.agentId = some hunter
  launched : hunter ∈ launched
  answered : ∃ result, agents.hunter hunter = .decoded result ∧ ∃ report ∈ result.units,
    report.coverageId = unit.coverageId ∧ unit'.status = report.disposition.status ∧
      unit'.agentId = some hunter

structure UnitStep (launched : List String) (unit unit' : LedgerUnit) : Prop where
  keeps : Keeps unit unit'
  settled : unit'.status.terminal = true →
    (unit'.status = unit.status ∧ unit'.agentId = unit.agentId) ∨
      ∃ hunter, SettledBy agents launched hunter unit unit'

/-- One change of the ledger: every unit stays, and a new unit is not settled. -/
structure LedgerStep (launched : List String) (new old : Ledger) : Prop where
  kept : ∀ unit ∈ old, ∃ unit' ∈ new, UnitStep agents launched unit unit'
  fresh : ∀ unit ∈ new, unit.coverageId ∉ unitIds old → unit.status.terminal = false

lemma LedgerStep.mono {launched launched' : List String} (hsub : launched ⊆ launched')
    {new old : Ledger} (h : LedgerStep agents launched new old) :
    LedgerStep agents launched' new old := by
  refine ⟨fun unit hunit => ?_, h.fresh⟩
  obtain ⟨unit', hunit', hstep⟩ := h.kept unit hunit
  refine ⟨unit', hunit', hstep.keeps, fun hterminal => ?_⟩
  rcases hstep.settled hterminal with hsame | ⟨hunter, hby⟩
  · exact .inl hsame
  · exact .inr ⟨hunter, hby.assigned, hsub hby.launched, hby.answered⟩

/-- The invocations of the run: `reserved` are the ids it has spent and not been given back. -/
structure Accounts (s₀ : EngineState) (reserved : List String) (s : EngineState) : Prop where
  spent : s.spent = s₀.spent + reserved.length
  within : ∀ budget ∈ input.budget, s₀.spent ≤ budget → s.spent ≤ budget
  distinct : reserved.Nodup
  used : ∀ id ∈ reserved, id ∈ s.usedIds
  fresh : ∀ id ∈ reserved, id ∉ s₀.usedIds
  kept : ∀ id ∈ s₀.usedIds, id ∈ s.usedIds

/-- What a listed fingerprint links: a recorded candidate, a suppressed prior record, or what the
unit listed when the phase began, at the status it still has. -/
def Linked (s₀ s : EngineState) (unit : LedgerUnit) (fingerprint : String) : Prop :=
  Recorded s.candidates fingerprint ∨ (s.suppressed.get fingerprint).isSome ∨
    ∃ unit₀ ∈ s₀.ledger, unit₀.coverageId = unit.coverageId ∧ unit.status = unit₀.status ∧
      fingerprint ∈ unit₀.resultFingerprints

/-- Every ledger the run has held, from the first to the present one. -/
structure History (s₀ : EngineState) (r : Run) : Prop where
  head : r.ledgers.head? = some r.state.ledger
  last : r.ledgers.getLast? = some s₀.ledger
  steps : r.ledgers.IsChain (LedgerStep agents r.launched)
  distinct : ∀ ledger ∈ r.ledgers, (unitIds ledger).Nodup
  suppressed : r.state.suppressed = s₀.suppressed
  carried : r.state.carried = s₀.carried
  findings : r.state.findings = s₀.findings
  listed : ∀ ledger ∈ r.ledgers, ∀ unit ∈ ledger, ∀ fingerprint ∈ unit.resultFingerprints,
    Linked s₀ r.state unit fingerprint

/-- What holds while no hunter is out. -/
structure Between (s₀ : EngineState) (r : Run) : Prop where
  accounts : Accounts input s₀ r.launched r.state
  history : History agents s₀ r
  idle : ∀ unit ∈ r.state.ledger, unit.status ≠ .inProgress

/-- A phase may end here: unless the run is incomplete, no unit waits for a hunter. -/
structure Ends (s₀ : EngineState) (r : Run) : Prop extends Between input agents s₀ r where
  drained : r.state.incomplete = [] → huntable r.state.ledger = []

variable {host input agents} {s₀ : EngineState}

/-! ### Accounts -/

lemma Accounts.perm {reserved reserved' : List String} {s : EngineState}
    (hperm : reserved.Perm reserved') (h : Accounts input s₀ reserved s) :
    Accounts input s₀ reserved' s where
  spent := hperm.length_eq ▸ h.spent
  within := h.within
  distinct := hperm.nodup_iff.mp h.distinct
  used id hid := h.used id (hperm.mem_iff.mpr hid)
  fresh id hid := h.fresh id (hperm.mem_iff.mpr hid)
  kept := h.kept

lemma Accounts.congr {reserved : List String} {s s' : EngineState}
    (h : Accounts input s₀ reserved s) (hspent : s'.spent = s.spent)
    (hused : s'.usedIds = s.usedIds) : Accounts input s₀ reserved s' where
  spent := hspent.trans h.spent
  within budget hbudget hle := hspent.trans_le (h.within budget hbudget hle)
  distinct := h.distinct
  used id hid := hused ▸ h.used id hid
  fresh := h.fresh
  kept id hid := hused ▸ h.kept id hid

variable (input) in
lemma reserve_cases (agentId : String) (s : EngineState) :
    (∃ why, why ≠ .ok ∧ reserve input agentId s = (why, s)) ∨
      agentId ∉ s.usedIds ∧ ¬overBudget input s ∧
        reserve input agentId s =
          (.ok, { s with spent := s.spent + 1, usedIds := s.usedIds ++ [agentId] }) := by
  unfold reserve
  split_ifs with hused hhalted hbudget
  · exact .inl ⟨.duplicate, by simp, rfl⟩
  · exact .inl ⟨.halted, by simp, rfl⟩
  · exact .inl ⟨.budget, by simp, rfl⟩
  · exact .inr ⟨hused, hbudget, rfl⟩

lemma Accounts.reserve {reserved : List String} {s : EngineState} {agentId : String}
    (hid : agentId ∉ s.usedIds) (hbudget : ¬overBudget input s)
    (h : Accounts input s₀ reserved s) :
    Accounts input s₀ (agentId :: reserved)
      { s with spent := s.spent + 1, usedIds := s.usedIds ++ [agentId] } where
  spent := by
    have hspent := h.spent
    simp only [List.length_cons]
    omega
  within budget hmem hle := by
    have hroom : ¬budget ≤ s.spent := fun hover => hbudget ⟨budget, hmem, hover⟩
    dsimp only
    omega
  distinct := List.nodup_cons.mpr ⟨fun hmem => hid (h.used _ hmem), h.distinct⟩
  used id hmem := by
    rcases List.mem_cons.mp hmem with rfl | hmem
    · simp
    · exact List.mem_append_left _ (h.used id hmem)
  fresh id hmem := by
    rcases List.mem_cons.mp hmem with rfl | hmem
    · exact fun hold => hid (h.kept _ hold)
    · exact h.fresh id hmem
  kept id hmem := List.mem_append_left _ (h.kept id hmem)

lemma Accounts.giveBack {reserved : List String} {s : EngineState} {agentId reason : String}
    (h : Accounts input s₀ (agentId :: reserved) s) :
    Accounts input s₀ reserved (giveBack reason s) where
  spent := by
    have hspent := h.spent
    simp only [Audit.giveBack, List.length_cons] at hspent ⊢
    omega
  within budget hmem hle := by
    have hwithin := h.within budget hmem hle
    simp only [Audit.giveBack]
    omega
  distinct := (List.nodup_cons.mp h.distinct).2
  used id hid := h.used id (List.mem_cons_of_mem _ hid)
  fresh id hid := h.fresh id (List.mem_cons_of_mem _ hid)
  kept := h.kept

/-! ### History -/

/-- A state that differs only in what the history does not mention. -/
structure SameLedger (s s' : EngineState) : Prop where
  ledger : s'.ledger = s.ledger
  candidates : s'.candidates = s.candidates
  suppressed : s'.suppressed = s.suppressed
  carried : s'.carried = s.carried
  findings : s'.findings = s.findings

lemma History.same {r r' : Run} (hsame : SameLedger r.state r'.state)
    (hledgers : r'.ledgers = r.ledgers) (hlaunched : r.launched ⊆ r'.launched)
    (h : History agents s₀ r) : History agents s₀ r' where
  head := by rw [hledgers, hsame.ledger]; exact h.head
  last := hledgers ▸ h.last
  steps := by
    rw [hledgers]
    exact h.steps.imp fun _ _ hstep => hstep.mono agents hlaunched
  distinct := hledgers ▸ h.distinct
  suppressed := hsame.suppressed.trans h.suppressed
  carried := hsame.carried.trans h.carried
  findings := hsame.findings.trans h.findings
  listed ledger hmem unit hunit fingerprint hfingerprint := by
    have hlinked := h.listed ledger (hledgers ▸ hmem) unit hunit fingerprint hfingerprint
    unfold Linked at hlinked ⊢
    rwa [hsame.candidates, hsame.suppressed]

lemma History.mem {r : Run} (h : History agents s₀ r) : r.state.ledger ∈ r.ledgers :=
  List.mem_of_mem_head? h.head

lemma History.nodup {r : Run} (h : History agents s₀ r) : (unitIds r.state.ledger).Nodup :=
  h.distinct _ h.mem

lemma linked_grows {s s' : EngineState} {unit : LedgerUnit} {fingerprint : String}
    (hsuppressed : s'.suppressed = s.suppressed)
    (hcandidates : Recorded s.candidates fingerprint → Recorded s'.candidates fingerprint)
    (h : Linked s₀ s unit fingerprint) : Linked s₀ s' unit fingerprint := by
  rcases h with h | h | h
  · exact .inl (hcandidates h)
  · exact .inr (.inl (hsuppressed ▸ h))
  · exact .inr (.inr h)

/-- A change of the ledger that maps its units, after some new ones were added, is a step of its
history. -/
lemma History.mutate {r : Run} {f : EngineState → EngineState} (h : History agents s₀ r)
    (change : LedgerUnit → LedgerUnit) (fresh : List LedgerUnit)
    (hledger : (f r.state).ledger.Perm ((r.state.ledger ++ fresh).map change))
    (hsuppressed : (f r.state).suppressed = r.state.suppressed)
    (hcarried : (f r.state).carried = r.state.carried)
    (hfindings : (f r.state).findings = r.state.findings)
    (hcandidates : ∀ fingerprint, Recorded r.state.candidates fingerprint →
      Recorded (f r.state).candidates fingerprint)
    (hdistinct : (unitIds (r.state.ledger ++ fresh)).Nodup)
    (hfresh : ∀ unit ∈ fresh, Keeps unit (change unit) ∧
      (change unit).status.terminal = false ∧ (change unit).resultFingerprints = [])
    (hold : ∀ unit ∈ r.state.ledger, UnitStep agents r.launched unit (change unit))
    (hlisted : ∀ unit ∈ r.state.ledger, ∀ fingerprint ∈ (change unit).resultFingerprints,
      Linked s₀ (f r.state) (change unit) fingerprint) :
    History agents s₀ (r.mutate f) where
  head := rfl
  last := by
    unfold Run.mutate
    cases hledgers : r.ledgers with
    | nil => simpa [hledgers] using h.last
    | cons ledger ledgers =>
      rw [List.getLast?_cons_cons, ← hledgers]
      exact h.last
  steps := by
    unfold Run.mutate
    refine List.isChain_cons.mpr ⟨fun old hhead => ?_, h.steps⟩
    rw [h.head, Option.mem_some_iff] at hhead
    subst hhead
    refine ⟨fun unit hunit => ⟨change unit, ?_, hold unit hunit⟩, fun unit hunit hnew => ?_⟩
    · exact hledger.mem_iff.mpr (List.mem_map_of_mem (List.mem_append_left _ hunit))
    · obtain ⟨before, hbefore, rfl⟩ := List.mem_map.mp (hledger.mem_iff.mp hunit)
      rcases List.mem_append.mp hbefore with hmem | hmem
      · exact absurd (mem_unitIds hmem) ((hold before hmem).keeps.coverageId ▸ hnew)
      · exact (hfresh before hmem).2.1
  distinct ledger hmem := by
    rcases List.mem_cons.mp hmem with rfl | hmem
    · have hids : unitIds ((r.state.ledger ++ fresh).map change) =
          unitIds (r.state.ledger ++ fresh) := by
        apply unitIds_map
        intro unit hunit
        rcases List.mem_append.mp hunit with hunit | hunit
        · exact (hold unit hunit).keeps.coverageId
        · exact (hfresh unit hunit).1.coverageId
      rw [← hids] at hdistinct
      exact (hledger.map LedgerUnit.coverageId).nodup_iff.mpr hdistinct
    · exact h.distinct ledger hmem
  suppressed := hsuppressed.trans h.suppressed
  carried := hcarried.trans h.carried
  findings := hfindings.trans h.findings
  listed ledger hmem unit hunit fingerprint hfingerprint := by
    rcases List.mem_cons.mp hmem with rfl | hmem
    · obtain ⟨before, hbefore, rfl⟩ := List.mem_map.mp (hledger.mem_iff.mp hunit)
      rcases List.mem_append.mp hbefore with hmem | hmem
      · exact hlisted before hmem fingerprint hfingerprint
      · rw [(hfresh before hmem).2.2] at hfingerprint
        cases hfingerprint
    · exact linked_grows hsuppressed (hcandidates fingerprint)
        (h.listed ledger hmem unit hunit fingerprint hfingerprint)

/-- Clearing a unit is a step, and it then lists nothing. -/
lemma unitStep_cleared {launched : List String} {unit unit' : LedgerUnit}
    (hkeeps : Keeps unit unit') (hcleared : Cleared unit') :
    UnitStep agents launched unit unit' :=
  ⟨hkeeps, fun h => absurd h (by simp [hcleared.not_terminal])⟩

lemma unitStep_refl {launched : List String} (unit : LedgerUnit) :
    UnitStep agents launched unit unit := ⟨Keeps.refl unit, fun _ => .inl ⟨rfl, rfl⟩⟩

/-- Clearing some units of the ledger is a step of its history. -/
lemma History.clear {r : Run} {f : EngineState → EngineState} (h : History agents s₀ r)
    (change : LedgerUnit → LedgerUnit)
    (hledger : (f r.state).ledger = r.state.ledger.map change)
    (hcandidates : (f r.state).candidates = r.state.candidates)
    (hsuppressed : (f r.state).suppressed = r.state.suppressed)
    (hcarried : (f r.state).carried = r.state.carried)
    (hfindings : (f r.state).findings = r.state.findings)
    (hchange : ∀ unit, Keeps unit (change unit) ∧
      (change unit = unit ∨ Cleared (change unit))) :
    History agents s₀ (r.mutate f) := by
  refine h.mutate change [] ?_ hsuppressed hcarried hfindings ?_ ?_ ?_ ?_ ?_
  · rw [hledger, List.append_nil]
  · rw [hcandidates]
    exact fun _ hrecorded => hrecorded
  · rw [List.append_nil]
    exact h.nodup
  · simp
  · intro unit _
    rcases (hchange unit).2 with hsame | hcleared
    · rw [hsame]
      exact unitStep_refl unit
    · exact unitStep_cleared (hchange unit).1 hcleared
  · intro unit hunit fingerprint hfingerprint
    rcases (hchange unit).2 with hsame | hcleared
    · rw [hsame] at hfingerprint ⊢
      have hlinked := h.listed _ h.mem unit hunit fingerprint hfingerprint
      unfold Linked at hlinked ⊢
      rwa [hcandidates, hsuppressed]
    · rw [hcleared.listed] at hfingerprint
      cases hfingerprint

/-! ### Calling one agent -/

lemma SameLedger.refl (s : EngineState) : SameLedger s s := ⟨rfl, rfl, rfl, rfl, rfl⟩

lemma SameLedger.trans {s s' s'' : EngineState} (h : SameLedger s s') (h' : SameLedger s' s'') :
    SameLedger s s'' :=
  ⟨h'.ledger.trans h.ledger, h'.candidates.trans h.candidates, h'.suppressed.trans h.suppressed,
    h'.carried.trans h.carried, h'.findings.trans h.findings⟩

lemma sameLedger_fail (reason : String) (s : EngineState) : SameLedger s (fail reason s) := by
  unfold fail
  split_ifs
  · exact SameLedger.refl s
  · exact ⟨rfl, rfl, rfl, rfl, rfl⟩

lemma accounts_fail {reserved : List String} {s : EngineState} (reason : String)
    (h : Accounts input s₀ reserved s) : Accounts input s₀ reserved (fail reason s) := by
  unfold fail
  split_ifs
  · exact h
  · exact h.congr rfl rfl

lemma fail_incomplete (reason : String) (s : EngineState) : (fail reason s).incomplete ≠ [] := by
  unfold fail
  split_ifs with hmem
  · exact List.ne_nil_of_mem hmem
  · simp

lemma sameLedger_gap (reason : String) (s : EngineState) : SameLedger s (gap reason s) := by
  unfold gap
  split_ifs
  · exact SameLedger.refl s
  · exact ⟨rfl, rfl, rfl, rfl, rfl⟩

lemma accounts_gap {reserved : List String} {s : EngineState} (reason : String)
    (h : Accounts input s₀ reserved s) : Accounts input s₀ reserved (gap reason s) := by
  unfold gap
  split_ifs
  · exact h
  · exact h.congr rfl rfl

lemma Between.update {r : Run} {f : EngineState → EngineState}
    (hsame : SameLedger r.state (f r.state))
    (haccounts : Accounts input s₀ r.launched (f r.state)) (h : Between input agents s₀ r) :
    Between input agents s₀ (r.update f) where
  accounts := haccounts
  history := h.history.same hsame rfl (List.Subset.refl _)
  idle unit hunit := h.idle unit (hsame.ledger ▸ hunit)

lemma Between.fail {r : Run} (reason : String) (h : Between input agents s₀ r) :
    Between input agents s₀ (r.update (fail reason)) :=
  h.update (sameLedger_fail reason r.state) (accounts_fail reason h.accounts)

lemma Between.gap {r : Run} (reason : String) (h : Between input agents s₀ r) :
    Between input agents s₀ (r.update (gap reason)) :=
  h.update (sameLedger_gap reason r.state) (accounts_gap reason h.accounts)

/-- A call made while no hunter is out keeps the accounts, and leaves the ledger to its caller. -/
lemma attempt_between {α : Type} {r : Run} (agentId : String) (answer : Answer α)
    (h : Between input agents s₀ r) :
    Between input agents s₀ (attempt input agentId answer r).2 ∧
      SameLedger r.state (attempt input agentId answer r).2.state := by
  unfold attempt
  rcases reserve_cases input agentId r.state with ⟨why, hwhy, heq⟩ | ⟨hid, hroom, heq⟩
  · rw [heq]
    cases why with
    | ok => exact absurd rfl hwhy
    | budget | duplicate | halted => exact ⟨h, SameLedger.refl _⟩
  · rw [heq]
    have haccounts := h.accounts.reserve hid hroom
    set s := { r.state with
      spent := r.state.spent + 1, usedIds := r.state.usedIds ++ [agentId] } with hs
    have hsame : SameLedger r.state s := ⟨rfl, rfl, rfl, rfl, rfl⟩
    have hlaunch : Between input agents s₀ ({ r with state := s }.launch agentId) :=
      ⟨haccounts, h.history.same hsame rfl (List.subset_cons_self _ _), h.idle⟩
    cases answer with
    | refused reason =>
      have hback : SameLedger r.state (giveBack reason s) := ⟨rfl, rfl, rfl, rfl, rfl⟩
      have hhalt : SameLedger r.state (halt reason s) :=
        hback.trans (sameLedger_fail reason (giveBack reason s))
      exact ⟨h.update (f := fun _ => halt reason s) hhalt
        (accounts_fail reason haccounts.giveBack), hhalt⟩
    | failed => exact ⟨hlaunch, hsame⟩
    | discarded issuePaths => exact ⟨hlaunch, hsame⟩
    | decoded value => exact ⟨hlaunch, hsame⟩

lemma invokeRepairing_between {α : Type} {r : Run} (agentId : String)
    (answers : String → Answer α) (h : Between input agents s₀ r) :
    Between input agents s₀ (invokeRepairing input agentId answers r).2 ∧
      SameLedger r.state (invokeRepairing input agentId answers r).2.state := by
  obtain ⟨hfirst, hsame⟩ := attempt_between agentId (answers agentId) h
  unfold invokeRepairing
  dsimp only
  cases (attempt input agentId (answers agentId) r).1 with
  | decoded value => exact ⟨hfirst, hsame⟩
  | none => exact ⟨hfirst, hsame⟩
  | discarded issuePaths =>
    obtain ⟨hagain, hsame'⟩ :=
      attempt_between (agentId ++ "-r1") (answers (agentId ++ "-r1")) hfirst
    exact ⟨hagain, hsame.trans hsame'⟩

/-! ### Critics -/

variable (host input) in
/-- What the ledger of a critic's result is made of. -/
lemma applyCriticResult_spec (agentId : String) (deferReason : Option String)
    (result : CriticResult) (s : EngineState) (hdistinct : (unitIds s.ledger).Nodup) :
    ∃ change fresh,
      (applyCriticResult host input agentId deferReason result s).ledger.Perm
        ((s.ledger ++ fresh).map change) ∧
      (unitIds (s.ledger ++ fresh)).Nodup ∧
      (∀ unit, CriticChange unit (change unit)) ∧
      ∀ unit ∈ fresh, (unit.status = .planned ∨ unit.status = .outOfScope) ∧
        unit.resultFingerprints = [] := by
  obtain ⟨fresh, -, hperm, hsub, hnodup⟩ :=
    markedLedger_spec host input agentId result s.ledger
  have hseeds : ∀ unit ∈ fresh, (unit.status = .planned ∨ unit.status = .outOfScope) ∧
      unit.resultFingerprints = [] := fun unit hunit =>
    (acceptedSeeds_spec host input (hsub hunit)).2
  cases deferReason with
  | none =>
    exact ⟨_, fresh, hperm, hnodup hdistinct, criticChange_markedUnit agentId result s.ledger,
      hseeds⟩
  | some reason =>
    refine ⟨fun unit =>
      let marked := markedUnit agentId result s.ledger unit
      if marked.coverageId ∈ acceptedIds host input agentId result s.ledger then
        deferUnit reason marked else marked,
      fresh, ?_, hnodup hdistinct, fun unit => ?_, hseeds⟩
    · have hdefer := hperm.map fun unit =>
        if unit.coverageId ∈ acceptedIds host input agentId result s.ledger then
          deferUnit reason unit else unit
      rwa [List.map_map] at hdefer
    · have hmarked := criticChange_markedUnit agentId result s.ledger unit
      dsimp only
      split_ifs
      · exact hmarked.trans (criticChange_deferUnit reason _)
      · exact hmarked

lemma unitStep_critic {launched : List String} {unit unit' : LedgerUnit}
    (h : CriticChange unit unit') : UnitStep agents launched unit unit' := by
  rcases h.live with ⟨hstatus, hagent, -⟩ | ⟨hcleared, -⟩
  · exact ⟨h.keeps, fun _ => .inl ⟨hstatus, hagent⟩⟩
  · exact unitStep_cleared h.keeps hcleared

variable (host) in
lemma applyCriticResult_between {r : Run} (agentId : String) (deferReason : Option String)
    (result : CriticResult) (h : Between input agents s₀ r) :
    Between input agents s₀
      (r.mutate (applyCriticResult host input agentId deferReason result)) := by
  obtain ⟨change, fresh, hperm, hdistinct, hchange, hfresh⟩ :=
    applyCriticResult_spec host input agentId deferReason result r.state
      h.history.nodup
  have hnew : ∀ unit ∈ fresh, (change unit).status.terminal = false ∧
      (change unit).resultFingerprints = [] ∧ (change unit).status ≠ .inProgress := by
    intro unit hunit
    obtain ⟨hstatus, hlisted⟩ := hfresh unit hunit
    rcases (hchange unit).live with ⟨hsame, -, hlist⟩ | ⟨hcleared, hprogress⟩
    · rw [hsame, hlist]
      rcases hstatus with hs | hs
      · simp [hs, hlisted, UnitStatus.terminal]
      · simp [hs, hlisted, UnitStatus.terminal]
    · exact ⟨hcleared.not_terminal, hcleared.listed, hprogress⟩
  refine ⟨h.accounts.congr rfl rfl,
    h.history.mutate change fresh hperm rfl rfl rfl (fun _ h => h) hdistinct ?_ ?_ ?_, ?_⟩
  · exact fun unit hunit => ⟨(hchange unit).keeps, (hnew unit hunit).1, (hnew unit hunit).2.1⟩
  · exact fun unit _ => unitStep_critic (hchange unit)
  · intro unit hunit fingerprint hfingerprint
    rcases (hchange unit).live with ⟨hstatus, -, hlist⟩ | ⟨hcleared, -⟩
    · rw [hlist] at hfingerprint
      have hlinked := h.history.listed _ h.history.mem unit hunit fingerprint hfingerprint
      unfold Linked at hlinked ⊢
      rwa [hstatus, (hchange unit).keeps.coverageId]
    · rw [hcleared.listed] at hfingerprint
      cases hfingerprint
  · intro unit hunit
    obtain ⟨before, hbefore, rfl⟩ := List.mem_map.mp (hperm.mem_iff.mp hunit)
    rcases List.mem_append.mp hbefore with hmem | hmem
    · rcases (hchange before).live with ⟨hstatus, -, -⟩ | ⟨-, hprogress⟩
      · rw [hstatus]
        exact h.idle before hmem
      · exact hprogress
    · exact (hnew before hmem).2.2

variable (host input) in
/-- A critic leaves no new work when it accepts none, or when what it accepts is deferred. -/
lemma applyCriticResult_drained (agentId : String) (deferReason : Option String)
    (result : CriticResult) {s : EngineState} (hdistinct : (unitIds s.ledger).Nodup)
    (hdrained : huntable s.ledger = [])
    (hwork : deferReason.isSome ∨ acceptedIds host input agentId result s.ledger = []) :
    huntable (applyCriticResult host input agentId deferReason result s).ledger = [] := by
  rw [huntable_eq_nil] at hdrained ⊢
  have hmarked : ∀ unit ∈ markedLedger host input agentId result s.ledger, unit.awaitsHunter →
      unit.coverageId ∈ acceptedIds host input agentId result s.ledger := by
    intro unit hunit hawaits
    rcases awaits_markedLedger host input hdistinct hunit hawaits with ⟨before, hbefore, h⟩ | hmem
    · exact absurd h (hdrained before hbefore)
    · exact hmem
  cases deferReason with
  | none =>
    intro unit hunit hawaits
    have hmem := hmarked unit hunit hawaits
    rw [hwork.resolve_left (by simp)] at hmem
    cases hmem
  | some reason => exact not_awaits_defer hmarked

variable (host) in
lemma runCritic_between {r : Run} (kind : CriticKind) (wave : ℕ) (deferReason : Option String)
    (h : Between input agents s₀ r) :
    Between input agents s₀ (runCritic host input agents kind wave deferReason r).2 ∧
      ∀ accepted, (runCritic host input agents kind wave deferReason r).1 = accepted →
        (deferReason.isSome ∨ accepted = some 0) → huntable r.state.ledger = [] →
        huntable (runCritic host input agents kind wave deferReason r).2.state.ledger = [] := by
  obtain ⟨hcalled, hsame⟩ := invokeRepairing_between (criticId wave kind) agents.critic h
  unfold runCritic
  dsimp only
  cases hanswer : (invokeRepairing input (criticId wave kind) agents.critic r).1 with
  | none => exact ⟨hcalled, fun _ _ _ hdrained => hsame.ledger ▸ hdrained⟩
  | some result =>
    have happlied := applyCriticResult_between host (criticId wave kind) deferReason result hcalled
    dsimp only
    refine ⟨?_, ?_⟩
    · split_ifs
      · exact happlied
      · exact happlied.gap _
    · rintro _ rfl hwork hdrained
      have hempty := applyCriticResult_drained host input (criticId wave kind) deferReason result
        hcalled.history.nodup (hsame.ledger ▸ hdrained)
        (hwork.imp_right fun hzero => List.eq_nil_of_length_eq_zero (Option.some.inj hzero))
      split_ifs
      · exact hempty
      · rw [Run.update, (sameLedger_gap _ _).ledger]
        exact hempty

end Maple.Audit
