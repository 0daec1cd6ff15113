import Mathlib
import Maple.InsertMap

/-! The coverage ledger of a security audit: its units, the findings they link, and the pure
transitions the engine makes on it. -/

namespace Maple.Audit

inductive UnitStatus
  | planned | notApplicable | outOfScope | deferred | inProgress | blocked | covered | candidate
deriving DecidableEq, Repr

/-- The statuses of a live terminal record: what a critic may reassign. -/
def UnitStatus.terminal : UnitStatus → Bool
  | .blocked | .covered | .candidate => true
  | _ => false

inductive PriorStatus
  | new | priorConfirmedSameSource | priorConfirmedChangedSource | priorNeedsValidation
  | priorDeferred | priorBlocked | priorOutOfScope | priorCoveredSameSource
  | priorCoveredChangedSource | priorRejectedClaimChanged | none
deriving DecidableEq, Repr

inductive Verdict
  | confirmed | needsValidation | rejected
deriving DecidableEq, Repr

structure CanonicalRefs where
  surface : String
  boundary : String
  subsystem : String
  attackClass : String
  lifecycle : Option String
deriving DecidableEq, Repr

structure ExcludedBlock where
  block : String
  reason : String
deriving DecidableEq, Repr

inductive CheckMethod
  | source | onLocal
deriving DecidableEq, Repr

structure Check where
  agentId : String
  reviewedPaths : List String
  invariant : String
  method : CheckMethod
  result : String
  artifact : Option String
deriving DecidableEq, Repr

structure Attempt where
  wave : ℕ
  status : UnitStatus
  agentId : Option String
  reviewedPaths : List String
  localChecks : List Check
  resultFingerprints : List String
  unresolved : List String
  reassignmentReason : String
deriving DecidableEq, Repr

structure LedgerUnit where
  coverageId : String
  canonicalRefs : CanonicalRefs
  surface : String
  boundary : String
  subsystem : String
  attackClass : String
  lifecycle : Option String
  startingPaths : List String
  ordinaryAttackClassBlock : Option String
  selectedCompanionBlocks : List String
  excludedBlocks : List ExcludedBlock
  priorStatus : PriorStatus
  priority : Option ℤ
  hardening : Option (List String)
  failedAttempts : Option ℕ
  carriedFingerprint : Option String
  decisions : List (String × Verdict)
  resolvedPriorLeads : Option (List String)
  notRechecked : Option (List String)
  attempts : List Attempt
  wave : ℕ
  status : UnitStatus
  agentId : Option String
  reviewedPaths : List String
  localChecks : List Check
  resultFingerprints : List String
  unresolved : List String
deriving DecidableEq, Repr

abbrev Ledger := List LedgerUnit

def unitIds (units : List LedgerUnit) : List String := units.map LedgerUnit.coverageId

/-- The semantic fields a new unit is proposed with. -/
structure UnitSeed where
  canonicalRefs : CanonicalRefs
  surface : String
  boundary : String
  subsystem : String
  attackClass : String
  lifecycle : Option String
  startingPaths : List String
  ordinaryAttackClassBlock : Option String
  selectedCompanionBlocks : List String
  excludedBlocks : List ExcludedBlock
deriving DecidableEq, Repr

structure SeedUnit extends UnitSeed where
  priority : Option ℤ
deriving DecidableEq, Repr

structure MissingUnit extends UnitSeed where
  reason : String
deriving DecidableEq, Repr

inductive Disposition
  | covered | candidate | blocked
deriving DecidableEq, Repr

def Disposition.status : Disposition → UnitStatus
  | .covered => .covered
  | .candidate => .candidate
  | .blocked => .blocked

structure HunterUnitResult where
  coverageId : String
  disposition : Disposition
  checks : List Check
  candidateFingerprints : List String
  unresolved : List String
deriving DecidableEq, Repr

/-- What the ledger code takes from the skill's own scripts: `none` where the script throws, and
the error texts of its validators. -/
structure Skill where
  canonicalCoverageId : CanonicalRefs → Option String
  knownBlock : String → Bool
  isSafeRelativePath : String → Bool
  ledgerErrors : Ledger → List String

variable (skill : Skill)

def Skill.safeCoverageId (refs : CanonicalRefs) : Option String := skill.canonicalCoverageId refs

/-- Only asked once the references are known to have an id. -/
def Skill.coverageId (refs : CanonicalRefs) : String := (skill.canonicalCoverageId refs).getD ""

def Skill.unknownBlockRefs (unit : UnitSeed) : List String :=
  (unit.ordinaryAttackClassBlock.toList ++ unit.selectedCompanionBlocks ++
    unit.excludedBlocks.map ExcludedBlock.block).filter fun ref => !skill.knownBlock ref

/-- The code units a string is compared by. -/
def utf16Units (text : String) : List ℕ :=
  text.toList.flatMap fun c =>
    if c.toNat < 0x10000 then [c.toNat]
    else [0xD800 + (c.toNat - 0x10000) / 0x400, 0xDC00 + (c.toNat - 0x10000) % 0x400]

def jsLt (a b : String) : Prop := utf16Units a < utf16Units b

instance (a b : String) : Decidable (jsLt a b) := inferInstanceAs (Decidable (_ < _))

/-- An array of strings as `sort()` leaves it. -/
def sortStrings (texts : List String) : List String :=
  texts.insertionSort fun a b => ¬jsLt b a

def sortLedger (ledger : Ledger) : Ledger :=
  ledger.insertionSort fun a b => ¬jsLt b.coverageId a.coverageId

def LedgerUnit.emptyLive (unit : LedgerUnit) : LedgerUnit :=
  { unit with
    agentId := none, reviewedPaths := [], localChecks := [], resultFingerprints := [],
    unresolved := [] }

def startsWith (text start : String) : Bool := start.toList.isPrefixOf text.toList

def endsWith (text finish : String) : Bool := finish.toList.isSuffixOf text.toList

def inScope (paths scope : List String) : Bool :=
  scope.isEmpty || paths.any fun path => scope.any fun root =>
    path == root || startsWith path (if endsWith root "/" then root else root ++ "/")

def outsideScope (scope : List String) : String :=
  "outside this run's scope (" ++ ", ".intercalate scope ++ ")"

def scopedUnit (unit : LedgerUnit) (scope : List String) : LedgerUnit :=
  if inScope unit.startingPaths scope then unit
  else
    { unit.emptyLive with
      carriedFingerprint := none, status := .outOfScope, unresolved := [outsideScope scope] }

/-- Why a proposed unit cannot enter the ledger, or `none` when it can. -/
def unitRefusal (seed : UnitSeed) : Option String :=
  if (skill.safeCoverageId seed.canonicalRefs).isNone then some "invalid canonical reference"
  else if skill.unknownBlockRefs seed ≠ [] then
    some ("unknown skill block references: " ++ ", ".intercalate (skill.unknownBlockRefs seed))
  else if seed.startingPaths = [] then some "no starting paths"
  else if (seed.startingPaths.filter fun path => !skill.isSafeRelativePath path) ≠ [] then
    some ("unsafe starting paths: " ++
      ", ".intercalate (seed.startingPaths.filter fun path => !skill.isSafeRelativePath path))
  else if seed.lifecycle.isNone ≠ seed.canonicalRefs.lifecycle.isNone then
    some "lifecycle and canonical_refs.lifecycle must appear together"
  else none

def seedUnit (seed : UnitSeed) (scope : List String) (priorStatus : PriorStatus)
    (priority : Option ℤ) : LedgerUnit :=
  let unit : LedgerUnit :=
    { coverageId := skill.coverageId seed.canonicalRefs
      canonicalRefs := seed.canonicalRefs
      surface := seed.surface
      boundary := seed.boundary
      subsystem := seed.subsystem
      attackClass := seed.attackClass
      lifecycle := seed.lifecycle
      startingPaths := seed.startingPaths
      ordinaryAttackClassBlock := seed.ordinaryAttackClassBlock
      selectedCompanionBlocks := seed.selectedCompanionBlocks
      excludedBlocks := seed.excludedBlocks
      priorStatus, priority
      hardening := none, failedAttempts := none, carriedFingerprint := none, decisions := []
      resolvedPriorLeads := none, notRechecked := none
      attempts := [], wave := 1, status := .planned
      agentId := none, reviewedPaths := [], localChecks := [], resultFingerprints := []
      unresolved := [] }
  if inScope seed.startingPaths scope then unit
  else { unit with status := .outOfScope, unresolved := [outsideScope scope] }

structure Refused where
  coverageId : String
  reason : String
deriving DecidableEq, Repr

structure Admitted where
  ledger : Ledger
  refused : List Refused

def admitUnit (acc : Admitted) (unit : LedgerUnit) : Admitted :=
  if acc.ledger.any fun existing => existing.coverageId == unit.coverageId then
    { acc with refused := acc.refused ++ [⟨unit.coverageId, "duplicate coverage_id"⟩] }
  else
    let next := sortLedger (acc.ledger ++ [unit])
    let errors := skill.ledgerErrors next
    if errors = [] then { acc with ledger := next }
    else
      { acc with
        refused := acc.refused ++ [⟨unit.coverageId, "; ".intercalate (errors.take 2)⟩] }

/-- Add units one at a time, keeping only those the validator accepts. -/
def admitUnits (ledger : Ledger) (units : List LedgerUnit) : Admitted :=
  units.foldl (admitUnit skill) ⟨sortLedger ledger, []⟩

def update (ledger : Ledger) (ids : List String) (f : LedgerUnit → LedgerUnit) : Ledger :=
  ledger.map fun unit => if unit.coverageId ∈ ids then f unit else unit

def assignUnit (agentId : String) (unit : LedgerUnit) : LedgerUnit :=
  { unit.emptyLive with status := .inProgress, agentId := some agentId }

def assign (ledger : Ledger) (ids : List String) (agentId : String) : Ledger :=
  update ledger ids (assignUnit agentId)

def revertUnit (maxFailures : ℕ) (unit : LedgerUnit) : LedgerUnit :=
  let failed := unit.failedAttempts.getD 0 + 1
  if maxFailures ≤ failed then
    { unit.emptyLive with
      status := .deferred, failedAttempts := some failed,
      unresolved := ["hunter_result_unusable"] }
  else { unit.emptyLive with status := .planned, failedAttempts := some failed }

def revert (ledger : Ledger) (ids : List String) (maxFailures : ℕ) : Ledger :=
  update ledger ids (revertUnit maxFailures)

def deferUnit (reason : String) (unit : LedgerUnit) : LedgerUnit :=
  { unit.emptyLive with status := .deferred, unresolved := [reason] }

def defer (ledger : Ledger) (ids : List String) (reason : String) : Ledger :=
  update ledger ids (deferUnit reason)

def resultUnit (result : HunterUnitResult) (agentId : String) (unit : LedgerUnit) : LedgerUnit :=
  { unit with
    status := result.disposition.status
    agentId := some agentId
    reviewedPaths := sortStrings (result.checks.flatMap Check.reviewedPaths).eraseDups
    localChecks := result.checks
    resultFingerprints :=
      if result.disposition = .candidate then result.candidateFingerprints else []
    unresolved := if result.disposition = .covered then [] else result.unresolved }

def applyUnitResult (ledger : Ledger) (result : HunterUnitResult) (agentId : String) : Ledger :=
  update ledger [result.coverageId] (resultUnit result agentId)

def reopenUnit (reason : String) (unit : LedgerUnit) : LedgerUnit :=
  if unit.status.terminal then
    { unit.emptyLive with
      attempts := unit.attempts ++
        [{ wave := unit.wave, status := unit.status, agentId := unit.agentId
           reviewedPaths := unit.reviewedPaths, localChecks := unit.localChecks
           resultFingerprints := unit.resultFingerprints, unresolved := unit.unresolved
           reassignmentReason := reason }]
      wave := unit.wave + 1
      status := .planned }
  else unit

/-- A critic's reassignment: the terminal record is archived and the unit starts over. -/
def reopen (ledger : Ledger) (ids : List String) (reason : String) : Ledger :=
  update ledger ids (reopenUnit reason)

def PriorStatus.gap : PriorStatus → Bool
  | .priorConfirmedChangedSource | .priorNeedsValidation | .priorDeferred | .priorBlocked
  | .priorOutOfScope | .priorCoveredChangedSource | .priorRejectedClaimChanged => true
  | _ => false

def rank (unit : LedgerUnit) : ℤ :=
  unit.priority.getD 1000 * 4 +
    (if unit.priorStatus.gap then 0
     else if unit.priorStatus = .priorCoveredSameSource then 2 else 1)

def LedgerUnit.awaitsHunter (unit : LedgerUnit) : Prop :=
  unit.status = .planned ∧ unit.carriedFingerprint = none

instance (unit : LedgerUnit) : Decidable unit.awaitsHunter := inferInstanceAs (Decidable (_ ∧ _))

/-- The units hunters may take this wave, in the skill's priority order. -/
def huntable (ledger : Ledger) : List LedgerUnit :=
  (ledger.filter fun unit => unit.awaitsHunter).insertionSort fun a b =>
    rank a < rank b ∨ rank a = rank b ∧ ¬jsLt b.coverageId a.coverageId

/-! ### What the transitions keep -/

/-- What every transition leaves of a unit: its identity, and its archived attempts. -/
structure Keeps (unit unit' : LedgerUnit) : Prop where
  coverageId : unit'.coverageId = unit.coverageId
  carried : unit'.carriedFingerprint = unit.carriedFingerprint
  attempts : unit.attempts <+: unit'.attempts

/-- A unit whose live evidence has been cleared, at a status that waits for a hunter's result. -/
structure Cleared (unit : LedgerUnit) : Prop where
  status : unit.status = .planned ∨ unit.status = .inProgress ∨ unit.status = .deferred
  listed : unit.resultFingerprints = []

lemma Keeps.refl (unit : LedgerUnit) : Keeps unit unit := ⟨rfl, rfl, List.prefix_refl _⟩

lemma Keeps.trans {u v w : LedgerUnit} (huv : Keeps u v) (hvw : Keeps v w) : Keeps u w :=
  ⟨hvw.coverageId.trans huv.coverageId, hvw.carried.trans huv.carried,
    huv.attempts.trans hvw.attempts⟩

lemma Cleared.not_terminal {unit : LedgerUnit} (h : Cleared unit) :
    unit.status.terminal = false := by
  rcases h.status with hs | hs | hs
  · rw [hs]; rfl
  · rw [hs]; rfl
  · rw [hs]; rfl

lemma keeps_assignUnit (agentId : String) (unit : LedgerUnit) :
    Keeps unit (assignUnit agentId unit) := ⟨rfl, rfl, List.prefix_refl _⟩

lemma cleared_assignUnit (agentId : String) (unit : LedgerUnit) :
    Cleared (assignUnit agentId unit) := ⟨.inr (.inl rfl), rfl⟩

lemma keeps_deferUnit (reason : String) (unit : LedgerUnit) :
    Keeps unit (deferUnit reason unit) := ⟨rfl, rfl, List.prefix_refl _⟩

lemma cleared_deferUnit (reason : String) (unit : LedgerUnit) :
    Cleared (deferUnit reason unit) := ⟨.inr (.inr rfl), rfl⟩

lemma keeps_revertUnit (maxFailures : ℕ) (unit : LedgerUnit) :
    Keeps unit (revertUnit maxFailures unit) := by
  unfold revertUnit
  dsimp only
  split_ifs
  · exact ⟨rfl, rfl, List.prefix_refl _⟩
  · exact ⟨rfl, rfl, List.prefix_refl _⟩

lemma revertUnit_status (maxFailures : ℕ) (unit : LedgerUnit) :
    (revertUnit maxFailures unit).status = .planned ∨
      (revertUnit maxFailures unit).status = .deferred := by
  unfold revertUnit
  dsimp only
  split_ifs
  · exact .inr rfl
  · exact .inl rfl

lemma cleared_revertUnit (maxFailures : ℕ) (unit : LedgerUnit) :
    Cleared (revertUnit maxFailures unit) := by
  refine ⟨?_, ?_⟩
  · rcases revertUnit_status maxFailures unit with h | h
    · exact .inl h
    · exact .inr (.inr h)
  · unfold revertUnit
    dsimp only
    split_ifs
    · rfl
    · rfl

/-- A unit a critic reassigns starts over; any other stays as it is. -/
lemma reopenUnit_cases (reason : String) (unit : LedgerUnit) :
    unit.status.terminal = true ∧ Keeps unit (reopenUnit reason unit) ∧
        (reopenUnit reason unit).status = .planned ∧
        (reopenUnit reason unit).resultFingerprints = [] ∨
      unit.status.terminal = false ∧ reopenUnit reason unit = unit := by
  unfold reopenUnit
  by_cases h : unit.status.terminal = true
  · rw [if_pos h]
    exact .inl ⟨h, ⟨rfl, rfl, List.prefix_append _ _⟩, rfl, rfl⟩
  · rw [if_neg h]
    exact .inr ⟨Bool.eq_false_iff.mpr h, rfl⟩

/-- A seeded unit carries no record and lists nothing, whether in scope or not. -/
lemma seedUnit_spec (seed : UnitSeed) (scope : List String) (priorStatus : PriorStatus)
    (priority : Option ℤ) :
    let unit := seedUnit skill seed scope priorStatus priority
    (unit.status = .planned ∨ unit.status = .outOfScope) ∧ unit.carriedFingerprint = none ∧
      unit.resultFingerprints = [] := by
  unfold seedUnit
  dsimp only
  split_ifs
  · exact ⟨.inl rfl, rfl, rfl⟩
  · exact ⟨.inr rfl, rfl, rfl⟩

lemma unitIds_map {f : LedgerUnit → LedgerUnit} {ledger : Ledger}
    (h : ∀ unit ∈ ledger, (f unit).coverageId = unit.coverageId) :
    unitIds (ledger.map f) = unitIds ledger := by
  unfold unitIds
  rw [List.map_map]
  exact List.map_congr_left h

lemma mem_unitIds {unit : LedgerUnit} {ledger : Ledger} (h : unit ∈ ledger) :
    unit.coverageId ∈ unitIds ledger := List.mem_map_of_mem h

/-- Two units of a ledger with distinct ids that share their id are the same unit. -/
lemma eq_of_coverageId {ledger : Ledger} (hdistinct : (unitIds ledger).Nodup)
    {u v : LedgerUnit} (hu : u ∈ ledger) (hv : v ∈ ledger)
    (h : u.coverageId = v.coverageId) : u = v := by
  exact List.inj_on_of_nodup_map hdistinct hu hv h

lemma mem_huntable {ledger : Ledger} {unit : LedgerUnit} :
    unit ∈ huntable ledger ↔ unit ∈ ledger ∧ unit.awaitsHunter := by
  unfold huntable
  rw [(List.perm_insertionSort _ _).mem_iff, List.mem_filter, decide_eq_true_iff]

lemma huntable_eq_nil {ledger : Ledger} :
    huntable ledger = [] ↔ ∀ unit ∈ ledger, ¬unit.awaitsHunter := by
  rw [List.eq_nil_iff_forall_not_mem]
  simp only [mem_huntable, not_and]

/-- Admission adds some of the proposed units, and none whose id is taken. -/
lemma admitUnits_spec (ledger : Ledger) (units : List LedgerUnit) :
    ∃ fresh, (admitUnits skill ledger units).ledger.Perm (ledger ++ fresh) ∧ fresh ⊆ units ∧
      ((unitIds ledger).Nodup → (unitIds (ledger ++ fresh)).Nodup) := by
  unfold admitUnits
  induction units using List.reverseRecOn with
  | nil =>
    refine ⟨[], ?_, List.Subset.refl _, fun h => ?_⟩
    · simpa [sortLedger] using List.perm_insertionSort _ ledger
    · simpa using h
  | append_singleton units unit ih =>
    obtain ⟨fresh, hperm, hsub, hnodup⟩ := ih
    rw [List.foldl_append, List.foldl_cons, List.foldl_nil]
    set acc := units.foldl (admitUnit skill) ⟨sortLedger ledger, []⟩
    have hkept : ∃ fresh, acc.ledger.Perm (ledger ++ fresh) ∧ fresh ⊆ units ++ [unit] ∧
        ((unitIds ledger).Nodup → (unitIds (ledger ++ fresh)).Nodup) :=
      ⟨fresh, hperm, fun u hu => List.mem_append_left _ (hsub hu), hnodup⟩
    unfold admitUnit
    dsimp only
    split_ifs with hdup herrors
    · exact hkept
    · refine ⟨fresh ++ [unit], ?_, ?_, fun h => ?_⟩
      · rw [← List.append_assoc]
        exact (List.perm_insertionSort _ _).trans (hperm.append_right _)
      · intro u hu
        rcases List.mem_append.mp hu with h | h
        · exact List.mem_append_left _ (hsub h)
        · exact List.mem_append_right _ h
      · have hnew : unit.coverageId ∉ unitIds (ledger ++ fresh) := by
          intro hmem
          obtain ⟨u, hu, hid⟩ := List.mem_map.mp hmem
          exact hdup (List.any_eq_true.mpr ⟨u, hperm.mem_iff.mpr hu, by simp [hid]⟩)
        rw [← List.append_assoc]
        unfold unitIds at hnew hnodup ⊢
        rw [List.map_append, List.nodup_append]
        refine ⟨hnodup h, by simp, ?_⟩
        intro id hid id' hid' heq
        rw [List.map_singleton, List.mem_singleton] at hid'
        exact hnew (hid' ▸ heq ▸ hid)
    · exact hkept

end Maple.Audit
