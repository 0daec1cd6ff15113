import Mathlib
import Maple.AuditHunt

/-! The audit's validation phases: a verifier for every candidate and every carried record, then a
second verifier for each final record. -/

namespace Maple.Audit

inductive RecordVerdict
  | verified (fingerprint : String)
  | replace (record : Finding)

/-- The verifiers of a run. An id is launched at most once, so its answer depends on the id alone.
A candidate verifier's decision is the verdict of the record it returns. -/
structure Verifiers where
  candidate : String → Answer Finding
  record : String → Answer RecordVerdict

structure ValidationItem where
  fingerprint : String
  carriedUnits : List String
deriving DecidableEq, Repr

/-- Every unit carrying a record with this fingerprint. -/
def carriedUnits (carried : List CarriedRecord) (fingerprint : String) : List String :=
  (carried.filter fun c => c.record.fingerprint = fingerprint).map CarriedRecord.coverageId

def itemFingerprints (s : EngineState) : List String :=
  ((s.candidates.entries.filter fun entry => entry.2 ≠ []).map Prod.fst) ++
    (s.carried.map fun c => c.record.fingerprint).eraseDups.filter fun fingerprint =>
      (s.candidates.get fingerprint).isNone

/-- One item per fingerprint; every unit that carries it takes the decision. -/
def items (s : EngineState) : List ValidationItem :=
  (sortStrings (itemFingerprints s)).map fun fingerprint =>
    ⟨fingerprint, carriedUnits s.carried fingerprint⟩

def reVerified (verdict : Verdict) : String :=
  "re-verified the carried record against current source: " ++
    match verdict with
    | .confirmed => "confirmed"
    | .needsValidation => "needs_validation"
    | .rejected => "rejected"

def recheck (record : Finding) (verifierId : String) : Check :=
  { agentId := verifierId, reviewedPaths := sortStrings (recordFiles record).eraseDups
    invariant := record.title, method := .source, result := reVerified record.verdict
    artifact := none }

def decideUnit (item : ValidationItem) (record : Finding) (verifierId : String)
    (unit : LedgerUnit) : LedgerUnit :=
  let check := recheck record verifierId
  let decisions := setEntry record.fingerprint record.verdict unit.decisions
  if unit.coverageId ∈ item.carriedUnits then
    if unit.status = .candidate ∧ unit.agentId ≠ none then
      { unit with
        reviewedPaths := sortStrings (unit.reviewedPaths ++ check.reviewedPaths).eraseDups
        localChecks := unit.localChecks ++ [check]
        resultFingerprints := (unit.resultFingerprints ++ [record.fingerprint]).eraseDups
        decisions }
    else
      { unit with
        status := .candidate, agentId := some verifierId
        reviewedPaths := check.reviewedPaths, localChecks := [check]
        resultFingerprints := [record.fingerprint], decisions }
  else if record.fingerprint ∈ unit.resultFingerprints then { unit with decisions }
  else unit

/-- Record a decision on every linked unit. -/
def recordDecision (item : ValidationItem) (record : Finding) (verifierId : String)
    (s : EngineState) : EngineState :=
  { s with
    ledger := s.ledger.map (decideUnit item record verifierId)
    findings := s.findings.set record.fingerprint record }

/-- An unvalidated candidate stays with its unresolved reason. -/
def markUnit (item : ValidationItem) (reason : String) (unit : LedgerUnit) : LedgerUnit :=
  if item.fingerprint ∈ unit.resultFingerprints ∨ unit.coverageId ∈ item.carriedUnits then
    { unit with unresolved := unit.unresolved ++ [item.fingerprint ++ ": " ++ reason] }
  else unit

variable (host : Host) (input : AuditRunInput) (verifiers : Verifiers)

/-- `remaining < 1`. -/
def noneLeft (s : EngineState) : Prop := ∃ left ∈ remaining input s, left < 1

instance (s : EngineState) : Decidable (noneLeft input s) := by
  unfold noneLeft
  infer_instance

/-- What one attempt at a decision comes to. -/
inductive Attempted
  | decided (record : Finding) (agentId : String)
  | budget
  | unusable
  | otherRootCause

def readVerdict (item : ValidationItem) (agentId : String) (record : Finding) : Attempted :=
  if record.fingerprint ≠ item.fingerprint then .otherRootCause
  else if host.findingsErrors [record] ≠ [] then .unusable
  else .decided record agentId

inductive ValidationPhase
  | waiting (retried : Bool)
  | cleared (retried : Bool)
  | running (retried : Bool)
  | failing (reason : String) (retried : Bool)
  | deciding (record : Finding) (agentId : String)
  | failed (reason : String)
  | marking (reason : String)
  | finished

structure Validation where
  item : ValidationItem
  index : ℕ
  phase : ValidationPhase

def Validation.agentId (task : Validation) (retried : Bool) : String :=
  "verify-" ++ toString (task.index + 1) ++ if retried then "-r1" else ""

/-- A result that cannot be used is tried once more with a fresh verifier. -/
def afterAttempt (retried : Bool) : Attempted → ValidationPhase
  | .decided record agentId => .deciding record agentId
  | .budget => .failed "validation_budget_exhausted"
  | .unusable => if retried then .failed "verifier_result_unusable" else .waiting true
  | .otherRootCause =>
    if retried then .failed "verifier_named_a_different_root_cause" else .waiting true

def stepValidation (task : Validation) (r : Run) : Validation × Run :=
  match task.phase with
  | .waiting retried =>
    if noneLeft input r.state then ({ task with phase := afterAttempt retried .budget }, r)
    else ({ task with phase := .cleared retried }, r)
  | .cleared retried =>
    match reserve input (task.agentId retried) r.state with
    | (.ok, s) => ({ task with phase := .running retried }, { r with state := s })
    | (_, s) => ({ task with phase := afterAttempt retried .unusable }, { r with state := s })
  | .running retried =>
    match verifiers.candidate (task.agentId retried) with
    | .refused reason => ({ task with phase := .failing reason retried }, r.update (giveBack reason))
    | .failed | .discarded _ =>
      ({ task with phase := afterAttempt retried .unusable }, r.launch (task.agentId retried))
    | .decoded record =>
      ({ task with
          phase := afterAttempt retried (readVerdict host task.item (task.agentId retried) record) },
        r.launch (task.agentId retried))
  | .failing reason retried =>
    ({ task with phase := afterAttempt retried .unusable }, r.update (fail reason))
  | .deciding record agentId =>
    ({ task with phase := .finished }, r.mutate (recordDecision task.item record agentId))
  | .failed reason =>
    ({ task with phase := .marking reason },
      r.update (fail (if reason = "validation_budget_exhausted" then reason
        else "candidate_validation_failed")))
  | .marking reason =>
    ({ task with phase := .finished },
      r.mutate fun s => { s with ledger := s.ledger.map (markUnit task.item reason) })
  | .finished => (task, r)

/-- A carried unit no verifier decided is still unassigned work. -/
def deferCarried (unit : LedgerUnit) : LedgerUnit :=
  if unit.status = .planned ∧ unit.carriedFingerprint ≠ none then
    { unit with
      status := .deferred
      unresolved :=
        if unit.unresolved = [] then ["carried_record_not_validated"] else unit.unresolved }
  else unit

def validations (s : EngineState) : List Validation :=
  (items s).mapIdx fun i item => ⟨item, i, .waiting false⟩

/-- Phase 3. -/
def runCandidateValidation (schedule : List ℕ) (r : Run) : Run :=
  (TaskPool.runPool (stepValidation host input verifiers) 10 schedule (validations r.state) r).mutate
    fun s => { s with ledger := s.ledger.map deferCarried }

/-! ### The final records -/

/-- Verdict, root cause, trace, execution input, impact or severity; rewording is not material. -/
def isMaterial (before after : Finding) : Prop :=
  before.verdict ≠ after.verdict ∨ before.trace ≠ after.trace ∨ before.claim ≠ after.claim

instance (before after : Finding) : Decidable (isMaterial before after) :=
  inferInstanceAs (Decidable (_ ∨ _ ∨ _))

def maxMaterialChain : ℕ := 3

inductive Unchecked
  | verifier | unfunded | unsettled
deriving DecidableEq

/-- Where the check of a record stands. `left` counts the verifiers its chain may still see: after
the last allowed replacement none is left. -/
inductive RecordPhase
  | waiting (current : Finding) (left : ℕ) (retried : Bool)
  | cleared (current : Finding) (left : ℕ) (retried : Bool)
  | running (current : Finding) (left : ℕ) (retried : Bool)
  | failing (reason : String) (current : Finding) (left : ℕ) (retried : Bool)
  | final (record : Finding)
  | unchecked (why : Unchecked)
  | noting (why : Unchecked)
  | noted
  | finished

structure RecordTask where
  record : Finding
  index : ℕ
  phase : RecordPhase

def RecordTask.agentId (task : RecordTask) (left : ℕ) (retried : Bool) : String :=
  "record-" ++ toString (task.index + 1) ++ "-" ++ toString (maxMaterialChain - left) ++
    if retried then "-r1" else ""

def usable (current : Finding) : RecordVerdict → Prop
  | .verified fingerprint => fingerprint = current.fingerprint
  | .replace record =>
    record.fingerprint = current.fingerprint ∧ host.findingsErrors [record] = []

instance (current : Finding) (verdict : RecordVerdict) : Decidable (usable host current verdict) := by
  unfold usable
  cases verdict <;> infer_instance

/-- What follows an answer that cannot be used. -/
def afterUnusable (current : Finding) (left : ℕ) (retried : Bool) : RecordPhase :=
  if retried then .unchecked .verifier else .waiting current (left + 1) true

def afterVerdict (current : Finding) (left : ℕ) (retried : Bool) (verdict : RecordVerdict) :
    RecordPhase :=
  if usable host current verdict then
    match verdict with
    | .verified _ => .final current
    | .replace record => if isMaterial current record then .waiting record left false else .final record
  else afterUnusable current left retried

def notRecheckedUnit (fingerprint : String) (unit : LedgerUnit) : LedgerUnit :=
  if fingerprint ∈ unit.resultFingerprints ∨ unit.carriedFingerprint = some fingerprint then
    { unit with
      notRechecked := some (unit.notRechecked.getD [] ++ [fingerprint]).eraseDups }
  else unit

def finalUnit (record : Finding) (unit : LedgerUnit) : LedgerUnit :=
  if record.fingerprint ∈ unit.resultFingerprints then
    { unit with decisions := setEntry record.fingerprint record.verdict unit.decisions }
  else unit

def keptUnchecked (record : Finding) : String :=
  "record " ++ record.fingerprint ++ " kept as " ++
    (match record.verdict with
      | .confirmed => "confirmed"
      | .needsValidation => "needs_validation"
      | .rejected => "rejected") ++
    " without its final re-check: the record verifier failed"

def settleUnchecked (record : Finding) (why : Unchecked) (s : EngineState) : EngineState :=
  if why = .verifier then
    { s with ledger := s.ledger.map (notRecheckedUnit record.fingerprint) }
  else { s with findings := s.findings.erase record.fingerprint }

def settleFinal (record : Finding) (s : EngineState) : EngineState :=
  { s with
    findings := s.findings.set record.fingerprint record
    ledger := s.ledger.map (finalUnit record) }

def stepRecord (task : RecordTask) (r : Run) : RecordTask × Run :=
  match task.phase with
  | .waiting current left retried =>
    if noneLeft input r.state then ({ task with phase := .unchecked .unfunded }, r)
    else
      match left with
      | 0 => ({ task with phase := .unchecked .unsettled }, r)
      | left + 1 => ({ task with phase := .cleared current left retried }, r)
  | .cleared current left retried =>
    match reserve input (task.agentId left retried) r.state with
    | (.ok, s) => ({ task with phase := .running current left retried }, { r with state := s })
    | (_, s) => ({ task with phase := afterUnusable current left retried }, { r with state := s })
  | .running current left retried =>
    match verifiers.record (task.agentId left retried) with
    | .refused reason =>
      ({ task with phase := .failing reason current left retried }, r.update (giveBack reason))
    | .failed | .discarded _ =>
      ({ task with phase := afterUnusable current left retried },
        r.launch (task.agentId left retried))
    | .decoded verdict =>
      ({ task with phase := afterVerdict host current left retried verdict },
        r.launch (task.agentId left retried))
  | .failing reason current left retried =>
    ({ task with phase := afterUnusable current left retried }, r.update (fail reason))
  | .final record => ({ task with phase := .finished }, r.mutate (settleFinal record))
  | .unchecked why => ({ task with phase := .noting why }, r.mutate (settleUnchecked task.record why))
  | .noting why =>
    ({ task with phase := .noted },
      if why = .verifier then r.update (gap (keptUnchecked task.record)) else r)
  | .noted => ({ task with phase := .finished }, r.update (fail "record_verification_incomplete"))
  | .finished => (task, r)

def sortRecords (records : List Finding) : List Finding :=
  records.insertionSort fun a b => ¬jsLt b.fingerprint a.fingerprint

def recordTasks (s : EngineState) : List RecordTask :=
  (sortRecords (s.findings.values.filter fun record => record.verdict ≠ .rejected)).mapIdx
    fun i record => ⟨record, i, .waiting record (maxMaterialChain + 1) false⟩

/-- Phase 5; `quick` has made these checks in phase 3. -/
def runRecordVerification (schedule : List ℕ) (r : Run) : Run :=
  if input.quick then r
  else TaskPool.runPool (stepRecord host input verifiers) 36 schedule (recordTasks r.state) r

/-! ### What is stored -/

def finalFindings (s : EngineState) : List Finding := sortRecords s.findings.values

/-- Decided findings, and the unchanged prior rejections a hunter raised again. -/
def assembleFindings (s : EngineState) : List Finding :=
  let raised := s.ledger.flatMap LedgerUnit.resultFingerprints
  sortRecords (finalFindings s ++ s.suppressed.values.filter fun record =>
    record.fingerprint ∈ raised ∧ (s.findings.get record.fingerprint).isNone)

/-- Each record that passes the validator on its own is stored, if together they pass too. -/
def storedFindings (s : EngineState) : List Finding :=
  let valid := (assembleFindings s).filter fun record => host.findingsErrors [record] = []
  if host.findingsErrors valid = [] then valid else []

end Maple.Audit
