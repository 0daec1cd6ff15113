import Mathlib
import Maple.AuditValidate

/-! How an audit begins, from the ledger and the findings of the run before it, and a whole run. -/

namespace Maple.Audit

def byFingerprint (findings : List Finding) : InsertMap String Finding :=
  InsertMap.setAll Finding.fingerprint .empty findings

/-- A prior unit as current, unassigned work with its archive kept. -/
def replan (unit : LedgerUnit) (priorStatus : PriorStatus) (carriedFingerprint : Option String) :
    LedgerUnit :=
  { unit.emptyLive with
    carriedFingerprint, decisions := [], failedAttempts := none, resolvedPriorLeads := none
    priorStatus, status := .planned }

/-- The open records a unit links. -/
def openRecords (findings : List Finding) (unit : LedgerUnit) : List Finding :=
  (unit.resultFingerprints.filterMap (byFingerprint findings).get).filter fun record =>
    record.verdict ≠ .rejected

def strongestOpen (records : List Finding) : Option Finding :=
  (records.find? fun record => record.verdict = .confirmed).or records.head?

def closedStatus (findings : List Finding) (changed : List String → Bool) (unit : LedgerUnit) :
    PriorStatus :=
  let linked := unit.resultFingerprints.filterMap (byFingerprint findings).get
  let unitChanged := changed (unit.startingPaths ++ unit.reviewedPaths)
  if unit.status = .deferred ∨ unit.status = .planned ∨ unit.status = .inProgress ∨
      unit.status = .candidate ∧ ∃ fingerprint ∈ unit.resultFingerprints,
        (byFingerprint findings).get fingerprint = none then .priorDeferred
  else if unit.status = .blocked then .priorBlocked
  else if unit.status = .outOfScope then .priorOutOfScope
  else if unit.status = .candidate ∧ (∃ record ∈ linked, record.verdict = .rejected) ∧ unitChanged then
    .priorRejectedClaimChanged
  else if unitChanged then .priorCoveredChangedSource
  else .priorCoveredSameSource

/-- What becomes of a prior unit, with the records it carries on. -/
def planUnit (findings : List Finding) (changed : List String → Bool) (unit : LedgerUnit) :
    LedgerUnit × List CarriedRecord :=
  if unit.status = .notApplicable then (unit, [])
  else
    let records := openRecords findings unit
    match strongestOpen records with
    | none => (replan unit (closedStatus findings changed unit) none, [])
    | some strongest =>
      if records.any fun record => changed (recordFiles record).eraseDups then
        (replan unit (if strongest.verdict = .confirmed then .priorConfirmedChangedSource
          else .priorNeedsValidation) none, [])
      else
        (replan unit (if strongest.verdict = .confirmed then .priorConfirmedSameSource
          else .priorNeedsValidation) (some strongest.fingerprint),
        records.map fun record => ⟨record, unit.coverageId⟩)

structure PriorPlan where
  units : List LedgerUnit
  carried : List CarriedRecord
  suppressed : InsertMap String Finding

def planFromPrior (prior : PriorRun) (changed : List String → Bool) : PriorPlan where
  units := prior.ledger.map fun unit => (planUnit prior.findings changed unit).1
  carried := prior.ledger.flatMap fun unit => (planUnit prior.findings changed unit).2
  suppressed := byFingerprint (prior.findings.filter fun record =>
    record.verdict = .rejected ∧ ¬changed (recordFiles record).eraseDups)

variable (host : Host) (input : AuditRunInput)

def AuditRunInput.plan (input : AuditRunInput) : PriorPlan :=
  match input.prior with
  | none => ⟨[], [], .empty⟩
  | some prior => planFromPrior prior input.changedSincePrior

/-- The prior units under this run's scope: they are seeded before any new unit. -/
def AuditRunInput.priorUnits (input : AuditRunInput) : List LedgerUnit :=
  input.plan.units.map fun unit => scopedUnit unit input.scopePaths

def AuditRunInput.inScopeIds (input : AuditRunInput) : List String :=
  unitIds (input.priorUnits.filter fun unit => unit.status ≠ .outOfScope)

def seeds (units : List SeedUnit) : List LedgerUnit :=
  ((units.filter fun seed => (unitRefusal host.toSkill seed.toUnitSeed).isNone).map fun seed =>
    seedUnit host.toSkill seed.toUnitSeed input.scopePaths
      (if input.prior.isNone then .none else .new) seed.priority).filter
    fun unit => unit.coverageId ∉ unitIds input.priorUnits

def admittedSeeds (units : List SeedUnit) : Admitted :=
  admitUnits host.toSkill (admitUnits host.toSkill [] input.priorUnits).ledger
    (seeds host input units)

def seedRefusals (units : List SeedUnit) : List String :=
  (units.filterMap fun seed => (unitRefusal host.toSkill seed.toUnitSeed).map fun reason =>
    seed.surface ++ " / " ++ seed.attackClass ++ ": " ++ reason) ++
    (admittedSeeds host input units).refused.map fun refused =>
      refused.coverageId ++ ": " ++ refused.reason

/-- Reconnaissance's last step: the ledger, the carried records and the suppressed claims. -/
def seedState (units : List SeedUnit) (s : EngineState) : EngineState :=
  let refused := seedRefusals host input units
  let s := if refused = [] then s
    else gap ("synthesis proposed " ++ toString refused.length ++ " units the ledger refused") s
  { s with
    ledger := (admittedSeeds host input units).ledger
    carried := input.plan.carried.filter fun c => c.coverageId ∈ input.inScopeIds
    suppressed := input.plan.suppressed }

/-- What reconnaissance's agents have come to: the calls and reasons they left in the state, and
the synthesised units, or `none` when the run cannot go on. -/
structure Recon where
  spent : ℕ
  usedIds : List String
  halted : Option String
  gaps : List String
  incomplete : List String
  units : Option (List SeedUnit)

def Recon.state (recon : Recon) : EngineState :=
  { initialState with
    spent := recon.spent, usedIds := recon.usedIds, halted := recon.halted, gaps := recon.gaps
    incomplete := recon.incomplete }

/-- The order in which concurrent agents move, phase by phase. -/
structure Schedule where
  hunters : ℕ → List ℕ
  candidates : List ℕ
  records : List ℕ

/-- The state in which a run's validation begins. -/
def huntedState (agents : Agents) (recon : Recon) (schedule : Schedule) (units : List SeedUnit) :
    Run :=
  runHunting host input agents schedule.hunters (seedState host input units recon.state)

def runPhases (agents : Agents) (verifiers : Verifiers) (recon : Recon) (schedule : Schedule) :
    EngineState :=
  match recon.units with
  | none => recon.state
  | some units =>
    (runRecordVerification host input verifiers schedule.records
      (runCandidateValidation host input verifiers schedule.candidates
        (huntedState host input agents recon schedule units))).state

/-- What a run stores, as the next run reads it. -/
def runAudit (agents : Agents) (verifiers : Verifiers) (recon : Recon) (schedule : Schedule) :
    PriorRun :=
  let s := runPhases host input agents verifiers recon schedule
  ⟨s.ledger, storedFindings host s⟩

end Maple.Audit
