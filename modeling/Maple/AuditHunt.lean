import Mathlib
import Maple.AuditLedger
import Maple.TaskPool

/-! The audit engine's shared state, the one way it calls an agent, and its hunting phase: waves of
concurrent hunters with coverage critics after them. -/

namespace Maple.Audit

inductive StepKind
  | entrypoint | propagation | sink
deriving DecidableEq, Repr

structure TraceStep where
  kind : StepKind
  file : String
  scope : String
deriving DecidableEq, Repr

structure Evidence where
  file : String
deriving DecidableEq, Repr

inductive ConditionKind
  | authenticationLevel | authorizationRole | userInteraction | systemConfiguration
  | networkRouting | environmentalDependency | dataState | timingDependency
  | thirdPartyDependency
deriving DecidableEq, Repr

inductive Score
  | informational | low | medium | high | critical
deriving DecidableEq, Repr

inductive Confidence
  | low | medium | high
deriving DecidableEq, Repr

/-- What only a confirmed record states. -/
structure Confirmation where
  rootCause : String
  conditions : List ConditionKind
  payloads : List String
  instructions : List String
  likelihood : Score
  impact : Score
  overallSeverity : Score
  confidence : Confidence
deriving DecidableEq, Repr

inductive Claim
  | confirmed (confirmation : Confirmation)
  | needsValidation (claimedRootCause : String)
  | rejected (claimedRootCause : String)
deriving DecidableEq, Repr

def Claim.verdict : Claim → Verdict
  | .confirmed _ => .confirmed
  | .needsValidation _ => .needsValidation
  | .rejected _ => .rejected

/-- A finding record. `details` stands for the fields that only the findings validator reads. -/
structure Finding where
  fingerprint : String
  title : String
  trace : List TraceStep
  evidence : List Evidence
  claim : Claim
  details : String
deriving DecidableEq, Repr

def Finding.verdict (record : Finding) : Verdict := record.claim.verdict

inductive Proposal
  | confirmed (confirmation : Confirmation)
  | needsValidation (claimedRootCause : String)
deriving DecidableEq, Repr

structure Candidate where
  fingerprint : String
  title : String
  trace : List TraceStep
  evidence : List Evidence
  proposal : Proposal
  details : String
deriving DecidableEq, Repr

def Proposal.claim : Proposal → Claim
  | .confirmed confirmation => .confirmed confirmation
  | .needsValidation rootCause => .needsValidation rootCause

/-- A candidate as the finding record it proposes. -/
def candidateRecord (candidate : Candidate) : Finding :=
  { fingerprint := candidate.fingerprint, title := candidate.title, trace := candidate.trace
    evidence := candidate.evidence, claim := candidate.proposal.claim
    details := candidate.details }

structure UncoveredSurface where
  surface : String
  boundary : String
  subsystem : String
  attackClass : String
  startingPaths : List String
  reason : String
deriving DecidableEq, Repr

structure HunterResult where
  units : List HunterUnitResult
  candidates : List Candidate
  hardening : List String
  uncovered : List UncoveredSurface
deriving DecidableEq, Repr

structure CriticResult where
  missingUnits : List MissingUnit
  reassignIds : List String
  resolvedPriorLeads : List String
deriving DecidableEq, Repr

structure CandidateEntry where
  candidate : Candidate
  agentId : String
deriving DecidableEq, Repr

/-- A prior record carried into this run's validation because its source did not change. -/
structure CarriedRecord where
  record : Finding
  coverageId : String
deriving DecidableEq, Repr

structure EngineState where
  ledger : Ledger
  spent : ℕ
  candidates : InsertMap String (List CandidateEntry)
  uncovered : List UncoveredSurface
  carried : List CarriedRecord
  suppressed : InsertMap String Finding
  findings : InsertMap String Finding
  gaps : List String
  incomplete : List String
  criticClean : Bool
  usedIds : List String
  halted : Option String

def initialState : EngineState :=
  { ledger := [], spent := 0, candidates := .empty, uncovered := [], carried := []
    suppressed := .empty, findings := .empty, gaps := [], incomplete := [], criticClean := false
    usedIds := [], halted := none }

inductive Profile
  | quick | standard | deep
deriving DecidableEq, Repr

structure PriorRun where
  ledger : Ledger
  findings : List Finding

structure AuditRunInput where
  profile : Profile
  scopePaths : List String
  budget : Option ℕ
  prior : Option PriorRun
  changedSincePrior : List String → Bool
  unitsPerHunter : Option ℕ+
  maxWaves : Option ℕ

/-- The skill's scripts with the findings validator, and `Math.ceil(balance * 0.3)`, whose product
is a rounded one. -/
structure Host extends Skill where
  findingsErrors : List Finding → List String
  thirtyPercent : ℤ → ℤ

/-- What one call of an agent comes to: the host refuses to launch it, it fails, its answer breaks
its contract at some paths, or the answer is decoded. -/
inductive Answer (α : Type)
  | refused (reason : String)
  | failed
  | discarded (issuePaths : List String)
  | decoded (value : α)

/-- The agents of a run. An id is launched at most once, so its answer depends on the id alone. -/
structure Agents where
  hunter : String → Answer HunterResult
  critic : String → Answer CriticResult

/-- The engine's state, with the agents launched so far and every ledger the parent has written,
the newest first. -/
structure Run where
  state : EngineState
  launched : List String
  ledgers : List Ledger

namespace Run

def start (s : EngineState) : Run := ⟨s, [], [s.ledger]⟩

def update (r : Run) (f : EngineState → EngineState) : Run := { r with state := f r.state }

/-- A change of the ledger, under the parent's permit. -/
def mutate (r : Run) (f : EngineState → EngineState) : Run :=
  { r with state := f r.state, ledgers := (f r.state).ledger :: r.ledgers }

def launch (r : Run) (agentId : String) : Run := { r with launched := agentId :: r.launched }

end Run

variable (host : Host) (input : AuditRunInput) (agents : Agents)

/-- How many invocations are left, `none` without a budget. -/
def remaining (s : EngineState) : Option ℤ :=
  if s.halted.isSome then some 0 else input.budget.map fun budget => budget - s.spent

inductive Reserved
  | ok | budget | duplicate | halted
deriving DecidableEq, Repr

def overBudget (s : EngineState) : Prop := ∃ budget ∈ input.budget, budget ≤ s.spent

instance (s : EngineState) : Decidable (overBudget input s) := by
  unfold overBudget
  infer_instance

/-- Spend one invocation atomically, or refuse. -/
def reserve (agentId : String) (s : EngineState) : Reserved × EngineState :=
  if agentId ∈ s.usedIds then (.duplicate, s)
  else if s.halted.isSome then (.halted, s)
  else if overBudget input s then (.budget, s)
  else (.ok, { s with spent := s.spent + 1, usedIds := s.usedIds ++ [agentId] })

def fail (reason : String) (s : EngineState) : EngineState :=
  if reason ∈ s.incomplete then s else { s with incomplete := s.incomplete ++ [reason] }

def gap (reason : String) (s : EngineState) : EngineState :=
  if reason ∈ s.gaps then s else { s with gaps := s.gaps ++ [reason] }

/-- The host refused the agent: its invocation is given back and nothing launches after it. -/
def giveBack (reason : String) (s : EngineState) : EngineState :=
  { s with spent := s.spent - 1, halted := some (s.halted.getD reason) }

def halt (reason : String) (s : EngineState) : EngineState := fail reason (giveBack reason s)

inductive AttemptResult (α : Type)
  | decoded (value : α)
  | discarded (issuePaths : List String)
  | none

/-- One fresh agent, called alone: its decoded answer, or why there is none. -/
def attempt {α : Type} (agentId : String) (answer : Answer α) (r : Run) : AttemptResult α × Run :=
  match reserve input agentId r.state with
  | (.ok, s) =>
    match answer with
    | .refused reason => (.none, { r with state := halt reason s })
    | .failed => (.none, { r with state := s }.launch agentId)
    | .discarded issuePaths => (.discarded issuePaths, { r with state := s }.launch agentId)
    | .decoded value => (.decoded value, { r with state := s }.launch agentId)
  | (_, s) => (.none, { r with state := s })

def AttemptResult.value {α : Type} : AttemptResult α → Option α
  | .decoded value => some value
  | _ => Option.none

/-- An agent with one repair turn: a broken result goes to a fresh agent. -/
def invokeRepairing {α : Type} (agentId : String) (answers : String → Answer α) (r : Run) :
    Option α × Run :=
  let first := attempt input agentId (answers agentId) r
  match first.1 with
  | .decoded value => (some value, first.2)
  | .none => (none, first.2)
  | .discarded _ =>
    let again := attempt input (agentId ++ "-r1") (answers (agentId ++ "-r1")) first.2
    (again.1.value, again.2)

/-! ### Hunters -/

def budgetDefer : String := "budget_cannot_reserve_critics_and_validation"

def maxUnitFailures : ℕ := 2

def candidateFiles (candidate : Candidate) : List String :=
  candidate.trace.map TraceStep.file ++ candidate.evidence.map Evidence.file

def recordFiles (record : Finding) : List String :=
  record.trace.map TraceStep.file ++ record.evidence.map Evidence.file

/-- An unchanged prior rejection suppresses only the same fingerprint over the same files. -/
def isSuppressed (s : EngineState) (candidate : Candidate) : Bool :=
  match s.suppressed.get candidate.fingerprint with
  | none => false
  | some prior => (candidateFiles candidate).all fun file => file ∈ recordFiles prior

def reportedIds (result : HunterResult) : List String :=
  result.units.map HunterUnitResult.coverageId

def validCandidates (result : HunterResult) : List Candidate :=
  result.candidates.filter fun candidate =>
    candidate.fingerprint ∈ result.units.flatMap HunterUnitResult.candidateFingerprints ∧
      host.findingsErrors [candidateRecord candidate] = []

def knownFingerprint (s : EngineState) (result : HunterResult) (fingerprint : String) : Prop :=
  fingerprint ∈ (validCandidates host result).map Candidate.fingerprint ∨
    (s.suppressed.get fingerprint).isSome

instance (s : EngineState) (result : HunterResult) (fingerprint : String) :
    Decidable (knownFingerprint host s result fingerprint) := inferInstanceAs (Decidable (_ ∨ _))

def goodUnits (s : EngineState) (agentId : String) (result : HunterResult) :
    List HunterUnitResult :=
  result.units.filter fun unit =>
    unit.checks ≠ [] ∧
      (∀ check ∈ unit.checks,
        check.agentId = agentId ∧ check.method = .source ∧ check.artifact = none) ∧
      ∀ fingerprint ∈ unit.candidateFingerprints, knownFingerprint host s result fingerprint

structure Applied where
  ledger : Ledger
  ok : List String

def applyUnit (agentId : String) (acc : Applied) (unit : HunterUnitResult) : Applied :=
  let next := applyUnitResult acc.ledger unit agentId
  if host.ledgerErrors next = [] then ⟨next, acc.ok ++ [unit.coverageId]⟩ else acc

def addHardening (hardening : List String) (unit : LedgerUnit) : LedgerUnit :=
  if hardening = [] then unit
  else { unit with hardening := some (unit.hardening.getD [] ++ hardening) }

def linkedFingerprints (result : HunterResult) (ok : List String) : List String :=
  (result.units.filter fun unit => unit.coverageId ∈ ok).flatMap
    HunterUnitResult.candidateFingerprints

def addCandidate (agentId : String) (acc : InsertMap String (List CandidateEntry))
    (candidate : Candidate) : InsertMap String (List CandidateEntry) :=
  acc.set candidate.fingerprint ((acc.get candidate.fingerprint).getD [] ++ [⟨candidate, agentId⟩])

/-- Apply one hunter result to the units it owned; what it got wrong goes back to `planned`. -/
def applyHunterResult (owned : List String) (agentId : String) (result : Option HunterResult)
    (s : EngineState) : EngineState :=
  match result with
  | none => { s with ledger := revert s.ledger owned maxUnitFailures }
  | some result =>
    let reported := reportedIds result
    if reported.length ≠ owned.dedup.length ∨ ¬(∀ id ∈ reported, id ∈ owned) ∨ ¬reported.Nodup then
      { s with ledger := revert s.ledger owned maxUnitFailures }
    else
      let applied := (goodUnits host s agentId result).foldl (applyUnit host agentId) ⟨s.ledger, []⟩
      let failed := owned.filter fun id => id ∉ applied.ok
      let linked := linkedFingerprints result applied.ok
      let raised := (validCandidates host result).filter fun candidate =>
        candidate.fingerprint ∈ linked ∧ ¬isSuppressed s candidate
      { s with
        ledger := update (revert applied.ledger failed maxUnitFailures) applied.ok
          (addHardening result.hardening)
        candidates := raised.foldl (addCandidate agentId) s.candidates
        uncovered := s.uncovered ++ result.uncovered }

/-- Where a hunter of a wave stands. -/
inductive HunterPhase
  | waiting
  | running
  | failing (reason : String)
  | returning (result : Option HunterResult)
  | finished

structure Hunter where
  agentId : String
  owned : List String
  phase : HunterPhase

/-- The next thing a hunter does that others can see. -/
def stepHunter (hunter : Hunter) (r : Run) : Hunter × Run :=
  match hunter.phase with
  | .waiting =>
    match reserve input hunter.agentId r.state with
    | (.ok, s) => ({ hunter with phase := .running }, { r with state := s })
    | (_, s) => ({ hunter with phase := .returning none }, { r with state := s })
  | .running =>
    match agents.hunter hunter.agentId with
    | .refused reason => ({ hunter with phase := .failing reason }, r.update (giveBack reason))
    | .failed | .discarded _ =>
      ({ hunter with phase := .returning none }, r.launch hunter.agentId)
    | .decoded value =>
      ({ hunter with phase := .returning (some value) }, r.launch hunter.agentId)
  | .failing reason => ({ hunter with phase := .returning none }, r.update (fail reason))
  | .returning result =>
    ({ hunter with phase := .finished },
      r.mutate (applyHunterResult host hunter.owned hunter.agentId result))
  | .finished => (hunter, r)

/-- A hunter has at most four moves: its reservation, its answer, a refusal's record and its
return. -/
def runWave (schedule : List ℕ) (hunters : List Hunter) (r : Run) : Run :=
  TaskPool.runPool (stepHunter host input agents) 4 schedule hunters r

/-! ### Critics -/

inductive CriticKind
  | postWave | finalClean | gap
deriving DecidableEq, Repr

def criticId (wave : ℕ) : CriticKind → String
  | .postWave => "critic-w" ++ toString wave ++ "-post"
  | .gap => "critic-w" ++ toString wave ++ "-gap"
  | .finalClean => "critic-w" ++ toString wave ++ "-final"

def markLeads (resolved : List String) (unit : LedgerUnit) : LedgerUnit :=
  let linked := unit.resultFingerprints ++ unit.carriedFingerprint.toList
  let leads := linked.filter fun fingerprint => fingerprint ∈ resolved
  if leads = [] then unit
  else
    { unit with
      resolvedPriorLeads := some (unit.resolvedPriorLeads.getD [] ++ leads).eraseDups }

def acceptedSeeds (result : CriticResult) (ledger : Ledger) : List LedgerUnit :=
  ((result.missingUnits.filter fun unit => (unitRefusal host.toSkill unit.toUnitSeed).isNone).map
    fun unit => seedUnit host.toSkill unit.toUnitSeed input.scopePaths
      (if input.prior.isNone then .none else .new) none).filter
    fun unit => ¬ledger.any fun existing => existing.coverageId == unit.coverageId

def reassigned (result : CriticResult) (ledger : Ledger) : List String :=
  result.reassignIds.filter fun id =>
    ledger.any fun unit => unit.coverageId == id && unit.status.terminal

/-- The ledger with a critic's accepted seeds, reassignments and marks, before any deferral. -/
def markedLedger (agentId : String) (result : CriticResult) (ledger : Ledger) : Ledger :=
  (reopen (admitUnits host.toSkill ledger (acceptedSeeds host input result ledger)).ledger
    (reassigned result ledger) ("coverage critic " ++ agentId ++ " reassigned this unit")).map
    (markLeads result.resolvedPriorLeads)

/-- The units a critic has made work of: new or reopened, and planned. -/
def acceptedIds (agentId : String) (result : CriticResult) (ledger : Ledger) : List String :=
  let admitted := (admitUnits host.toSkill ledger (acceptedSeeds host input result ledger)).ledger
  let newIds := (admitted.filter fun unit =>
    ¬ledger.any fun existing => existing.coverageId == unit.coverageId).map LedgerUnit.coverageId
  ((newIds ++ reassigned result ledger).filter fun id =>
    ((markedLedger host input agentId result ledger).find? fun unit => unit.coverageId == id).map
      LedgerUnit.status = some .planned).dedup

/-- Apply what a critic answered; with a reason, accepted work is recorded as deferred. -/
def applyCriticResult (agentId : String) (deferReason : Option String) (result : CriticResult)
    (s : EngineState) : EngineState :=
  let marked := markedLedger host input agentId result s.ledger
  { s with
    ledger := match deferReason with
      | none => marked
      | some reason => defer marked (acceptedIds host input agentId result s.ledger) reason
    uncovered := [] }

def criticRefusals (result : CriticResult) (ledger : Ledger) : List String :=
  (result.missingUnits.filterMap fun unit =>
    (unitRefusal host.toSkill unit.toUnitSeed).map fun reason =>
      unit.surface ++ " / " ++ unit.attackClass ++ ": " ++ reason) ++
    (admitUnits host.toSkill ledger (acceptedSeeds host input result ledger)).refused.map
      fun refused => refused.coverageId ++ ": " ++ refused.reason

/-- Run one critic and apply what it accepts: the amount of accepted work, or `none`. -/
def runCritic (kind : CriticKind) (wave : ℕ) (deferReason : Option String) (r : Run) :
    Option ℕ × Run :=
  let agentId := criticId wave kind
  let answered := invokeRepairing input agentId agents.critic r
  match answered.1 with
  | none => (none, answered.2)
  | some result =>
    let before := answered.2.state.ledger
    let refused := criticRefusals host input result before
    let applied := answered.2.mutate (applyCriticResult host input agentId deferReason result)
    (some (acceptedIds host input agentId result before).length,
      if refused = [] then applied
      else applied.update (gap (agentId ++ " proposed " ++ toString refused.length ++
        " units the ledger refused")))

/-! ### Waves -/

def fingerprintCount (s : EngineState) : ℕ :=
  (s.candidates.entries.map Prod.fst ++ s.carried.map fun c => c.record.fingerprint).dedup.length

/-- Verifier calls the fingerprints already found will need, or 30% of the balance when larger. -/
def validationReserve (s : EngineState) (perCandidate balance : ℤ) : ℤ :=
  max (fingerprintCount s * perCandidate) (host.thirtyPercent balance)

def groupKey (unit : LedgerUnit) : String := unit.subsystem ++ "\x00" ++ unit.boundary

def chunks (size : ℕ) (group : List LedgerUnit) : List (List LedgerUnit) :=
  (List.range ((group.length + size - 1) / size)).map fun i => (group.drop (i * size)).take size

def groupUnits (units : List LedgerUnit) (size : ℕ+) : List (List LedgerUnit) :=
  (InsertMap.groupAll groupKey units).values.flatMap (chunks size)

def hunterId (wave i : ℕ) : String := "hunter-w" ++ toString wave ++ "-" ++ toString (i + 1)

def waveHunters (wave : ℕ) (launch : List (List LedgerUnit)) : List Hunter :=
  launch.mapIdx fun i group => ⟨hunterId wave i, unitIds group, .waiting⟩

def AuditRunInput.quick (input : AuditRunInput) : Bool := input.profile = .quick

def AuditRunInput.perCandidate (input : AuditRunInput) : ℤ := if input.quick then 1 else 2

def AuditRunInput.waveLimit (input : AuditRunInput) : ℕ :=
  if input.quick then 1 else input.maxWaves.getD 6

def AuditRunInput.groupSize (input : AuditRunInput) : ℕ+ :=
  input.unitsPerHunter.getD (if input.profile = .deep then 1 else 3)

def deferQueued (reason : String) (r : Run) : Run :=
  let ids := unitIds (huntable r.state.ledger)
  if ids = [] then r
  else (r.mutate fun s => { s with ledger := defer s.ledger ids reason }).update (gap reason)

/-- Whether the balance still funds the final-clean critic beside the validation reserve. -/
def fundsGapCritic (s : EngineState) : Prop :=
  ∀ left ∈ remaining input s,
    input.budget.isNone ∨ left - validationReserve host s input.perCandidate left ≥ 1

instance (s : EngineState) : Decidable (fundsGapCritic host input s) := by
  unfold fundsGapCritic
  infer_instance

/-- Defer what the run cannot fund and, when the final-clean critic is unspent, spend it to record
the gap. -/
def recordGap (wave : ℕ) (reason : String) (finalSpent : Bool) (r : Run) : Run :=
  let queued := deferQueued reason r
  if input.quick ∨ finalSpent then queued
  else if fundsGapCritic host input queued.state then
    (runCritic host input agents .gap wave (some reason) queued).2
  else queued

/-- How many groups of a wave the balance funds, beside its critics and the validation reserve. -/
def allowance (s : EngineState) (groups : ℕ) : ℤ :=
  match input.budget with
  | none => groups
  | some _ =>
    let critics : ℤ := 1 + if input.quick then 0 else 1
    let left := (remaining input s).getD 0
    left - critics - validationReserve host s input.perCandidate (left - critics)

/-- Hunt one wave; `none` when no hunter can be funded. -/
def launchWave (schedule : List ℕ) (wave : ℕ) (r : Run) : Option Run :=
  let groups := groupUnits (huntable r.state.ledger) input.groupSize
  let funded := allowance host input r.state groups.length
  if funded ≤ 0 then none
  else
    let launch := groups.take funded.toNat
    let unfunded := unitIds (groups.drop launch.length).flatten
    let deferred :=
      if unfunded = [] then r
      else (r.mutate fun s => { s with ledger := defer s.ledger unfunded budgetDefer }).update
        (gap budgetDefer)
    let hunters := waveHunters wave launch
    let assigned := deferred.mutate fun s =>
      { s with
        ledger := hunters.foldl (fun ledger hunter => assign ledger hunter.owned hunter.agentId)
          s.ledger }
    some (runWave host input agents schedule hunters assigned)

/-- What follows the post-wave critic of a wave that left no work: the final-clean critic. `more`
is the next wave, when the wave limit allows one. -/
def finalCritic (wave : ℕ) (more : Option (Run → Run)) (r : Run) : Run :=
  let clean := runCritic host input agents .finalClean wave none r
  match clean.1 with
  | none => clean.2.update (fail "critic_unavailable: final-clean critic")
  | some 0 => clean.2.update fun s => { s with criticClean := true }
  | some (_ + 1) =>
    match more with
    | none => recordGap host input agents wave "max_waves_reached" true clean.2
    | some next => next clean.2

def postWave (wave : ℕ) (more : Option (Run → Run)) (r : Run) : Run :=
  let critic := runCritic host input agents .postWave wave
    (if input.quick then some "quick_profile_final_critic" else none) r
  match critic.1 with
  | none =>
    critic.2.update (fail ("critic_unavailable: post-wave critic after wave " ++ toString wave))
  | some accepted =>
    if input.quick then
      (deferQueued "quick_profile_final_critic" critic.2).update
        (gap "quick profile: one hunter wave and one final critic, partial coverage")
    else if 0 < accepted ∨ huntable critic.2.state.ledger ≠ [] then
      match more with
      | none => recordGap host input agents wave "max_waves_reached" false critic.2
      | some next => next critic.2
    else finalCritic host input agents wave more critic.2

def huntWave (schedule : List ℕ) (number : ℕ) (more : Option (Run → Run)) (r : Run) : Run :=
  if huntable r.state.ledger = [] then postWave host input agents number more r
  else
    match launchWave host input agents schedule number r with
    | none =>
      recordGap host input agents number budgetDefer false
        (if number = 1 then r.update (fail "budget_cannot_fund_a_hunter") else r)
    | some hunted => postWave host input agents number more hunted

/-- The waves from `number` on; `left` is how many the limit allows after it. -/
def waves (schedule : ℕ → List ℕ) : (left number : ℕ) → Run → Run
  | 0, number => huntWave host input agents (schedule number) number none
  | left + 1, number =>
    huntWave host input agents (schedule number) number (some (waves schedule left (number + 1)))

/-- Phase 2 to completion. -/
def runHunting (schedule : ℕ → List ℕ) (s : EngineState) : Run :=
  waves host input agents schedule (input.waveLimit - 1) 1 (.start s)

end Maple.Audit
