import Maple.MigrationCoordinator

/-! The steps of a migration under their journal, and the run that starts, resumes and finishes a
migration. -/

namespace Maple.Migration
open CrashRecovery

variable {J D : Type}

/-! ### One step -/

/-- The journal after a module saved its step. -/
def MigrationJournal.saveStep (current : MigrationJournal J) (index : ℕ) (update : StepUpdate J) :
    MigrationJournal J :=
  match current.chain[index]? with
  | none => current
  | some previous =>
    current.setStep index
      { previous with
        state := update.state.or previous.state
        progress := update.progress.or previous.progress }

/-- Run a handler with the context's own copy of the journal. -/
def runHandler {α : Type} (index : ℕ) :
    Handler J D α → MigrationJournal J → Coordinator J D (α × MigrationJournal J)
  | .done a, current => .done (a, current)
  | .throw e, _ => .throw e
  | .saveStep update next, current => do
    writeMigrationJournal (current.saveStep index update)
    runHandler index next (current.saveStep index update)
  | .act f next, current => do
    Program.atomic (updateStores f)
    runHandler index next current
  | .read next, current => .read fun disk => runHandler index (next disk.stores) current

/-- A handler's result, which must not be `undefined`. -/
def persisted {α : Type} (message : String) : Option α → Coordinator J D α
  | some a => .done a
  | none => Program.throw (.error message)

section Module
variable (index : ℕ) (migration : LocalStoreMigration J D) (context : MigrationModuleContext J)

def runPreflight (current : MigrationJournal J) : Coordinator J D (J × MigrationJournal J) := do
  let (returned, current) ← runHandler index (migration.preflight context) current
  let state ← persisted (migration.id ++ " preflight returned no persisted state") returned
  record (.preflighted index state)
  let current ← saveJournal (current.saveStep index ⟨some state, none⟩)
  let current ← saveJournal { current with phase := .preflightComplete }
  return (state, current)

/-- Recover a step that an earlier process left running. -/
def runRecover (step : MigrationStepJournal J) (state progress : Option J)
    (current : MigrationJournal J) :
    Coordinator J D (Option J × Option J × MigrationJournal J) := do
  let (recovered, current) ← runHandler index (migration.recover context state progress) current
  let state := recovered.state.or state
  let progress := recovered.progress.or progress
  let current ← saveJournal (current.saveStep index ⟨state, progress⟩)
  if step.state = none ∧ step.status = .running then
    let (state, current) ← runPreflight index migration context current
    return (some state, progress, current)
  else return (state, progress, current)

/-- A new step is preflighted, one found running is recovered first. -/
def startStep (step : MigrationStepJournal J) (state progress : Option J)
    (current : MigrationJournal J) :
    Coordinator J D (Option J × Option J × MigrationJournal J) := do
  if step.status = .pending then
    let (state, current) ← runPreflight index migration context current
    return (some state, progress, current)
  else runRecover index migration context step state progress current

def runPrepareTarget (state : J) (current : MigrationJournal J) :
    Coordinator J D (J × MigrationJournal J) := do
  record (.preparing index)
  let (returned, current) ← runHandler index (migration.prepareTarget context state) current
  let state ← persisted (migration.id ++ " prepareTarget returned no persisted state") returned
  let current ← saveJournal (current.saveStep index ⟨some state, none⟩)
  let current ← saveJournal { current with phase := .targetCreated }
  return (state, current)

def runApply (state : J) (progress : Option J) (current : MigrationJournal J) :
    Coordinator J D (MigrationJournal J) := do
  let current ← saveJournal { current with phase := .copying }
  record (.applying index)
  let (returned, current) ← runHandler index (migration.apply context state progress) current
  let progress ← persisted (migration.id ++ " apply returned no persisted progress") returned
  let current ← saveJournal (current.saveStep index ⟨none, some progress⟩)
  let (_, current) ← runHandler index (migration.verify context state progress) current
  record (.verified index)
  saveJournal { current with phase := .copyVerified }

/-- A step that was verified is not run again: only its commit is left. -/
def checkVerified (step : MigrationStepJournal J) : Coordinator J D Unit := do
  let state ← persisted
    (migration.id ++ " " ++ step.status.name ++ " step has no recoverable persisted state") step.state
  discard (Program.ofExcept (migration.decodeState state))
  let progress ← Program.ofExcept (migration.decodeProgress step.progress)
  discard (persisted
    (migration.id ++ " " ++ step.status.name ++ " step has no recoverable persisted progress") progress)

def decodeState? (step : MigrationStepJournal J) : Except MigrationError (Option J) :=
  match step.state with
  | none => .ok none
  | some state => (migration.decodeState state).map some

/-- The lifecycle of one step. It returns the context's journal. -/
def executeMigrationModule (step : MigrationStepJournal J) (prepareTarget : Bool)
    (current : MigrationJournal J) : Coordinator J D (MigrationJournal J) := do
  if step.status = .verified ∨ step.status = .completed then
    checkVerified migration step
    return current
  else
    let state ← Program.ofExcept (decodeState? migration step)
    let progress ← Program.ofExcept (migration.decodeProgress step.progress)
    let (state, progress, current) ← startStep index migration context step state progress current
    let state ← persisted (migration.id ++ " has no recoverable persisted state") state
    let (state, current) ←
      if prepareTarget ∨ step.status = .pending then
        runPrepareTarget index migration context state current
      else pure (state, current)
    runApply index migration context state progress current

end Module

def makeModuleContext (host : Host D) (journal : MigrationJournal J) (index : ℕ)
    (step : MigrationStepJournal J) : MigrationModuleContext J where
  dataDir := host.dataDir
  sourceDataDir := if index = 0 then host.dataDir else journal.targetDataDir
  targetDataDir := journal.targetDataDir
  source := step.fromSchema
  target := step.toSchema
  cutoffAt := journal.cutoffAt
  step := step

/-- The phase a step starts in. -/
def startPhase (index : ℕ) (status : MigrationStepStatus) : MigrationPhase :=
  if status = .pending then if index = 0 then .planned else .targetCreated else .copying

/-- Write the staged store's marker with the step's schema, unless it has it already. -/
def ensureStagedMarker (host : Host D) (journal : MigrationJournal J) (schema : LocalSchemaIdentity) :
    Coordinator J D Unit := do
  let existing ← readStagedMarker host journal.migrationId
  let (marker, written) ← Program.ofExcept
    (host.ensuredMarker existing schema journal.createdAt .staging journal.targetStoreId)
  Program.whenever written <|
    Program.atomic (updateRoot journal.migrationId fun root =>
      { root with stagedMarker := some (.json (.v2 marker)) })

/-- The journal once the step at `index` is verified. -/
def MigrationJournal.verifyStep (current : MigrationJournal J) (index : ℕ)
    (step : MigrationStepJournal J) : MigrationJournal J :=
  current.setStep index { step with status := .verified }

/-- The chain once the step at `index` is completed: the next one starts to run. -/
def MigrationJournal.completeStep (current : MigrationJournal J) (index : ℕ) : MigrationJournal J :=
  { current with
    chain := current.chain.mapIdx fun place candidate =>
      if place = index then { candidate with status := .completed }
      else if place = index + 1 then { candidate with status := .running }
      else candidate
    currentStepIndex := index + 1
    phase := if index + 1 < current.chain.length then .targetCreated else .copyVerified }

/-- One pass of the loop over the chain. -/
def executeStep (host : Host D) (modules : List (LocalStoreMigration J D)) (freshlyAdvanced : Bool)
    (journal : MigrationJournal J) : Coordinator J D (MigrationJournal J) := do
  let index := journal.currentStepIndex
  let lifecycleStep ← persisted "migration journal currentStepIndex is invalid" journal.chain[index]?
  let migration ← Program.ofExcept (moduleForStep lifecycleStep modules)
  let running := { lifecycleStep with status := .running }
  let journal ←
    if lifecycleStep.status = .pending then saveJournal (journal.setStep index running)
    else pure journal
  let staged ← readStagedMarker host journal.migrationId
  let prepareTarget := !markerMatches staged migration.toSchema journal.targetStoreId .staging
  let journal ← saveJournal { journal with phase := startPhase index lifecycleStep.status }
  let step := if lifecycleStep.status = .pending then running else lifecycleStep
  let lifecycleInput :=
    if freshlyAdvanced then { lifecycleStep with status := .pending } else lifecycleStep
  let current ← executeMigrationModule index migration (makeModuleContext host journal index step)
    lifecycleInput prepareTarget journal
  writeMigrationJournal { current with phase := .copyVerified }
  let activeStep ← persisted "migration journal currentStepIndex is invalid" current.chain[index]?
  Program.whenever (activeStep.status != .verified && activeStep.status != .completed) <|
    writeMigrationJournal (current.verifyStep index activeStep)
  let disk ← Program.get
  assertRealDirectory (disk.root journal.migrationId).targetData
  ensureStagedMarker host journal migration.toSchema
  saveJournal (current.completeStep index)

/-! ### The chain -/

/-- `remaining` steps of the chain; each pass completes one. -/
def executeSteps (host : Host D) (modules : List (LocalStoreMigration J D)) :
    ℕ → Bool → MigrationJournal J → Coordinator J D (MigrationJournal J)
  | 0, _, journal => .done journal
  | remaining + 1, freshlyAdvanced, journal => do
    let next ← executeStep host modules freshlyAdvanced journal
    executeSteps host modules remaining true next

/-- Close the session's connection. If that fails, the sentinel stays behind. -/
def closeSession : Coordinator J D Unit := do
  let disk ← Program.get
  match disk.stores.session with
  | none => .done ()
  | some place =>
    Program.atomic (updateStores fun stores => { stores with session := none })
    Program.require disk.stores.sessionCloses (.error "chDB close failed")
    match place with
    | .active => Program.atomic (updateStores fun stores => { stores with activeOpen := false })
    | .target id => Program.atomic (updateRoot id fun root => { root with targetOpen := false })

def executeMigrationChain (host : Host D) (modules : List (LocalStoreMigration J D))
    (journal : MigrationJournal J) : Coordinator J D (MigrationJournal J) := do
  Program.atomic (updateStores fun stores => { stores with session := none })
  let final ← (executeSteps host modules (journal.chain.length - journal.currentStepIndex) false
    journal).orElse fun e => do
      closeSession
      Program.throw e
  closeSession
  return final

/-! ### The run -/

def isStoreDirty (host : Host D) : Coordinator J D Bool := do
  adoptLegacySidecars host
  let disk ← Program.get
  return host.storeHasData disk.stores.activeData && disk.stores.activeOpen

def sourceStoreId (input : RunInput) : StoreMarker → String
  | .v2 marker => marker.storeId
  | .legacy marker =>
    "legacy-" ++ (if marker.schema = "" then "unversioned" else marker.schema) ++ "-" ++ input.storeUuid

def createJournal (host : Host D) (input : RunInput) (plan : MigrationPlan J D)
    (marker : StoreMarker) : MigrationJournal J where
  migrationId := "local-migration-" ++ input.migrationUuid
  phase := .planned
  chain := plan.chain.map fun migration =>
    ⟨migration.id, migration.moduleVersion, migration.fromSchema, migration.toSchema, .pending, none,
      none⟩
  currentStepIndex := 0
  sourceDataDir := host.dataDir
  sourceStoreId := sourceStoreId input marker
  sourceChdb := plan.source.chdb
  sourceFingerprint := plan.source.fingerprint
  sourceDigest := plan.source.digest
  sourceVersion := plan.source.version
  targetDataDir := migrationRootPath host.dataDir ("local-migration-" ++ input.migrationUuid) ++
    ["target", "data"]
  targetStoreId := input.targetUuid
  targetChdb := plan.target.chdb
  targetFingerprint := plan.target.fingerprint
  targetDigest := plan.target.digest
  targetVersion := plan.target.version
  cutoffAt := input.now
  createdAt := input.now
  failure := none

/-- The first journal of a migration, from which its history counts. -/
def startMigration (host : Host D) (input : RunInput) (plan : Option (MigrationPlan J D))
    (markerState : Option StoreMarker) : Coordinator J D (MigrationJournal J) := do
  let plan ← persisted "store already has the current schema" plan
  Program.require (!plan.chain.isEmpty) (.error "store already has the current schema")
  let marker ← persisted ("the source store has no readable marker; unknown stores fail closed and " ++
    "cannot be migrated") markerState
  let created := createJournal host input plan marker
  let disk ← Program.get
  Program.require (disk.root created.migrationId).targetData.isNone
    (.error "migration target directory already exists without a journal; refusing to reuse it")
  Program.atomic fun disk =>
    { disk with journal := some (.json created), history := [.wrote created] }
  return created

def assertSourceStore (markerState : Option StoreMarker) (current : MigrationJournal J) :
    Coordinator J D Unit :=
  match markerState with
  | some (.v2 marker) =>
    Program.require (marker.storeId == current.sourceStoreId)
      (.error "unfinished local migration source store id does not match the active marker")
  | _ => .done ()

/-- The journal a resumed migration goes on with. -/
def resumeMigration (host : Host D) (modules : List (LocalStoreMigration J D))
    (markerState : Option StoreMarker) (current : MigrationJournal J) :
    Coordinator J D (MigrationJournal J) := do
  Program.ofExcept (assertJournalPaths host.dataDir current)
  discard (Program.ofExcept (journalModules current modules))
  assertSourceStore markerState current
  return current

/-- The journal a failed run leaves: `failed`, unless its phase says more. -/
def MigrationJournal.fail (journal : MigrationJournal J) (e : MigrationError) : MigrationJournal J :=
  { journal with
    phase := if journal.phase = .planned ∨ journal.phase = .preflightComplete ∨
      journal.phase = .promotionStarted then journal.phase else .failed
    failure := some e.message }

/-- Record the failure in the journal on disk or, where that cannot be read, in `current`. -/
def recordFailure (host : Host D) (modules : List (LocalStoreMigration J D))
    (current : MigrationJournal J) (e : MigrationError) : Coordinator J D Unit := do
  let persisted ← (readMigrationJournal host modules).orElse fun _ => .done none
  let failed := persisted.getD current
  Program.whenever (failed.phase != .promoted) <|
    writeMigrationJournal (failed.fail e)

/-- Bring the chain to its end. -/
def completeChain (host : Host D) (registry : List (LocalStoreMigration J D))
    (current : MigrationJournal J) : Coordinator J D (MigrationJournal J) := do
  let modules ← Program.ofExcept (journalModules current registry)
  let final ← executeMigrationChain host modules current
  Program.require (final.currentStepIndex == final.chain.length)
    (.error "migration chain did not reach its final verified step")
  Program.require host.sameFilesystem
    (.error ("side-by-side promotion would cross filesystems (EXDEV); keep the source and its " ++
      "migration root on the same filesystem and retry"))
  return final

/-- The part of a run that is done under the maintenance lock. The promotion's own failures are not
caught: the source returns its promise without waiting for it. -/
def migrateLocked (host : Host D) (registry : List (LocalStoreMigration J D)) (input : RunInput)
    (plan : Option (MigrationPlan J D)) (markerState : Option StoreMarker) :
    Coordinator J D MigrationResult := do
  assertNoLiveServer host
  let dirty ← isStoreDirty host
  Program.require (!dirty)
    (.error "source store became dirty before the migration lock was acquired.")
  let found ← readMigrationJournal host registry
  let current ←
    match found with
    | none => startMigration host input plan markerState
    | some current => resumeMigration host registry markerState current
  let final ← (completeChain host registry current).orElse fun e => do
    recordFailure host registry current e
    Program.throw e
  promoteLocalStoreMigration host final input.now

def sourceIdentity (host : Host D) (journal : Option (MigrationJournal J)) :
    Option StoreMarker → Option LocalSchemaIdentity
  | some marker => identityFromMarker host marker
  | none => journal.map MigrationJournal.source

/-- A run without a promotion to finish: start a migration or resume one. -/
def migrate (host : Host D) (registry : List (LocalStoreMigration J D)) (input : RunInput)
    (journal : Option (MigrationJournal J)) (markerState : Option StoreMarker) :
    Coordinator J D MigrationResult := do
  Program.require (!(markerState.isNone && journal.isNone))
    (.error ("the source store has no readable marker; unknown stores fail closed and cannot be " ++
      "migrated"))
  Program.require (!(markerState.isNone && journal.isSome))
    (.error "unfinished migration has no readable source marker; refusing to resume")
  let source ← persisted
    "the source fingerprint is not registered; use an explicit reset only if data loss is acceptable"
    (sourceIdentity host journal markerState)
  let disk ← Program.get
  match host.checkStoreCompatible disk.stores with
  | .incompatible found _ =>
    Program.throw (.error ("source is not compatible with this chDB build: " ++ found))
  | .compatible =>
    let plan ← Program.ofExcept
      (if journal.isNone then (planMigration host registry source).map some else .ok none)
    assertNoLiveServer host
    let disk ← Program.get
    Program.require (host.storeHasData disk.stores.activeData)
      (.error "the local store is empty; start normally to bootstrap it instead of migrating")
    assertRealFile disk.stores.activeMarker
    let dirty ← isStoreDirty host
    Program.require (!dirty) (.error "source store was not cleanly closed.")
    withMigrationMaintenanceLock host (migrateLocked host registry input plan markerState)

def runLocalStoreMigration (host : Host D) (registry : List (LocalStoreMigration J D))
    (input : RunInput) : Coordinator J D MigrationResult := do
  let journal ← readMigrationJournal host registry
  let markerState ← readMarker host
  match journal with
  | none => migrate host registry input none markerState
  | some journal =>
    if journal.phase = .promotionStarted then
      Program.ofExcept (assertJournalPaths host.dataDir journal)
      resumeLocalStoreMigrationPromotion host registry input.now
    else if journal.phase = .promoted then
      match markerState with
      | some (.v2 marker) =>
        Program.require
          (markerMatches (some (.v2 marker)) journal.finalSchema journal.targetStoreId .active)
          (.error ("completed migration journal does not match the active store; refusing to guess"))
        archiveCompletedMigration journal
        if sameJournalIdentity journal.finalSchema host.currentSchema then
          return migrationResult host journal
        else
          let markerState ← readMarker host
          migrate host registry input none markerState
      | _ => Program.throw (.error "completed migration has no readable active v2 marker")
    else migrate host registry input (some journal) markerState

end Maple.Migration
