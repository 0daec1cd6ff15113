import Maple.CrashRecovery
import Maple.MigrationModule

/-! The migration coordinator as programs over the disk: the journal, promotion, the chain of steps
and the run that resumes whatever it finds. -/

namespace Maple.Migration
open CrashRecovery

/-- A journal's file: JSON with a journal's fields, or anything else. -/
inductive JournalFile (J : Type)
  | json (journal : MigrationJournal J)
  | text (message : String)
  deriving DecidableEq

/-- What a run did to the migration whose journal is canonical, in order. Only proofs read it. -/
inductive MigrationEvent (J : Type)
  | wrote (journal : MigrationJournal J)
  | preflighted (step : ℕ) (state : J)
  | preparing (step : ℕ)
  | applying (step : ℕ)
  | verified (step : ℕ)
  | promoting

/-- Files of the data directory at the paths builds before the sidecar layout used. -/
structure LegacySidecars (J : Type) where
  marker : Option MarkerFile
  openMarker : Bool
  journal : Option (JournalFile J)

structure Disk (J D : Type) where
  stores : Stores D
  legacy : LegacySidecars J
  journal : Option (JournalFile J)
  archives : String → Option (JournalFile J)
  history : List (MigrationEvent J)

abbrev Coordinator (J D : Type) := Program (Disk J D) MigrationError

structure MigrationResult where
  migrationId : String
  phase : MigrationPhase
  cutoffAt : String
  sourceRollbackDir : Path
  targetDataDir : Path
  completedSteps : ℕ
  deriving DecidableEq

/-- What one process draws and reads while it runs. -/
structure RunInput where
  migrationUuid : String
  storeUuid : String
  targetUuid : String
  now : String

variable {J D : Type}

def Disk.root (disk : Disk J D) (id : String) : MigrationRoot D := disk.stores.roots id

def updateStores (f : Stores D → Stores D) (disk : Disk J D) : Disk J D :=
  { disk with stores := f disk.stores }

def updateRoot (id : String) (f : MigrationRoot D → MigrationRoot D) (disk : Disk J D) : Disk J D :=
  updateStores (fun stores => stores.setRoot id (f (stores.roots id))) disk

def record (event : MigrationEvent J) : Coordinator J D Unit :=
  Program.atomic fun disk => { disk with history := disk.history ++ [event] }

/-! ### The journal -/

/-- Move the files of an older build beside the data directory, where they now belong. -/
def adoptLegacySidecars (host : Host D) : Coordinator J D Unit := do
  let disk ← Program.get
  Program.whenever (host.ownsLegacySidecars && host.storeHasData disk.stores.activeData &&
      disk.stores.activeMarker.isNone && !host.legacyServerLive) do
    Program.whenever disk.legacy.marker.isSome <|
      Program.atomic fun disk =>
        { disk with
          stores := { disk.stores with activeMarker := disk.legacy.marker }
          legacy := { disk.legacy with marker := none } }
    Program.whenever (disk.legacy.openMarker && !disk.stores.activeOpen) <|
      Program.atomic fun disk =>
        { disk with
          stores := { disk.stores with activeOpen := true }
          legacy := { disk.legacy with openMarker := false } }
    Program.whenever (disk.legacy.journal.isSome && disk.journal.isNone) <|
      Program.atomic fun disk =>
        { disk with
          journal := disk.legacy.journal
          legacy := { disk.legacy with journal := none } }

def cannotRead (e : MigrationError) : MigrationError :=
  .error ("cannot read local migration journal: " ++ e.message)

def readMigrationJournalStructure (host : Host D) :
    Coordinator J D (Option (MigrationJournal J)) := do
  adoptLegacySidecars host
  let disk ← Program.get
  match disk.journal with
  | none => return none
  | some (.text message) => Program.throw (cannotRead (.error message))
  | some (.json value) =>
    match parseJournal value with
    | .ok journal => return some journal
    | .error e => Program.throw (cannotRead e)

def readMigrationJournal (host : Host D) (modules : List (LocalStoreMigration J D)) :
    Coordinator J D (Option (MigrationJournal J)) := do
  let journal ← readMigrationJournalStructure host
  match journal with
  | none => return none
  | some journal =>
    match validateJournalModuleState journal modules with
    | .ok _ => return some journal
    | .error e => Program.throw (cannotRead e)

def writeMigrationJournal (journal : MigrationJournal J) : Coordinator J D Unit :=
  Program.atomic fun disk =>
    { disk with
      journal := some (.json journal)
      history := disk.history ++ [.wrote journal] }

/-- Write the journal and go on with it. -/
def saveJournal (journal : MigrationJournal J) : Coordinator J D (MigrationJournal J) := do
  writeMigrationJournal journal
  return journal

def archiveCompletedMigration (journal : MigrationJournal J) : Coordinator J D Unit := do
  let disk ← Program.get
  Program.whenever (journal.phase == .promoted && disk.journal.isSome) do
    Program.require (disk.archives journal.migrationId).isNone
      (.error ("completed migration history already exists: " ++ journal.migrationId))
    Program.atomic fun disk =>
      { disk with
        journal := none
        archives := Function.update disk.archives journal.migrationId disk.journal }

/-- The marker beside the data directory. -/
def readMarker (host : Host D) : Coordinator J D (Option StoreMarker) := do
  adoptLegacySidecars host
  let disk ← Program.get
  return host.markerIn disk.stores.activeMarker

/-- A staged store's marker. Its directory is named `data`, so it has no files of an older layout. -/
def readStagedMarker (host : Host D) (id : String) : Coordinator J D (Option StoreMarker) := do
  let disk ← Program.get
  return host.markerIn (disk.root id).stagedMarker

/-! ### Renames -/

def renameActiveToSource (id : String) : Coordinator J D Unit := do
  let disk ← Program.get
  Program.require disk.stores.activeData.isSome (.io "rename")
  Program.require (disk.root id).sourceData.isNone (.io "rename")
  Program.atomic (updateStores fun stores =>
    { stores.setRoot id { stores.roots id with sourceData := stores.activeData } with
      activeData := none })

def renameActiveMarkerToSource (id : String) : Coordinator J D Unit := do
  let disk ← Program.get
  Program.require disk.stores.activeMarker.isSome (.io "rename")
  Program.atomic (updateStores fun stores =>
    { stores.setRoot id { stores.roots id with sourceMarker := stores.activeMarker } with
      activeMarker := none })

def renameTargetToActive (id : String) : Coordinator J D Unit := do
  let disk ← Program.get
  Program.require (disk.root id).targetData.isSome (.io "rename")
  Program.require disk.stores.activeData.isNone (.io "rename")
  Program.atomic (updateStores fun stores =>
    { stores.setRoot id { stores.roots id with targetData := none } with
      activeData := (stores.roots id).targetData })

def renameStagedMarkerToActive (id : String) : Coordinator J D Unit := do
  let disk ← Program.get
  Program.require (disk.root id).stagedMarker.isSome (.io "rename")
  Program.atomic (updateStores fun stores =>
    { stores.setRoot id { stores.roots id with stagedMarker := none } with
      activeMarker := (stores.roots id).stagedMarker })

def assertRealDirectory (data : Option D) : Coordinator J D Unit :=
  Program.require data.isSome (.io "lstat")

def assertRealFile (file : Option MarkerFile) : Coordinator J D Unit :=
  Program.require file.isSome (.io "lstat")

/-! ### Promotion -/

def assertPromotionStoresClosed (id : String) : Coordinator J D Unit := do
  let disk ← Program.get
  Program.require (!disk.stores.activeOpen)
    (.error "promotion found an open-store sentinel; refusing to move the active store")
  Program.require (!(disk.root id).targetOpen)
    (.error "promotion found an open-store sentinel; refusing to move the staged target")
  Program.require (!(disk.root id).sourceOpen)
    (.error "promotion found an open-store sentinel; refusing to move the retained source")

def migrationResult (host : Host D) (journal : MigrationJournal J) : MigrationResult where
  migrationId := journal.migrationId
  phase := journal.phase
  cutoffAt := journal.cutoffAt
  sourceRollbackDir := migrationRootPath host.dataDir journal.migrationId ++ ["source", "data"]
  targetDataDir := host.dataDir
  completedSteps := (journal.chain.filter fun step => step.status == .completed).length

def archiveAndReturn (host : Host D) (journal : MigrationJournal J) :
    Coordinator J D MigrationResult := do
  archiveCompletedMigration journal
  return migrationResult host journal

/-- The schema of the chain's last step. -/
def MigrationJournal.finalSchema (journal : MigrationJournal J) : LocalSchemaIdentity :=
  (journal.chain.getLast?.map (·.toSchema)).getD journal.target

def validateTargetMarker (journal : MigrationJournal J) (marker : Option StoreMarker)
    (activation : StoreActivation) : Except MigrationError StoreMarkerV2 :=
  if markerMatches marker journal.finalSchema journal.targetStoreId activation then
    match marker with
    | some (.v2 marker) => .ok marker
    | _ => .error (.error "migration target marker is missing")
  else
    .error (.error ("migration target marker is missing or not " ++ activation.name ++
      " with the journal's final identity"))

def activated (journal : MigrationJournal J) (now : String) (marker : StoreMarkerV2) :
    StoreMarkerV2 :=
  { marker with
    activation := .active
    lastMigration := some ⟨journal.migrationId, now, journal.sourceVersion, journal.targetVersion⟩ }

/-- The end of a promotion: the marker is activated, and only then the journal says so. -/
def finish (host : Host D) (journal : MigrationJournal J) (now : String) (marker : StoreMarkerV2) :
    Coordinator J D MigrationResult := do
  Program.atomic (updateStores fun stores =>
    { stores with activeMarker := some (.json (.v2 (activated journal now marker))) })
  let promoted ← saveJournal { journal with phase := .promoted }
  archiveAndReturn host promoted

/-- The target is already in the active store's place. -/
def promoteFromCutover (host : Host D) (journal : MigrationJournal J) (now : String) :
    Coordinator J D MigrationResult := do
  let disk ← Program.get
  let id := journal.migrationId
  assertRealDirectory disk.stores.activeData
  assertRealDirectory (disk.root id).sourceData
  assertRealFile (disk.root id).sourceMarker
  let marker ← readMarker host
  match marker with
  | none =>
    let disk ← Program.get
    Program.require (disk.root id).stagedMarker.isSome
      (.error "promotion has an active target but no marker to recover")
    renameStagedMarkerToActive id
    let staged ← readMarker host
    let marker ← Program.ofExcept (validateTargetMarker journal staged .staging)
    finish host journal now marker
  | some (.v2 found) =>
    let marker ← Program.ofExcept (validateTargetMarker journal (some (.v2 found)) found.activation)
    finish host journal now marker
  | some (.legacy found) =>
    let marker ← Program.ofExcept (validateTargetMarker journal (some (.legacy found)) .staging)
    finish host journal now marker

/-- Move the source's marker out of the way, unless that has been done. -/
def retainSourceMarker (id : String) : Coordinator J D Unit := do
  let disk ← Program.get
  if disk.stores.activeMarker.isSome then
    Program.require (disk.root id).sourceMarker.isNone
      (.error "source marker already exists with an active marker; promotion is ambiguous")
    renameActiveMarkerToSource id
  else
    Program.require (disk.root id).sourceMarker.isSome
      (.error "source marker disappeared before promotion could retain it")

/-- Move the staged store and its marker into the active store's place. -/
def cutOver (host : Host D) (journal : MigrationJournal J) (now : String) (marker : StoreMarkerV2) :
    Coordinator J D MigrationResult := do
  let id := journal.migrationId
  let disk ← Program.get
  Program.require disk.stores.activeData.isNone
    (.error "active data appeared before target cutover; promotion is ambiguous")
  renameTargetToActive id
  let disk ← Program.get
  Program.require disk.stores.activeMarker.isNone
    (.error "active marker unexpectedly exists after target cutover")
  Program.require (disk.root id).stagedMarker.isSome
    (.error "staged target marker disappeared before target cutover")
  renameStagedMarkerToActive id
  finish host journal now marker

/-- The target is still staged. -/
def promoteStaged (host : Host D) (journal : MigrationJournal J) (now : String) :
    Coordinator J D MigrationResult := do
  let id := journal.migrationId
  let disk ← Program.get
  Program.require (!(disk.stores.activeData.isSome && (disk.root id).sourceData.isSome))
    (.error
      "source and active directories both exist before target cutover; promotion is ambiguous")
  Program.require (disk.stores.activeData.isSome || (disk.root id).sourceData.isSome)
    (.error "both the source and rollback directories are missing; promotion is ambiguous")
  Program.require (disk.root id).targetData.isSome
    (.error "migration target disappeared before promotion")
  assertRealDirectory (disk.root id).targetData
  let staged ← readStagedMarker host id
  let marker ← Program.ofExcept (validateTargetMarker journal staged .staging)
  assertRealFile (disk.root id).stagedMarker
  Program.whenever (disk.root id).sourceData.isNone do
    assertRealDirectory disk.stores.activeData
    Program.require disk.stores.activeMarker.isSome
      (.error "source marker is missing before promotion")
    renameActiveToSource id
  retainSourceMarker id
  cutOver host journal now marker

/-- Go on from where the renames have come to. -/
def promoteByTopology (host : Host D) (journal : MigrationJournal J) (now : String) :
    Coordinator J D MigrationResult := do
  let disk ← Program.get
  if disk.stores.activeData.isSome && (disk.root journal.migrationId).sourceData.isSome &&
      (disk.root journal.migrationId).targetData.isNone then
    promoteFromCutover host journal now
  else
    promoteStaged host journal now

def promoteLocalStoreMigration (host : Host D) (input : MigrationJournal J) (now : String) :
    Coordinator J D MigrationResult := do
  record .promoting
  let root := migrationRootPath host.dataDir input.migrationId
  discard (Program.ofExcept (safeMigrationPath input.targetDataDir root "target data"))
  assertPromotionStoresClosed input.migrationId
  let journal ← saveJournal { input with phase := .promotionStarted }
  promoteByTopology host journal now

def reconcilePromotion (host : Host D) (journal : MigrationJournal J) (now : String) :
    Coordinator J D MigrationResult := do
  Program.ofExcept (assertJournalPaths host.dataDir journal)
  assertPromotionStoresClosed journal.migrationId
  let activeMarker ← readMarker host
  let disk ← Program.get
  let root := disk.root journal.migrationId
  if disk.stores.activeData.isSome &&
      markerMatches activeMarker journal.finalSchema journal.targetStoreId .active then
    Program.require root.targetData.isNone
      (.error "promotion has an active target and a duplicate staged target; refusing to guess")
    assertRealDirectory disk.stores.activeData
    assertRealDirectory root.sourceData
    assertRealFile root.sourceMarker
    let promoted ← saveJournal { journal with phase := .promoted }
    archiveAndReturn host promoted
  else
    Program.require
      (disk.stores.activeData.isSome || root.targetData.isSome || root.sourceData.isSome)
      (.error ("migration promotion was interrupted in an ambiguous filesystem state; preserve all " ++
        "directories and inspect the journal"))
    promoteLocalStoreMigration host journal now

def assertNoLiveServer (host : Host D) : Coordinator J D Unit :=
  match host.livePid with
  | none => .done ()
  | some pid => Program.throw (.error s!"maple is running (PID {pid}); stop it before migrating")

def withMigrationMaintenanceLock {α : Type} (host : Host D) (operation : Coordinator J D α) :
    Coordinator J D α := do
  Program.require (!host.checkpointRecoveryPending)
    (.error ("checkpoint recovery is pending; run maple start once to reconcile it before migrating " ++
      "the local store"))
  operation

def resumeLocalStoreMigrationPromotion (host : Host D) (modules : List (LocalStoreMigration J D))
    (now : String) : Coordinator J D MigrationResult := do
  assertNoLiveServer host
  withMigrationMaintenanceLock host do
    let current ← readMigrationJournal host modules
    match current with
    | none => Program.throw (.error "promotion journal disappeared before recovery")
    | some journal =>
      if journal.phase = .promotionStarted then reconcilePromotion host journal now
      else Program.throw (.error "promotion journal disappeared before recovery")

/-! ### Two rules -/

lemma wp_saveJournal {crash : Disk J D → Prop} {s : Disk J D} {Q : Disk J D → MigrationJournal J → Prop}
    {E : Disk J D → MigrationError → Prop} {journal : MigrationJournal J} :
    (saveJournal journal).wp crash Q E s ↔
      crash s ∧ Q { s with journal := some (.json journal), history := s.history ++ [.wrote journal] }
        journal := by
  rw [saveJournal, Program.wp_bind, writeMigrationJournal, Program.wp_atomic, Program.wp_pure]

end Maple.Migration
