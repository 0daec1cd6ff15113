import Maple.CrashRecovery
import Maple.MigrationStore

/-! Restoring a checkpoint in place of the live store: the transaction beside the data directory, the
renames, and the reconciliation that finishes or abandons a restore. -/

namespace Maple.Checkpoint
open CrashRecovery Migration

inductive RestoreTransactionPhase
  | intent
  | restoreReady
  | oldQuarantined
  | newLive
  | markersCommitted
  deriving DecidableEq

def RestoreTransactionPhase.name : RestoreTransactionPhase → String
  | .intent => "intent"
  | .restoreReady => "restore-ready"
  | .oldQuarantined => "old-quarantined"
  | .newLive => "new-live"
  | .markersCommitted => "markers-committed"

/-- `registryMoved` is `registry: "moved"`; builds that copied the registry left it out. -/
structure RestoreTransaction where
  operationId : String
  checkpointId : String
  quarantineId : String
  phase : RestoreTransactionPhase
  registryMoved : Bool
  deriving DecidableEq

inductive TransactionFile
  | json (transaction : RestoreTransaction)
  | text (message : String)
  deriving DecidableEq

structure RestoreReady where
  operationId : String
  checkpointId : String
  deriving DecidableEq

inductive ReadyFile
  | json (ready : RestoreReady)
  | text
  deriving DecidableEq

/-- A store's directory: the engine's files, the ready marker and the checkpoint registry. -/
structure StoreDir (D R : Type) where
  data : D
  ready : Option ReadyFile
  registry : Option R
  deriving DecidableEq

/-- The directory a checkpoint is restored in: the restored store and scratch files. -/
structure RestoreRoot (D R : Type) where
  data : Option (StoreDir D R)
  files : List String
  deriving DecidableEq

/-- State files beside the data directory. -/
structure Sidecars where
  marker : Option MarkerFile
  openMarker : Bool
  journal : Bool
  deriving DecidableEq

/-- The parent of the data directory. Retired paths have fresh names and are only kept. -/
structure RestoreDisk (D R : Type) where
  live : Option (StoreDir D R)
  roots : List (String × RestoreRoot D R)
  quarantines : String × String → Option (StoreDir D R)
  transaction : Option TransactionFile
  retiredRoots : List (RestoreRoot D R)
  retiredTransactions : List TransactionFile
  sidecars : Sidecars
  legacy : Sidecars

inductive CheckpointError
  | error (message : String)
  | state (message : String)
  | io (call : String)
  | marker (e : MigrationError)
  deriving DecidableEq

abbrev Restorer (D R : Type) := Program (RestoreDisk D R) CheckpointError

/-- What a process reads and draws for a store marker. -/
structure MarkerInput where
  now : String
  storeUuid : String

variable {D R : Type}

def RestoreDisk.root (disk : RestoreDisk D R) (operationId : String) : Option (RestoreRoot D R) :=
  disk.roots.lookup operationId

def RestoreDisk.restoreData (disk : RestoreDisk D R) (operationId : String) :
    Option (StoreDir D R) :=
  (disk.root operationId).bind (·.data)

def RestoreDisk.quarantine (disk : RestoreDisk D R) (transaction : RestoreTransaction) :
    Option (StoreDir D R) :=
  disk.quarantines (transaction.operationId, transaction.quarantineId)

def RestoreDisk.removeRoot (disk : RestoreDisk D R) (operationId : String) : RestoreDisk D R :=
  { disk with roots := disk.roots.filter fun entry => entry.1 != operationId }

def RestoreDisk.setRoot (disk : RestoreDisk D R) (operationId : String) (root : RestoreRoot D R) :
    RestoreDisk D R :=
  { disk with roots := (operationId, root) :: (disk.removeRoot operationId).roots }

/-! ### The store's sidecars -/

def adoptLegacySidecars (host : Host D) : Restorer D R Unit := do
  let disk ← Program.get
  Program.whenever (host.ownsLegacySidecars && disk.live.any (fun store => host.hasData store.data) &&
      disk.sidecars.marker.isNone && !host.legacyServerLive) do
    Program.whenever disk.legacy.marker.isSome <|
      Program.atomic fun disk =>
        { disk with
          sidecars := { disk.sidecars with marker := disk.legacy.marker }
          legacy := { disk.legacy with marker := none } }
    Program.whenever (disk.legacy.openMarker && !disk.sidecars.openMarker) <|
      Program.atomic fun disk =>
        { disk with
          sidecars := { disk.sidecars with openMarker := true }
          legacy := { disk.legacy with openMarker := false } }
    Program.whenever (disk.legacy.journal && !disk.sidecars.journal) <|
      Program.atomic fun disk =>
        { disk with
          sidecars := { disk.sidecars with journal := true }
          legacy := { disk.legacy with journal := false } }

def readMarker (host : Host D) : Restorer D R (Option StoreMarker) := do
  adoptLegacySidecars host
  let disk ← Program.get
  return host.markerIn disk.sidecars.marker

/-- The marker of a restored store, if it has to be written: the store keeps its id and its
activation. -/
def restoredMarker (host : Host D) (input : MarkerInput) :
    Option StoreMarker → Except MigrationError (Option StoreMarkerV2)
  | some (.v2 marker) =>
    if marker.activation = .staging ∧ marker.schemaVersion = host.currentSchema.version ∧
        marker.schemaDigest = host.currentSchema.digest ∧
        marker.schema = host.currentSchema.fingerprint then
      .ok none
    else
      .ok (some { marker with
        schemaVersion := host.currentSchema.version
        schemaDigest := host.currentSchema.digest
        schema := host.currentSchema.fingerprint })
  | some (.legacy marker) =>
    (host.makeStoreMarker
      ⟨input.storeUuid, host.chdbVersion, host.mapleVersion, marker.createdAt, marker.maple,
        host.currentSchema.version, host.currentSchema.digest, host.currentSchema.fingerprint, .active,
        none⟩).map some
  | none =>
    (host.makeStoreMarker
      ⟨input.storeUuid, host.chdbVersion, host.mapleVersion, input.now, host.mapleVersion,
        host.currentSchema.version, host.currentSchema.digest, host.currentSchema.fingerprint, .active,
        none⟩).map some

def writeMarker (marker : StoreMarkerV2) : Restorer D R Unit :=
  Program.atomic fun disk =>
    { disk with sidecars := { disk.sidecars with marker := some (.json (.v2 marker)) } }

def writeStoreMarkerDurable (host : Host D) (input : MarkerInput) : Restorer D R Unit := do
  let existing ← readMarker host
  match restoredMarker host input existing with
  | .error e => Program.throw (.marker e)
  | .ok none => return ()
  | .ok (some marker) => writeMarker marker

def markStoreClosedDurable : Restorer D R Unit := do
  let disk ← Program.get
  Program.whenever disk.sidecars.openMarker <|
    Program.atomic fun disk => { disk with sidecars := { disk.sidecars with openMarker := false } }

/-! ### The transaction -/

def readRestoreTransaction : Restorer D R (Option RestoreTransaction) := do
  let disk ← Program.get
  match disk.transaction with
  | none => return none
  | some (.text message) => Program.throw (.error message)
  | some (.json transaction) => return some transaction

/-- Write the transaction and go on with it. -/
def writeRestoreTransaction (transaction : RestoreTransaction) :
    Restorer D R RestoreTransaction := do
  Program.atomic fun disk => { disk with transaction := some (.json transaction) }
  return transaction

/-- The first ready marker decides: one that cannot be read stops the search, another's does not. -/
def readyMatches (transaction : RestoreTransaction) : List (Option ReadyFile) → Bool
  | [] => false
  | none :: rest => readyMatches transaction rest
  | some .text :: _ => false
  | some (.json ready) :: rest =>
    (ready.operationId == transaction.operationId &&
      ready.checkpointId == transaction.checkpointId) || readyMatches transaction rest

def RestoreDisk.readyIdentityMatches (disk : RestoreDisk D R) (transaction : RestoreTransaction) :
    Bool :=
  readyMatches transaction
    [(disk.restoreData transaction.operationId).bind (·.ready), disk.live.bind (·.ready)]

def finalizeRestoreMarkers (host : Host D) (input : MarkerInput) (transaction : RestoreTransaction) :
    Restorer D R RestoreTransaction := do
  let disk ← Program.get
  Program.require (disk.readyIdentityMatches transaction)
    (.error "restored live store identity is missing or does not match the transaction")
  writeStoreMarkerDurable host input
  markStoreClosedDurable
  writeRestoreTransaction { transaction with phase := .markersCommitted }

/-- What a recursive removal may leave of a root. -/
structure Partial (root left : RestoreRoot D R) : Prop where
  data : root.data = none → left.data = none
  files : left.files ⊆ root.files

/-- The root goes file by file. -/
def removeRestoreRoot (operationId : String) : Restorer D R Unit :=
  .write
    (fun s s' => ∃ root left, s.root operationId = some root ∧ Partial root left ∧
      s' = s.setRoot operationId left)
    (fun s => s.removeRoot operationId) (.done ())

def completeRestoreTransaction (transaction : RestoreTransaction) : Restorer D R Unit := do
  let disk ← Program.get
  Program.whenever (disk.live.bind (·.ready)).isSome <|
    Program.atomic fun disk =>
      { disk with live := disk.live.map fun store => { store with ready := none } }
  Program.whenever (disk.root transaction.operationId).isSome <|
    removeRestoreRoot transaction.operationId
  Program.atomic fun disk => { disk with transaction := none }

/-- Carry the registry from the quarantined store into the restored one. -/
def moveRegistryIntoRestoredLive (transaction : RestoreTransaction) : Restorer D R Unit := do
  let disk ← Program.get
  let source := (disk.quarantine transaction).bind (·.registry)
  let target := disk.live.bind (·.registry)
  if target.isSome && source.isNone then return ()
  else
    Program.require (!(source.isSome && target.isSome))
      (.state "checkpoint registry exists in both the old and the restored store")
    Program.require source.isSome (.state "the old store's checkpoint registry is missing")
    Program.atomic fun disk =>
      { disk with
        live := disk.live.map fun store => { store with registry := source }
        quarantines := Function.update disk.quarantines
          (transaction.operationId, transaction.quarantineId)
          ((disk.quarantine transaction).map fun store => { store with registry := none }) }

/-! ### Reconciliation -/

/-- Abandon a restore that was not ready: its root and its record are kept aside. -/
def reconcileIntent (transaction : RestoreTransaction) : Restorer D R Unit := do
  let disk ← Program.get
  Program.require (disk.live.isSome && (disk.quarantine transaction).isNone)
    (.error (s!"ambiguous restore intent topology; live={disk.live.isSome} " ++
      s!"restore={(disk.restoreData transaction.operationId).isSome} " ++
      s!"quarantine={(disk.quarantine transaction).isSome}"))
  Program.whenever (disk.root transaction.operationId).isSome <|
    Program.atomic fun disk =>
      { disk.removeRoot transaction.operationId with
        retiredRoots := disk.retiredRoots ++ (disk.root transaction.operationId).toList }
  Program.atomic fun disk =>
    { disk with
      transaction := none
      retiredTransactions := disk.retiredTransactions ++ disk.transaction.toList }

/-- Move the old store out of the way. -/
def quarantineLive (transaction : RestoreTransaction) : Restorer D R RestoreTransaction := do
  let disk ← Program.get
  if transaction.phase = .restoreReady ∧ disk.live.isSome ∧
      (disk.restoreData transaction.operationId).isSome ∧ (disk.quarantine transaction).isNone then
    Program.require (disk.readyIdentityMatches transaction)
      (.error "restore-ready identity is missing or mismatched")
    Program.atomic fun disk =>
      { disk with
        live := none
        quarantines := Function.update disk.quarantines
          (transaction.operationId, transaction.quarantineId) disk.live }
    writeRestoreTransaction { transaction with phase := .oldQuarantined }
  else return transaction

/-- Move the restored store into the old one's place. -/
def publishRestored (transaction : RestoreTransaction) : Restorer D R RestoreTransaction := do
  let disk ← Program.get
  if (transaction.phase = .restoreReady ∨ transaction.phase = .oldQuarantined) ∧ disk.live.isNone ∧
      (disk.restoreData transaction.operationId).isSome ∧ (disk.quarantine transaction).isSome then
    Program.atomic fun disk =>
      { disk with
        live := disk.restoreData transaction.operationId
        roots := disk.roots.map fun entry =>
          if entry.1 = transaction.operationId then (entry.1, { entry.2 with data := none })
          else entry }
    writeRestoreTransaction { transaction with phase := .newLive }
  else return transaction

def finalizeRestored (host : Host D) (input : MarkerInput) (transaction : RestoreTransaction) :
    Restorer D R RestoreTransaction := do
  let disk ← Program.get
  if (transaction.phase = .oldQuarantined ∨ transaction.phase = .newLive) ∧ disk.live.isSome ∧
      (disk.restoreData transaction.operationId).isNone ∧ (disk.quarantine transaction).isSome then
    Program.whenever transaction.registryMoved (moveRegistryIntoRestoredLive transaction)
    finalizeRestoreMarkers host input { transaction with phase := .newLive }
  else return transaction

def finishRestored (transaction : RestoreTransaction) : Restorer D R Unit := do
  let disk ← Program.get
  if transaction.phase = .markersCommitted ∧ disk.live.isSome ∧
      (disk.quarantine transaction).isSome then
    completeRestoreTransaction transaction
  else
    Program.throw
      (.error ("restore transaction could not be reconciled safely; phase=" ++ transaction.phase.name ++
        s!" live={disk.live.isSome} " ++
        s!"restore={(disk.restoreData transaction.operationId).isSome} " ++
        s!"quarantine={(disk.quarantine transaction).isSome}"))

/-- Go on from the recorded phase and from which of the directories exist. -/
def reconcileRestoreTransaction (host : Host D) (input : MarkerInput) : Restorer D R Unit := do
  let found ← readRestoreTransaction
  match found with
  | none =>
    let disk ← Program.get
    Program.require disk.roots.isEmpty
      (.error ("restore-like paths exist without a valid transaction; refusing to infer ownership: " ++
        ", ".intercalate (disk.roots.map fun entry =>
          "/".intercalate host.dataDir ++ ".restore-" ++ entry.1)))
  | some transaction =>
    if transaction.phase = .intent then reconcileIntent transaction
    else
      let transaction ← quarantineLive transaction
      let transaction ← publishRestored transaction
      let transaction ← finalizeRestored host input transaction
      finishRestored transaction

/-! ### A restore -/

/-- What a restore draws, and what the registry and the database engine give it: the checkpoint the
selector names, what restoring and validating it leaves in the root, and how they fail. -/
structure RestoreInput (D R : Type) where
  operationId : String
  quarantineId : String
  checkpoint : Except CheckpointError String
  restored : RestoreRoot D R
  failure : Option CheckpointError
  countsMatch : Bool
  syncFailure : Option CheckpointError
  before : MarkerInput
  after : MarkerInput

def throwFailure : Option CheckpointError → Restorer D R Unit
  | none => .done ()
  | some e => .throw e

/-- The engine writes the restored store file by file. -/
def restoreResolvedInto (operationId : String) (restored : RestoreRoot D R) : Restorer D R Unit :=
  .write (fun s s' => ∃ root, s' = s.setRoot operationId root)
    (fun s => s.setRoot operationId restored) (.done ())

/-- Mark the restored store as ready, inside its own directory. -/
def writeRestoreReady (operationId : String) (ready : RestoreReady) : Restorer D R Unit := do
  let disk ← Program.get
  Program.require (disk.restoreData operationId).isSome (.io "open")
  Program.atomic fun disk =>
    { disk with
      roots := disk.roots.map fun entry =>
        if entry.1 = operationId then
          (entry.1,
            { entry.2 with data := entry.2.data.map fun store =>
              { store with ready := some (.json ready) } })
        else entry }

def restoreCheckpoint (host : Host D) (input : RestoreInput D R) : Restorer D R Unit := do
  reconcileRestoreTransaction host input.before
  let checkpointId ← Program.ofExcept input.checkpoint
  let transaction : RestoreTransaction :=
    ⟨input.operationId, checkpointId, input.quarantineId, .intent, false⟩
  let disk ← Program.get
  Program.require ((disk.root input.operationId).isNone && (disk.quarantine transaction).isNone)
    (.error "restore or quarantine path already exists")
  discard (writeRestoreTransaction transaction)
  Program.atomic fun disk => disk.setRoot input.operationId ⟨none, []⟩
  restoreResolvedInto input.operationId input.restored
  throwFailure input.failure
  Program.require input.countsMatch
    (.error "restored checkpoint counts do not match its signed manifest")
  let disk ← Program.get
  Program.require ((disk.restoreData input.operationId).bind (·.registry)).isNone
    (.state "restored store unexpectedly contains a checkpoint registry")
  writeRestoreReady input.operationId ⟨input.operationId, checkpointId⟩
  throwFailure input.syncFailure
  discard (writeRestoreTransaction { transaction with phase := .restoreReady, registryMoved := true })
  reconcileRestoreTransaction host input.after

lemma wp_writeRestoreTransaction {crash : RestoreDisk D R → Prop} {s : RestoreDisk D R}
    {Q : RestoreDisk D R → RestoreTransaction → Prop} {E : RestoreDisk D R → CheckpointError → Prop}
    {transaction : RestoreTransaction} :
    (writeRestoreTransaction transaction).wp crash Q E s ↔
      crash s ∧ Q { s with transaction := some (.json transaction) } transaction := by
  rw [writeRestoreTransaction, Program.wp_bind, Program.wp_atomic, Program.wp_pure]

end Maple.Checkpoint
