import Maple.CheckpointRestore
import Maple.FileTree
import Maple.KeyGlob

/-! Clearing the live store while its checkpoints stay: the transaction beside the data directory
that records the targets, and the reconciliation that removes them. -/

namespace Maple.Checkpoint
open CrashRecovery FileTree IngestRules

inductive ResetTransactionPhase
  | intent
  | liveCleared
  | markersCleared
  deriving DecidableEq

inductive ResetTarget
  | control
  | data
  | metadata
  | status
  | store
  | tmp
  deriving DecidableEq

def ResetTarget.name : ResetTarget → String
  | .control => "control"
  | .data => "data"
  | .metadata => "metadata"
  | .status => "status"
  | .store => "store"
  | .tmp => "tmp"

def RESETTABLE_LIVE_ENTRIES : List ResetTarget :=
  [.control, .data, .metadata, .status, .store, .tmp]

/-- The target of an entry's name, if it has one. -/
def ResetTarget.decode (name : String) : Option ResetTarget :=
  RESETTABLE_LIVE_ENTRIES.find? (·.name == name)

/-- The type a target's entry must have. -/
def ResetTarget.validType (target : ResetTarget) (node : Node) : Bool :=
  if target = .status then node.isFile else node.isDirectory

/-- The order `sort()` puts strings in. -/
def TextLe (a b : String) : Prop := ¬codeUnits b < codeUnits a

instance (a b : String) : Decidable (TextLe a b) := inferInstanceAs (Decidable ¬_)

def ResetTarget.Le (a b : ResetTarget) : Prop := TextLe a.name b.name

instance (a b : ResetTarget) : Decidable (a.Le b) := inferInstanceAs (Decidable (TextLe _ _))

def sortTargets (targets : List ResetTarget) : List ResetTarget :=
  targets.insertionSort ResetTarget.Le

structure ResetTransaction where
  operationId : String
  dataDir : String
  targets : List ResetTarget
  phase : ResetTransactionPhase
  deriving DecidableEq

/-- The transaction's file: what its schema accepts, or the error of reading it. -/
inductive ResetFile
  | json (transaction : ResetTransaction)
  | text (message : String)
  deriving DecidableEq

/-- What is at the path of the data directory. -/
inductive Live
  | missing
  | directory (entries : AList fun _ : String => Node)
  | symlink (dangling : Bool)
  | file

namespace Live

def found : Live → Bool
  | .missing => false
  | .symlink dangling => !dangling
  | _ => true

def isDirectory : Live → Bool
  | .directory _ => true
  | _ => false

def entry : Live → String → Option Node
  | .directory entries, name => entries.lookup name
  | _, _ => none

/-- What listing the directory gives. -/
def readdir : Live → List (Σ _ : String, Node)
  | .directory entries => entries.entries
  | _ => []

def removeEntry : Live → String → Live
  | .directory entries, name => .directory (entries.erase name)
  | live, _ => live

def setEntry : Live → String → Node → Live
  | .directory entries, name, node => .directory (entries.insert name node)
  | live, _, _ => live

end Live

/-- The data directory and the state files beside it. -/
structure ResetDisk where
  live : Live
  transaction : Option ResetFile
  restoreTransaction : Bool
  marker : Option String
  openMarker : Option String

/-- How the host resolves and joins paths. -/
structure PathApi where
  resolve : String → String
  isAbsolute : String → Bool
  join : String → String → String
  resolve_resolve : ∀ path, resolve (resolve path) = resolve path
  isAbsolute_resolve : ∀ path, isAbsolute (resolve path) = true

abbrev Resetter := Program ResetDisk CheckpointError

section
variable (paths : PathApi)

def assertKind (ok : Bool) (label kind path : String) : Except CheckpointError Unit :=
  if ok then .ok () else .error (.error (label ++ " must be a real " ++ kind ++ ": " ++ path))

def assertRealDirectory (node : Node) (label path : String) : Except CheckpointError Unit :=
  assertKind node.isDirectory label "directory" path

def assertRealFile (node : Node) (label path : String) : Except CheckpointError Unit :=
  assertKind node.isFile label "file" path

def assertRealLive (dataDir : String) (live : Live) : Except CheckpointError Unit :=
  if live.found then
    assertKind live.isDirectory "live data directory" "directory" (paths.resolve dataDir)
  else .ok ()

/-- Check what is below the checkpoint root, if it is there. -/
def assertChild (root : String) (node : Node) (name : String)
    (assertReal : Node → String → Except CheckpointError Unit) : Except CheckpointError Unit :=
  match node.child name with
  | none => .ok ()
  | some child => if child.found then assertReal child (paths.join root name) else .ok ()

def assertCheckpointInfrastructureSafe (dataDir : String) (live : Live) :
    Except CheckpointError Unit := do
  assertRealLive paths dataDir live
  let root := paths.join (paths.resolve dataDir) "backups"
  match live.entry "backups" with
  | none => return ()
  | some node =>
    if !node.found then return ()
    assertRealDirectory node "checkpoint root" root
    ["snapshots", "operations", "pins", "quarantine", "retiring"].forM fun child =>
      assertChild paths root node child fun found =>
        assertRealDirectory found ("checkpoint " ++ child)
    assertChild paths root node "state.json" fun found => assertRealFile found "checkpoint state"

/-- The targets among the entries, and the paths of those that are not recognised. -/
def collectTargets (live : String) :
    List (Σ _ : String, Node) → Except CheckpointError (List ResetTarget × List String)
  | [] => .ok ([], [])
  | ⟨name, node⟩ :: rest =>
    if name = "backups" then collectTargets live rest
    else
      match ResetTarget.decode name with
      | none => do
        let (targets, unknown) ← collectTargets live rest
        return (targets, paths.join live name :: unknown)
      | some target =>
        if !target.validType node || node.isSymbolicLink then
          .error (.error ("reset target has an unsafe chDB entry type: " ++ paths.join live name))
        else do
          let (targets, unknown) ← collectTargets live rest
          return (target :: targets, unknown)

/-- Everything a reset checks before it writes: the targets it will clear. -/
def acceptedTargets (dataDir : String) (disk : ResetDisk) :
    Except CheckpointError (List ResetTarget) := do
  assertCheckpointInfrastructureSafe paths dataDir disk.live
  assertRealLive paths dataDir disk.live
  let (targets, unknown) ← collectTargets paths (paths.resolve dataDir) disk.live.readdir
  if !unknown.isEmpty then
    throw (.error ("unrecognized data-directory entries were preserved; refusing reset: " ++
      ", ".intercalate (unknown.insertionSort TextLe)))
  return sortTargets targets

/-! ### The transaction -/

def parseResetTransaction (transaction : ResetTransaction) (expectedDataDir : String) :
    Except CheckpointError ResetTransaction :=
  if !paths.isAbsolute transaction.dataDir ||
      paths.resolve transaction.dataDir != paths.resolve expectedDataDir then
    .error (.error "reset transaction data directory does not match its configured owner")
  else if !decide transaction.targets.Nodup ||
      "\u0000".intercalate ((sortTargets transaction.targets).map (·.name)) !=
        "\u0000".intercalate (transaction.targets.map (·.name)) then
    .error (.error "reset transaction targets must be unique and sorted")
  else .ok transaction

def readResetTransaction (dataDir : String) : Resetter (Option ResetTransaction) := do
  let disk ← Program.get
  match disk.transaction with
  | none => return none
  | some (.text message) => Program.throw (.error message)
  | some (.json transaction) =>
    let transaction ← Program.ofExcept (parseResetTransaction paths transaction dataDir)
    return some transaction

/-- Write the transaction and go on with it. -/
def writeResetTransaction (transaction : ResetTransaction) : Resetter ResetTransaction := do
  Program.atomic fun disk => { disk with transaction := some (.json transaction) }
  return transaction

def assertResetTarget (path : String) (node : Node) (target : ResetTarget) :
    Except CheckpointError Unit :=
  if target = .status then assertRealFile node "reset target status" path
  else assertRealDirectory node ("reset target " ++ target.name) path

/-- A directory goes node by node, the status file at once. -/
def removeTarget (target : ResetTarget) : Resetter Unit :=
  .write
    (fun s s' => target ≠ .status ∧ ∃ node left, s.live.entry target.name = some node ∧
      node.Remains left ∧ s' = { s with live := s.live.setEntry target.name left })
    (fun s => { s with live := s.live.removeEntry target.name }) (.done ())

def removeTargets (live : String) : List ResetTarget → Resetter Unit
  | [] => return ()
  | target :: rest => do
    let disk ← Program.get
    match disk.live.entry target.name with
    | none => removeTargets live rest
    | some node =>
      if !node.found then removeTargets live rest
      else do
        Program.ofExcept (assertResetTarget (paths.join live target.name) node target)
        removeTarget target
        removeTargets live rest

def assertGone (moment : String) (targets : List ResetTarget) (disk : ResetDisk) :
    Except CheckpointError Unit :=
  match targets.find? fun target => (disk.live.entry target.name).any (·.found) with
  | none => .ok ()
  | some target => .error (.error ("reset transaction target reappeared " ++ moment ++ ": " ++
      target.name))

def clearLive (live : String) (transaction : ResetTransaction) : Resetter ResetTransaction := do
  removeTargets paths live transaction.targets
  writeResetTransaction { transaction with phase := .liveCleared }

def clearMarkers (transaction : ResetTransaction) : Resetter ResetTransaction := do
  let disk ← Program.get
  Program.ofExcept (assertGone "before marker removal" transaction.targets disk)
  Program.whenever disk.marker.isSome <|
    Program.atomic fun disk => { disk with marker := none }
  let disk ← Program.get
  Program.whenever disk.openMarker.isSome <|
    Program.atomic fun disk => { disk with openMarker := none }
  writeResetTransaction { transaction with phase := .markersCleared }

def intentPhase (live : String) (transaction : ResetTransaction) : Resetter ResetTransaction :=
  if transaction.phase = .intent then clearLive paths live transaction else pure transaction

def liveClearedPhase (transaction : ResetTransaction) : Resetter ResetTransaction :=
  if transaction.phase = .liveCleared then clearMarkers transaction else pure transaction

/-- Finish a reset that was recorded, and say whether there was one. -/
def reconcileResetTransactionUnlocked (dataDir : String) : Resetter Bool := do
  match ← readResetTransaction paths dataDir with
  | none => return false
  | some transaction =>
    let disk ← Program.get
    Program.require (!disk.restoreTransaction)
      (.error "reset and restore transactions both exist; refusing to choose one")
    Program.ofExcept (assertRealLive paths dataDir disk.live)
    let transaction ← intentPhase paths (paths.resolve dataDir) transaction
    let transaction ← liveClearedPhase transaction
    let disk ← Program.get
    Program.ofExcept (assertGone "after deletion" transaction.targets disk)
    Program.atomic fun disk => { disk with transaction := none }
    return true

def beginResetTransactionUnlocked (dataDir operationId : String) : Resetter Unit := do
  let disk ← Program.get
  let targets ← Program.ofExcept (acceptedTargets paths dataDir disk)
  let _ ← writeResetTransaction ⟨operationId, paths.resolve dataDir, targets, .intent⟩
  let _ ← reconcileResetTransactionUnlocked paths dataDir
  return ()

/-- What runs again after a cut: the reconciliation, alone or at the start of another reset. -/
inductive ResetRerun
  | reconcile
  | reset (operationId : String)

def ResetRerun.program (dataDir : String) : ResetRerun → Resetter Bool
  | .reconcile => reconcileResetTransactionUnlocked paths dataDir
  | .reset operationId => do
    let reconciled ← reconcileResetTransactionUnlocked paths dataDir
    Program.whenever (!reconciled) (beginResetTransactionUnlocked paths dataDir operationId)
    return reconciled

end

end Maple.Checkpoint
