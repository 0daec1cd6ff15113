import Maple.InsertStatements

/-! The insert batcher: exports queued together share statements, a shared statement that fails is
retried export by export. -/

namespace Maple.Inserts

structure InsertBatch (δ : Type) where
  datasource : δ
  ndjson : String

inductive Cause (ε : Type)
  | noInsertMapping
  | thrown (error : ε)

structure Failure (δ ε : Type) where
  datasource : δ
  cause : Cause ε

structure LocalInsertError (δ ε : Type) extends Failure δ ε where
  accepted : ℕ

abbrev Outcome (δ ε : Type) := Except (LocalInsertError δ ε) ℕ

/-- An export in the queue; what it has come to is its `Progress`. -/
structure QueuedExport (δ : Type) where
  id : ℕ
  batches : List (InsertBatch δ)

structure Progress (δ ε : Type) where
  accepted : ℕ := 0
  failure : Option (Failure δ ε) := none

/-- One export's rows of one datasource. -/
structure QueuedPart where
  queued : ℕ
  ndjson : String

/-- A committed row, and the export that brought it. -/
structure Row (δ : Type) where
  owner : ℕ
  datasource : δ
  text : String
deriving DecidableEq, Repr

/-- A statement that ran, and whether it was a retry of one export. -/
structure Attempt (δ ε : Type) where
  datasource : δ
  owners : List ℕ
  data : List String
  retry : Bool
  thrown : Option ε

structure Store (δ ε : Type) where
  progress : ℕ → Progress δ ε
  table : List (Row δ)
  history : List (Attempt δ ε)

section Flush
variable {δ ε : Type}

def Store.setProgress (store : Store δ ε) (id : ℕ) (progress : Progress δ ε) : Store δ ε :=
  { store with progress := Function.update store.progress id progress }

def Store.accept (store : Store δ ε) (id rowCount : ℕ) : Store δ ε :=
  let progress := store.progress id
  store.setProgress id { progress with accepted := progress.accepted + rowCount }

def Store.fail (store : Store δ ε) (id : ℕ) (failure : Failure δ ε) : Store δ ε :=
  let progress := store.progress id
  store.setProgress id { progress with failure := some failure }

def Store.failed (store : Store δ ε) (id : ℕ) : Bool := (store.progress id).failure.isSome

def ownersOf (statement : BatchedInsertStatement QueuedPart) : List ℕ :=
  statement.parts.map fun part => part.owner.queued

/-- The rows of a statement: its lines, those of each part after those of the part before it. -/
def rowsOf (datasource : δ) (statement : BatchedInsertStatement QueuedPart) : List (Row δ) :=
  ((statement.parts.flatMap fun part => List.replicate part.rowCount part.owner.queued).zip
    statement.data).map fun row => { owner := row.1, datasource, text := row.2 }

variable (throws : ℕ → Option ε)

/-- A statement commits all its rows, or throws and commits none. -/
def exec (datasource : δ) (retry : Bool) (statement : BatchedInsertStatement QueuedPart)
    (store : Store δ ε) : Store δ ε × Option ε :=
  let thrown := throws store.history.length
  let attempt : Attempt δ ε :=
    { datasource, owners := ownersOf statement, data := statement.data, retry, thrown }
  ({ store with
      table := if thrown.isSome then store.table else store.table ++ rowsOf datasource statement
      history := store.history ++ [attempt] }, thrown)

def insertAloneFrom (datasource : δ) (part : QueuedPart) :
    List InsertStatement → Store δ ε → Store δ ε × Bool
  | [], store => (store, true)
  | statement :: statements, store =>
    match exec throws datasource true (alone part statement) store with
    | (store, some error) =>
      (store.fail part.queued { datasource, cause := .thrown error }, false)
    | (store, none) =>
      insertAloneFrom datasource part statements (store.accept part.queued statement.rowCount)

def insertAlone (datasource : δ) (part : QueuedPart) (store : Store δ ε) : Store δ ε × Bool :=
  insertAloneFrom throws datasource part (buildInsertStatements part.ndjson) store

/-- After two failures in a row the rest fail untried. -/
def retryAlone (datasource : δ) (cause : Cause ε) :
    List QueuedPart → ℕ → Store δ ε → Store δ ε
  | [], _, store => store
  | part :: parts, failedInARow, store =>
    if 2 ≤ failedInARow then
      retryAlone datasource cause parts failedInARow
        (store.fail part.queued { datasource, cause })
    else
      match insertAlone throws datasource part store with
      | (store, true) => retryAlone datasource cause parts 0 store
      | (store, false) => retryAlone datasource cause parts (failedInARow + 1) store

def runStatement (datasource : δ) (store : Store δ ε)
    (statement : BatchedInsertStatement QueuedPart) : Store δ ε :=
  if (ownersOf statement).any store.failed then store
  else
    match exec throws datasource false statement store with
    | (store, none) =>
      statement.parts.foldl (fun store part => store.accept part.owner.queued part.rowCount) store
    | (store, some error) =>
      match statement.parts with
      | [part] => store.fail part.owner.queued { datasource, cause := .thrown error }
      | parts =>
        retryAlone throws datasource (.thrown error) (parts.map fun part => part.owner) 0 store

def insertDatasource (datasource : δ) (parts : List QueuedPart) (store : Store δ ε) : Store δ ε :=
  (buildBatchedInsertStatements (parts.map fun part => (part, part.ndjson))).foldl
    (runStatement throws datasource) store

variable [LinearOrder δ] (template : δ → Option InsertTemplate)

def ownBatches (batches : List (InsertBatch δ)) (datasource : δ) : List (InsertBatch δ) :=
  batches.filter fun batch => batch.datasource = datasource

def joined (batches : List (InsertBatch δ)) : String :=
  joinLines (batches.map fun batch => batch.ndjson)

/-- The parts of the exports that have not failed. -/
def partsOf (queue : List (QueuedExport δ)) (datasource : δ) (store : Store δ ε) :
    List QueuedPart :=
  queue.flatMap fun owner =>
    if store.failed owner.id then []
    else
      let own := ownBatches owner.batches datasource
      if own.isEmpty then [] else [{ queued := owner.id, ndjson := joined own }]

/-- Without a template the statements cannot be built, and all parts fail. -/
def flushDatasource (queue : List (QueuedExport δ)) (store : Store δ ε) (datasource : δ) :
    Store δ ε :=
  let parts := partsOf queue datasource store
  match template datasource with
  | some _ => insertDatasource throws datasource parts store
  | none => parts.foldl (fun store part =>
      if store.failed part.queued then store
      else store.fail part.queued { datasource, cause := .noInsertMapping }) store

def datasourcesOf (queue : List (QueuedExport δ)) : List δ :=
  ((queue.flatMap fun owner => owner.batches.map fun batch => batch.datasource).dedup).insertionSort
    (· ≤ ·)

structure World (δ ε : Type) where
  store : Store δ ε
  queue : List (QueuedExport δ)
  queuedBytes : ℕ
  timer : Bool
  outcomes : List (ℕ × Outcome δ ε)
  next : ℕ

def World.start : World δ ε where
  store := { progress := fun _ => {}, table := [], history := [] }
  queue := []
  queuedBytes := 0
  timer := false
  outcomes := []
  next := 0

def Progress.outcome (progress : Progress δ ε) : Outcome δ ε :=
  match progress.failure with
  | none => .ok progress.accepted
  | some failure => .error ⟨failure, progress.accepted⟩

def settle (store : Store δ ε) (owner : QueuedExport δ) : ℕ × Outcome δ ε :=
  (owner.id, (store.progress owner.id).outcome)

def World.flush (world : World δ ε) : World δ ε :=
  if world.queue.isEmpty then { world with timer := false }
  else
    let store := (datasourcesOf world.queue).foldl (flushDatasource throws template world.queue)
      world.store
    { world with
      store
      queue := []
      queuedBytes := 0
      timer := false
      outcomes := world.outcomes ++ world.queue.map (settle store) }

def byteLength (batches : List (InsertBatch δ)) : ℕ :=
  (batches.map fun batch => batch.ndjson.utf8ByteSize).sum

/-- An export that is not queued settles at once. -/
def World.enqueue (world : World δ ε) (batches : List (InsertBatch δ)) : World δ ε :=
  let world := { world with next := world.next + 1 }
  let id := world.next - 1
  match batches.find? fun batch => (template batch.datasource).isNone with
  | some unknown =>
    let error : LocalInsertError δ ε :=
      { datasource := unknown.datasource, cause := .noInsertMapping, accepted := 0 }
    { world with outcomes := world.outcomes ++ [(id, .error error)] }
  | none =>
    if batches.isEmpty then { world with outcomes := world.outcomes ++ [(id, .ok 0)] }
    else
      let sorted := batches.insertionSort fun a b => a.datasource ≤ b.datasource
      let world := { world with
        queue := world.queue ++ [(⟨id, sorted⟩ : QueuedExport δ)]
        queuedBytes := world.queuedBytes + byteLength batches }
      if MAX_ESCAPED_PAYLOAD_BYTES ≤ world.queuedBytes then world.flush throws template
      else { world with timer := true }

/-- A flush comes with the timer or before another statement. -/
inductive Action (δ : Type)
  | insert (batches : List (InsertBatch δ))
  | flush

def World.act (world : World δ ε) : Action δ → World δ ε
  | .insert batches => world.enqueue throws template batches
  | .flush => world.flush throws template

def World.run (world : World δ ε) (actions : List (Action δ)) : World δ ε :=
  actions.foldl (World.act throws template) world

end Flush

end Maple.Inserts
