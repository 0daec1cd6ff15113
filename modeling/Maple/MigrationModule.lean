import Maple.MigrationStore

/-! Migration modules: what a transition's handlers may do, the registry and the chain of modules
between two schemas. -/

namespace Maple.Migration

structure StepUpdate (J : Type) where
  state : Option J
  progress : Option J

/-- What a handler does: it reads and changes the stores, saves its step through the context, and
returns or fails. -/
inductive Handler (J D α : Type) : Type
  | done (a : α)
  | throw (e : MigrationError)
  | saveStep (update : StepUpdate J) (next : Handler J D α)
  | act (f : Stores D → Stores D) (next : Handler J D α)
  | read (next : Stores D → Handler J D α)

structure MigrationModuleContext (J : Type) where
  dataDir : Path
  sourceDataDir : Path
  targetDataDir : Path
  source : LocalSchemaIdentity
  target : LocalSchemaIdentity
  cutoffAt : String
  step : MigrationStepJournal J

/-- A module of the registry. An absent result stands for `undefined`. -/
structure LocalStoreMigration (J D : Type) where
  id : String
  moduleVersion : ℤ
  fromSchema : LocalSchemaIdentity
  toSchema : LocalSchemaIdentity
  operations : List String
  decodeState : J → Except MigrationError J
  decodeProgress : Option J → Except MigrationError (Option J)
  preflight : MigrationModuleContext J → Handler J D (Option J)
  prepareTarget : MigrationModuleContext J → J → Handler J D (Option J)
  apply : MigrationModuleContext J → J → Option J → Handler J D (Option J)
  verify : MigrationModuleContext J → J → J → Handler J D Unit
  recover : MigrationModuleContext J → Option J → Option J → Handler J D (StepUpdate J)

variable {J D : Type}

/-- The registry's checks, over the ids and source versions seen so far. -/
def checkRegistry (ids : List String) (versions : List ℤ) :
    List (LocalStoreMigration J D) → Except MigrationError Unit
  | [] => .ok ()
  | migration :: rest => do
    ensure (migration.id ∉ ids) (.error ("duplicate local migration id: " ++ migration.id))
    ensure (migration.fromSchema.version ∉ versions)
      (.error s!"ambiguous local migration path from schema version {migration.fromSchema.version}")
    ensure (1 ≤ migration.moduleVersion)
      (.error ("migration " ++ migration.id ++ " has an invalid module version"))
    ensure (migration.fromSchema.version < migration.toSchema.version)
      (.error ("migration " ++ migration.id ++ " is not a forward migration"))
    ensure (migration.operations ≠ []) (.error ("migration " ++ migration.id ++ " has no operations"))
    checkRegistry (migration.id :: ids) (migration.fromSchema.version :: versions) rest

def validateMigrationRegistry (registry : List (LocalStoreMigration J D)) :
    Except MigrationError Unit := checkRegistry [] [] registry

def identityLabel (identity : LocalSchemaIdentity) : String :=
  s!"v{identity.version} (" ++ identity.fingerprint ++ ")"

/-- Whether the module starts at `current`: digests are compared where both are recorded. -/
def LocalStoreMigration.startsAt (migration : LocalStoreMigration J D)
    (current : LocalSchemaIdentity) : Bool :=
  migration.fromSchema.fingerprint == current.fingerprint &&
    (migration.fromSchema.digest == "" || current.digest == "" ||
      migration.fromSchema.digest == current.digest)

/-- The loop of `resolveMigrationChain`. It visits a version of the registry at most once, so
`registry.length + 1` passes are enough. -/
def resolveSteps (registry : List (LocalStoreMigration J D)) (target : LocalSchemaIdentity) :
    ℕ → List ℤ → LocalSchemaIdentity →
      Except MigrationError (List (LocalStoreMigration J D) × LocalSchemaIdentity)
  | 0, _, _ => .error (.error "local migration registry contains a cycle")
  | passes + 1, visited, current =>
    if ¬ current.version < target.version then .ok ([], current)
    else if current.version ∈ visited then
      .error (.error "local migration registry contains a cycle")
    else
      match registry.find? (fun migration => migration.fromSchema.version = current.version) with
      | none =>
        .error (.error ("no registered local migration from schema " ++ identityLabel current ++
          s!" to v{target.version}"))
      | some migration =>
        if migration.startsAt current then do
          let (chain, reached) ← resolveSteps registry target passes (current.version :: visited)
            { migration.toSchema with chdb := target.chdb }
          return (migration :: chain, reached)
        else
          .error (.error ("no registered local migration from schema " ++ identityLabel current ++
            s!" to v{target.version}"))

def resolveMigrationChain (currentVersion : ℤ) (source target : LocalSchemaIdentity)
    (registry : List (LocalStoreMigration J D)) :
    Except MigrationError (List (LocalStoreMigration J D)) := do
  ensure (source.chdb = target.chdb ∨ source.chdb = "dev" ∨ target.chdb = "dev")
    (.error ("migration requires a version-matched chDB reader (store " ++ source.chdb ++ "; build " ++
      target.chdb ++ ")"))
  ensure (¬ (target.version < source.version ∧ currentVersion < source.version))
    (.error ("local store schema " ++ identityLabel source ++ " is newer than this build's " ++
      identityLabel target))
  ensure (source.version ≤ target.version)
    (.error ("downgrading local schema " ++ identityLabel source ++ " to " ++ identityLabel target ++
      " is unsupported"))
  if source.version = target.version then
    ensure (source.fingerprint = target.fingerprint ∧ source.digest = target.digest)
      (.error (s!"schema version {source.version} has an unknown fingerprint " ++
        if source.fingerprint = "" then "<none>" else source.fingerprint))
    return []
  else
    validateMigrationRegistry registry
    let (chain, reached) ← resolveSteps registry target (registry.length + 1) [] source
    ensure (reached.version = target.version ∧ reached.fingerprint = target.fingerprint ∧
        reached.digest = target.digest)
      (.error ("registered migrations stop at " ++ identityLabel reached ++ "; target is " ++
        identityLabel target))
    return chain

structure MigrationPlan (J D : Type) where
  source : LocalSchemaIdentity
  target : LocalSchemaIdentity
  chain : List (LocalStoreMigration J D)

def planMigration (host : Host D) (registry : List (LocalStoreMigration J D))
    (source : LocalSchemaIdentity) : Except MigrationError (MigrationPlan J D) := do
  let chain ← resolveMigrationChain host.currentSchema.version source host.currentSchema registry
  return ⟨source, host.currentSchema, chain⟩

def moduleForStep (step : MigrationStepJournal J) (modules : List (LocalStoreMigration J D)) :
    Except MigrationError (LocalStoreMigration J D) :=
  match modules.find? (fun candidate =>
      candidate.id == step.id && candidate.moduleVersion == step.moduleVersion &&
        candidate.fromSchema == step.fromSchema && candidate.toSchema == step.toSchema) with
  | some migration => .ok migration
  | none =>
    .error (.error ("unfinished local migration step " ++ step.id ++ " is not available in this build"))

/-- Decode what the step persisted with the module it is bound to. -/
def decodeStep (migration : LocalStoreMigration J D) (index : ℕ) (step : MigrationStepJournal J) :
    Except MigrationError Unit := do
  match step.state with
  | none => pure ()
  | some state => discard (migration.decodeState state)
  match step.progress with
  | none => pure ()
  | some progress => discard (migration.decodeProgress (some progress))
  ensure (¬ ((step.status = .verified ∨ step.status = .completed) ∧ step.state = none))
    (.error s!"unfinished local migration step {index} has no recoverable state")

def validateSteps (modules : List (LocalStoreMigration J D)) (index : ℕ) :
    List (MigrationStepJournal J) → Except MigrationError Unit
  | [] => .ok ()
  | step :: rest => do
    let migration ← moduleForStep step modules
    decodeStep migration index step
    validateSteps modules (index + 1) rest

def validateJournalModuleState (journal : MigrationJournal J)
    (modules : List (LocalStoreMigration J D)) : Except MigrationError Unit :=
  validateSteps modules 0 journal.chain

def journalModules (journal : MigrationJournal J) (modules : List (LocalStoreMigration J D)) :
    Except MigrationError (List (LocalStoreMigration J D)) := do
  validateJournalModuleState journal modules
  journal.chain.mapM fun step => moduleForStep step modules

/-! ### Paths -/

def migrationRootPath (dataDir : Path) (migrationId : String) : Path :=
  dataDir.dropLast ++ [".maple-migrations", migrationId]

/-- The path lies below the root. -/
def safeMigrationPath (path root : Path) (label : String) : Except MigrationError Path :=
  if root <+: path ∧ path ≠ root then .ok path
  else .error (.error (label ++ " escapes migration root"))

def assertJournalPaths (dataDir : Path) (journal : MigrationJournal J) :
    Except MigrationError Unit := do
  ensure (journal.sourceDataDir = dataDir)
    (.error "local migration journal source does not match the configured data directory")
  let root := migrationRootPath dataDir journal.migrationId
  discard (safeMigrationPath journal.targetDataDir root "migration target")
  ensure (journal.targetDataDir.dropLast = root ++ ["target"])
    (.error "local migration journal target is outside its owned target directory")
  ensure (journal.chain ≠ [] ∧ journal.currentStepIndex ≤ journal.chain.length)
    (.error "local migration journal chain state is invalid")
  ensure (journal.chain.getLast?.map (fun step =>
        (step.toSchema.version, step.toSchema.fingerprint, step.toSchema.digest)) =
      some (journal.targetVersion, journal.targetFingerprint, journal.targetDigest))
    (.error "local migration journal final target does not match its chain")

/-! ### What the checks establish -/

lemma moduleForStep_eq_ok {step : MigrationStepJournal J}
    {modules : List (LocalStoreMigration J D)} {migration : LocalStoreMigration J D} :
    moduleForStep step modules = .ok migration ↔
      modules.find? (fun candidate =>
        candidate.id == step.id && candidate.moduleVersion == step.moduleVersion &&
          candidate.fromSchema == step.fromSchema && candidate.toSchema == step.toSchema) =
        some migration := by
  unfold moduleForStep
  split
  next found hfound => simp [hfound]
  next hfound => simp [hfound]

lemma moduleForStep_mem {step : MigrationStepJournal J} {modules : List (LocalStoreMigration J D)}
    {migration : LocalStoreMigration J D} (h : moduleForStep step modules = .ok migration) :
    migration ∈ modules ∧ migration.fromSchema = step.fromSchema ∧
      migration.toSchema = step.toSchema := by
  have hfind := moduleForStep_eq_ok.mp h
  have hmatches := List.find?_some hfind
  simp only [Bool.and_eq_true, beq_iff_eq] at hmatches
  exact ⟨List.mem_of_find?_eq_some hfind, hmatches.1.2, hmatches.2⟩

lemma validateSteps_mem {modules : List (LocalStoreMigration J D)} {index : ℕ}
    {steps : List (MigrationStepJournal J)} (h : validateSteps modules index steps = .ok ())
    {step : MigrationStepJournal J} (hstep : step ∈ steps) :
    ∃ migration index, moduleForStep step modules = .ok migration ∧
      decodeStep migration index step = .ok () := by
  induction steps generalizing index with
  | nil => simp at hstep
  | cons first rest ih =>
    rw [validateSteps, bind_eq_ok] at h
    obtain ⟨migration, hmodule, hrest⟩ := h
    rw [bind_unit_eq_ok] at hrest
    rcases List.mem_cons.mp hstep with rfl | hmem
    · exact ⟨migration, index, hmodule, hrest.1⟩
    · exact ih hrest.2 hmem

lemma checkRegistry_forward {registry : List (LocalStoreMigration J D)} {ids : List String}
    {versions : List ℤ} (h : checkRegistry ids versions registry = .ok ())
    {migration : LocalStoreMigration J D} (hmem : migration ∈ registry) :
    1 ≤ migration.moduleVersion ∧ migration.fromSchema.version < migration.toSchema.version := by
  induction registry generalizing ids versions with
  | nil => simp at hmem
  | cons first rest ih =>
    simp only [checkRegistry, bind_unit_eq_ok, ensure_eq_ok] at h
    obtain ⟨-, -, hversion, hforward, -, hrest⟩ := h
    rcases List.mem_cons.mp hmem with rfl | hmem
    · exact ⟨hversion, hforward⟩
    · exact ih hrest hmem

lemma mapM_of_forall {α β : Type} {f : α → Except MigrationError β} {xs : List α}
    (h : ∀ x ∈ xs, ∃ y, f x = .ok y) : ∃ ys, xs.mapM f = .ok ys := by
  induction xs with
  | nil => exact ⟨[], rfl⟩
  | cons x xs ih =>
    obtain ⟨y, hy⟩ := h x (by simp)
    obtain ⟨ys, hys⟩ := ih fun x hx => h x (by simp [hx])
    exact ⟨y :: ys, by rw [List.mapM_cons, hy, hys]; rfl⟩

lemma journalModules_of_valid {journal : MigrationJournal J}
    {registry : List (LocalStoreMigration J D)}
    (h : validateJournalModuleState journal registry = .ok ()) :
    ∃ modules, journalModules journal registry = .ok modules := by
  have hsteps : ∀ step ∈ journal.chain, ∃ migration, moduleForStep step registry = .ok migration := by
    intro step hstep
    obtain ⟨migration, _, hmodule, -⟩ := validateSteps_mem h hstep
    exact ⟨migration, hmodule⟩
  obtain ⟨modules, hmodules⟩ := mapM_of_forall hsteps
  refine ⟨modules, ?_⟩
  rw [journalModules, h]
  exact hmodules

end Maple.Migration
