import Mathlib

/-! The journal of a local-store migration: its shape, the checks a reader makes and what they
establish. `J` stands for the JSON values a module persists. -/

namespace Maple.Migration

structure LocalSchemaIdentity where
  version : ℤ
  fingerprint : String
  digest : String
  chdb : String
  deriving DecidableEq

inductive MigrationPhase
  | planned
  | preflightComplete
  | targetCreated
  | copying
  | copyVerified
  | promotionStarted
  | promoted
  | failed
  deriving DecidableEq

def MigrationPhase.name : MigrationPhase → String
  | .planned => "planned"
  | .preflightComplete => "preflight-complete"
  | .targetCreated => "target-created"
  | .copying => "copying"
  | .copyVerified => "copy-verified"
  | .promotionStarted => "promotion-started"
  | .promoted => "promoted"
  | .failed => "failed"

inductive MigrationStepStatus
  | pending
  | running
  | verified
  | completed
  deriving DecidableEq

def MigrationStepStatus.name : MigrationStepStatus → String
  | .pending => "pending"
  | .running => "running"
  | .verified => "verified"
  | .completed => "completed"

/-- A resolved path, as its components. -/
abbrev Path := List String

structure MigrationStepJournal (J : Type) where
  id : String
  moduleVersion : ℤ
  fromSchema : LocalSchemaIdentity
  toSchema : LocalSchemaIdentity
  status : MigrationStepStatus
  state : Option J
  progress : Option J
  deriving DecidableEq

structure MigrationJournal (J : Type) where
  migrationId : String
  phase : MigrationPhase
  chain : List (MigrationStepJournal J)
  currentStepIndex : ℕ
  sourceDataDir : Path
  sourceStoreId : String
  sourceChdb : String
  sourceFingerprint : String
  sourceDigest : String
  sourceVersion : ℤ
  targetDataDir : Path
  targetStoreId : String
  targetChdb : String
  targetFingerprint : String
  targetDigest : String
  targetVersion : ℤ
  cutoffAt : String
  createdAt : String
  failure : Option String
  deriving DecidableEq

/-- What the coordinator throws: its own messages, a field the journal or marker schema refuses, or
a call of the file system that fails. -/
inductive MigrationError
  | error (message : String)
  | schema (field : String)
  | io (call : String)
  deriving DecidableEq

def MigrationError.message : MigrationError → String
  | .error message => message
  | .schema field => field
  | .io call => call

/-- Throw the error unless the condition holds. -/
def ensure (p : Prop) [Decidable p] (e : MigrationError) : Except MigrationError Unit :=
  if p then .ok () else .error e

variable {J : Type}

def MigrationJournal.source (journal : MigrationJournal J) : LocalSchemaIdentity :=
  ⟨journal.sourceVersion, journal.sourceFingerprint, journal.sourceDigest, journal.sourceChdb⟩

def MigrationJournal.target (journal : MigrationJournal J) : LocalSchemaIdentity :=
  ⟨journal.targetVersion, journal.targetFingerprint, journal.targetDigest, journal.targetChdb⟩

/-- The step's place in the journal after `step` took it. -/
def MigrationJournal.setStep (journal : MigrationJournal J) (index : ℕ)
    (step : MigrationStepJournal J) : MigrationJournal J :=
  { journal with chain := journal.chain.set index step }

/-! ### The shape of the envelope -/

def migrationIdCharacter (c : Char) : Bool := c.isAlphanum || c == '.' || c == '_' || c == '-'

def LocalSchemaIdentity.fields (identity : LocalSchemaIdentity) : List (String × Bool) :=
  [("version", decide (0 ≤ identity.version)), ("fingerprint", identity.fingerprint != ""),
    ("chdb", identity.chdb != "")]

def MigrationStepJournal.fields (step : MigrationStepJournal J) : List (String × Bool) :=
  [("id", step.id != ""), ("moduleVersion", decide (1 ≤ step.moduleVersion))] ++
    step.fromSchema.fields ++ step.toSchema.fields

/-- The checked fields. A resolved path is never the empty string, so the paths have no check. -/
def MigrationJournal.fields (journal : MigrationJournal J) : List (String × Bool) :=
  [("migrationId", journal.migrationId != "" && journal.migrationId.toList.all migrationIdCharacter),
    ("chain", !journal.chain.isEmpty)] ++
    journal.chain.flatMap MigrationStepJournal.fields ++
    [("sourceStoreId", journal.sourceStoreId != ""),
      ("sourceChdb", journal.sourceChdb != ""),
      ("sourceFingerprint", journal.sourceFingerprint != ""),
      ("targetStoreId", journal.targetStoreId != ""),
      ("targetChdb", journal.targetChdb != ""),
      ("targetFingerprint", journal.targetFingerprint != ""),
      ("targetDigest", journal.targetDigest != ""),
      ("cutoffAt", journal.cutoffAt != ""),
      ("createdAt", journal.createdAt != "")]

/-- The first field that fails its check is the one refused. -/
def checkFields : List (String × Bool) → Except MigrationError Unit
  | [] => .ok ()
  | (field, valid) :: rest => if valid then checkFields rest else .error (.schema field)

def decodeMigrationJournal (journal : MigrationJournal J) :
    Except MigrationError (MigrationJournal J) := do
  checkFields journal.fields
  return journal

/-! ### The chain of steps -/

def sameJournalIdentity (a b : LocalSchemaIdentity) : Bool :=
  a.version == b.version && a.fingerprint == b.fingerprint && a.digest == b.digest &&
    a.chdb == b.chdb

def assertContinues (index : ℕ) : List (MigrationStepJournal J) → Except MigrationError Unit
  | a :: b :: rest =>
    if sameJournalIdentity a.toSchema b.fromSchema then assertContinues (index + 1) (b :: rest)
    else .error (.error s!"migration journal step {index} does not continue the previous step")
  | _ => .ok ()

/-- Every step of the list, numbered from `index`, has the status. -/
def assertStatus (status : MigrationStepStatus) (message : ℕ → String) (index : ℕ) :
    List (MigrationStepJournal J) → Except MigrationError Unit
  | [] => .ok ()
  | step :: rest =>
    if step.status = status then assertStatus status message (index + 1) rest
    else .error (.error (message index))

def assertCurrentStep (journal : MigrationJournal J) : Except MigrationError Unit :=
  match journal.chain[journal.currentStepIndex]? with
  | none => .ok ()
  | some step =>
    if journal.phase = .planned ∧ journal.currentStepIndex = 0 then
      if step.status = .pending ∨ step.status = .running then .ok ()
      else .error (.error "planned migration journal must begin with a pending or running step")
    else if step.status = .running ∨ step.status = .verified then .ok ()
    else .error (.error "migration journal current step must be running or verified")

def assertPhase (journal : MigrationJournal J) : Except MigrationError Unit :=
  if (journal.phase = .promotionStarted ∨ journal.phase = .promoted) ∧
      journal.currentStepIndex ≠ journal.chain.length then
    .error (.error
      (journal.phase.name ++ " migration journal must contain an entirely completed chain"))
  else if (journal.phase = .preflightComplete ∨ journal.phase = .targetCreated ∨
      journal.phase = .copying) ∧ journal.currentStepIndex = journal.chain.length then
    .error (.error (journal.phase.name ++ " migration journal must still have an active current step"))
  else if journal.phase = .planned ∧ journal.currentStepIndex ≠ 0 then
    .error (.error "planned migration journal must have currentStepIndex zero")
  else .ok ()

/-- The reader's cross-field checks. The source's tests that every step is completed at the end of
the chain are those of `assertStatus` over the steps before `currentStepIndex`. -/
def assertJournalChainInvariants (journal : MigrationJournal J) : Except MigrationError Unit := do
  ensure (journal.currentStepIndex ≤ journal.chain.length)
    (.error "migration journal currentStepIndex is invalid")
  ensure (journal.chain.head?.map (·.fromSchema) = some journal.source)
    (.error "migration journal source identity does not match its first step")
  ensure (journal.chain.getLast?.map (·.toSchema) = some journal.target)
    (.error "migration journal target identity does not match its final step")
  assertContinues 1 journal.chain
  assertStatus .completed
    (fun index => s!"migration journal step {index} precedes currentStepIndex but is not completed")
    0 (journal.chain.take journal.currentStepIndex)
  assertStatus .pending
    (fun index => s!"migration journal step {index} follows currentStepIndex but is not pending")
    (journal.currentStepIndex + 1) (journal.chain.drop (journal.currentStepIndex + 1))
  assertCurrentStep journal
  assertPhase journal

/-- A step that has been verified carries what a resume needs. -/
def assertPersisted (index : ℕ) : List (MigrationStepJournal J) → Except MigrationError Unit
  | [] => .ok ()
  | step :: rest =>
    if step.status = .verified ∨ step.status = .completed then
      if step.state.isNone then
        .error (.error
          (s!"migration journal step {index} is " ++ step.status.name ++ " but has no persisted state"))
      else if step.progress.isNone then
        .error (.error
          (s!"migration journal step {index} is " ++ step.status.name ++
            " but has no persisted progress"))
      else assertPersisted (index + 1) rest
    else assertPersisted (index + 1) rest

def parseJournal (value : MigrationJournal J) : Except MigrationError (MigrationJournal J) := do
  let journal ← decodeMigrationJournal value
  assertJournalChainInvariants journal
  assertPersisted 0 journal.chain
  return journal

/-! ### What the checks establish -/

lemma sameJournalIdentity_iff {a b : LocalSchemaIdentity} : sameJournalIdentity a b ↔ a = b := by
  cases a
  cases b
  simp [sameJournalIdentity, and_assoc]

lemma assertContinues_iff {index : ℕ} {chain : List (MigrationStepJournal J)} :
    assertContinues index chain = .ok () ↔
      List.IsChain (fun a b => a.toSchema = b.fromSchema) chain := by
  fun_induction assertContinues index chain with
  | case1 index a b rest hsame ih => simp [ih, sameJournalIdentity_iff.mp hsame]
  | case2 index a b rest hdiffer =>
    have hne : a.toSchema ≠ b.fromSchema := fun heq => hdiffer (sameJournalIdentity_iff.mpr heq)
    simp [hne]
  | case3 chain index hshort =>
    rcases chain with _ | ⟨a, rest⟩
    · simp
    rcases rest with _ | ⟨b, rest⟩
    · simp
    · exact (hshort a b rest rfl).elim

lemma assertStatus_iff {status : MigrationStepStatus} {message : ℕ → String} {index : ℕ}
    {steps : List (MigrationStepJournal J)} :
    assertStatus status message index steps = .ok () ↔ ∀ step ∈ steps, step.status = status := by
  fun_induction assertStatus status message index steps with
  | case1 => simp
  | case2 index step rest hstatus ih => simp [ih, hstatus]
  | case3 index step rest hstatus => simp [hstatus]

lemma assertPersisted_iff {index : ℕ} {steps : List (MigrationStepJournal J)} :
    assertPersisted index steps = .ok () ↔
      ∀ step ∈ steps, step.status = .verified ∨ step.status = .completed →
        step.state.isSome ∧ step.progress.isSome := by
  fun_induction assertPersisted index steps with
  | case1 => simp
  | case2 index step rest hstatus hstate =>
    have hne : ¬ step.state.isSome := by simpa using hstate
    simp [hstatus, hne]
  | case3 index step rest hstatus hstate hprogress =>
    have hne : ¬ step.progress.isSome := by simpa using hprogress
    simp [hstatus, hne]
  | case4 index step rest hstatus hstate hprogress ih =>
    have hsome : step.state.isSome ∧ step.progress.isSome := by
      constructor
      · simpa [← Option.isSome_iff_ne_none] using hstate
      · simpa [← Option.isSome_iff_ne_none] using hprogress
    simp [ih, hsome]
  | case5 index step rest hstatus ih => simp [ih, hstatus]

lemma checkFields_iff {fields : List (String × Bool)} :
    checkFields fields = .ok () ↔ ∀ field ∈ fields, field.2 = true := by
  induction fields with
  | nil => simp [checkFields]
  | cons field rest ih =>
    obtain ⟨name, valid⟩ := field
    cases valid with
    | true => simp [checkFields, ih]
    | false => simp [checkFields]

/-- The journal's chain, index and phase agree. -/
structure ChainInvariants (journal : MigrationJournal J) : Prop where
  current_le : journal.currentStepIndex ≤ journal.chain.length
  source : journal.chain.head?.map (·.fromSchema) = some journal.source
  target : journal.chain.getLast?.map (·.toSchema) = some journal.target
  continues : List.IsChain (fun a b => a.toSchema = b.fromSchema) journal.chain
  completed : ∀ step ∈ journal.chain.take journal.currentStepIndex, step.status = .completed
  pending : ∀ step ∈ journal.chain.drop (journal.currentStepIndex + 1), step.status = .pending
  current : ∀ step, journal.chain[journal.currentStepIndex]? = some step →
    if journal.phase = .planned ∧ journal.currentStepIndex = 0 then
      step.status = .pending ∨ step.status = .running
    else step.status = .running ∨ step.status = .verified
  ended : journal.phase = .promotionStarted ∨ journal.phase = .promoted →
    journal.currentStepIndex = journal.chain.length
  active : journal.phase = .preflightComplete ∨ journal.phase = .targetCreated ∨
    journal.phase = .copying → journal.currentStepIndex ≠ journal.chain.length
  planned : journal.phase = .planned → journal.currentStepIndex = 0

lemma assertCurrentStep_iff {journal : MigrationJournal J} :
    assertCurrentStep journal = .ok () ↔
      ∀ step, journal.chain[journal.currentStepIndex]? = some step →
        if journal.phase = .planned ∧ journal.currentStepIndex = 0 then
          step.status = .pending ∨ step.status = .running
        else step.status = .running ∨ step.status = .verified := by
  unfold assertCurrentStep
  split
  next hnone => simp [hnone]
  next step hstep =>
    simp only [hstep, Option.some.injEq, forall_eq']
    split_ifs
    · simp [*]
    · simp [*]
    · simp [*]
    · simp [*]

lemma assertPhase_iff {journal : MigrationJournal J} :
    assertPhase journal = .ok () ↔
      (journal.phase = .promotionStarted ∨ journal.phase = .promoted →
        journal.currentStepIndex = journal.chain.length) ∧
      (journal.phase = .preflightComplete ∨ journal.phase = .targetCreated ∨
        journal.phase = .copying → journal.currentStepIndex ≠ journal.chain.length) ∧
      (journal.phase = .planned → journal.currentStepIndex = 0) := by
  unfold assertPhase
  split_ifs with hended hactive hplanned
  · simp only [false_iff]
    intro h
    exact hended.2 (h.1 hended.1)
  · simp only [false_iff]
    intro h
    exact h.2.1 hactive.1 hactive.2
  · simp only [false_iff]
    intro h
    exact hplanned.2 (h.2.2 hplanned.1)
  · simp only [true_iff]
    tauto

lemma bind_eq_ok {α β : Type} {x : Except MigrationError α} {f : α → Except MigrationError β}
    {b : β} : (x >>= f) = .ok b ↔ ∃ a, x = .ok a ∧ f a = .ok b := by
  cases x with
  | error e => simp [bind, Except.bind]
  | ok a => simp [bind, Except.bind]

lemma bind_unit_eq_ok {β : Type} {x : Except MigrationError Unit}
    {f : Unit → Except MigrationError β} {b : β} :
    (x >>= f) = .ok b ↔ x = .ok () ∧ f () = .ok b := by
  rw [bind_eq_ok]
  constructor
  · rintro ⟨_, hx, hf⟩
    exact ⟨hx, hf⟩
  · intro h
    exact ⟨(), h⟩

lemma discard_eq_ok {α : Type} {x : Except MigrationError α} {u : Unit} :
    (discard x : Except MigrationError Unit) = .ok u ↔ ∃ a, x = .ok a := by
  cases x with
  | error e =>
    simp only [reduceCtorEq, exists_false, iff_false]
    intro h
    cases h
  | ok a => exact ⟨fun _ => ⟨a, rfl⟩, fun _ => rfl⟩

lemma ensure_eq_ok {p : Prop} [Decidable p] {e : MigrationError} {u : Unit} :
    ensure p e = .ok u ↔ p := by
  unfold ensure
  split_ifs with hp
  · simp [hp]
  · simp [hp]

theorem assertJournalChainInvariants_iff {journal : MigrationJournal J} :
    assertJournalChainInvariants journal = .ok () ↔ ChainInvariants journal := by
  simp only [assertJournalChainInvariants, bind_unit_eq_ok, ensure_eq_ok,
    assertContinues_iff, assertStatus_iff, assertCurrentStep_iff, assertPhase_iff]
  constructor
  · rintro ⟨hle, hsource, htarget, hcontinues, hbefore, hafter, hcurrent, hended, hactive, hplanned⟩
    exact ⟨hle, hsource, htarget, hcontinues, hbefore, hafter, hcurrent, hended, hactive, hplanned⟩
  · intro h
    exact ⟨h.current_le, h.source, h.target, h.continues, h.completed, h.pending, h.current,
      h.ended, h.active, h.planned⟩

/-- What a reader of the journal may rely on. -/
structure Parsed (journal : MigrationJournal J) : Prop where
  fields : ∀ field ∈ journal.fields, field.2 = true
  invariants : ChainInvariants journal
  persisted : ∀ step ∈ journal.chain, step.status = .verified ∨ step.status = .completed →
    step.state.isSome ∧ step.progress.isSome

theorem parseJournal_iff {value journal : MigrationJournal J} :
    parseJournal value = .ok journal ↔ value = journal ∧ Parsed value := by
  rw [parseJournal, bind_eq_ok]
  simp only [decodeMigrationJournal, bind_unit_eq_ok, checkFields_iff,
    assertJournalChainInvariants_iff, assertPersisted_iff]
  constructor
  · rintro ⟨decoded, ⟨hfields, hdecoded⟩, hinvariants, hpersisted, hreturn⟩
    cases hdecoded
    cases hreturn
    exact ⟨rfl, hfields, hinvariants, hpersisted⟩
  · rintro ⟨rfl, hparsed⟩
    exact ⟨_, ⟨hparsed.fields, rfl⟩, hparsed.invariants, hparsed.persisted, rfl⟩

/-- A chain of forward steps leads forward. -/
lemma chain_forward {chain : List (MigrationStepJournal J)}
    (hchain : List.IsChain (fun a b => a.toSchema = b.fromSchema) chain)
    (hforward : ∀ step ∈ chain, step.fromSchema.version < step.toSchema.version)
    {source target : LocalSchemaIdentity} (hsource : chain.head?.map (·.fromSchema) = some source)
    (htarget : chain.getLast?.map (·.toSchema) = some target) : source.version < target.version := by
  induction chain generalizing source with
  | nil => simp at hsource
  | cons step rest ih =>
    have hstep := hforward step (by simp)
    simp only [List.head?_cons, Option.map_some, Option.some.injEq] at hsource
    rw [← hsource]
    rcases rest with _ | ⟨next, rest⟩
    · simp only [List.getLast?_singleton, Option.map_some, Option.some.injEq] at htarget
      rw [← htarget]
      exact hstep
    · rw [List.isChain_cons_cons] at hchain
      have hrest : next.fromSchema.version < target.version :=
        ih hchain.2 (fun step hmem => hforward step (by simp [hmem])) rfl (by simpa using htarget)
      rw [← hchain.1] at hrest
      exact hstep.trans hrest

end Maple.Migration
