import Maple.TransitionRun

/-! The maintenance lock: a directory next to the data directory, taken by `mkdir`, with a record of
its owner, and taken over from an owner that has died by renaming it aside. Every file-system step
of every process is a step of its own, and a process may stop for good at any of them. -/

namespace Maple.MaintenanceLock

open TransitionRun

variable {P : Type}

/-- The record in `owner.json`. -/
structure LockHolder (P : Type) where
  operationId : String
  pid : ℕ
  instanceId : P

/-- A directory at the lock path; `id` tells it from the others that are made there. -/
structure LockDirectory (P : Type) where
  id : ℕ
  owner : Option (LockHolder P)

/-- How far a process is in `acquireMaintenance` or in the release it returned. -/
inductive Phase (P : Type)
  | idle
  | making
  | reading
  | judgingOwner (inspected : ℕ) (owner : LockHolder P)
  | judgingAge
  | taking (inspected : ℕ)
  | remaking
  | writing (dir : ℕ)
  | holding (dir : ℕ)
  | releasing (dir : ℕ)
  | removing (dir : ℕ)
  | emptied (dir : ℕ)

/-- The directory a process has made and not removed yet. -/
def Phase.uses : Phase P → Option ℕ
  | .writing dir | .holding dir | .releasing dir | .removing dir | .emptied dir => some dir
  | _ => none

/-- Whether the lock has been acquired and its release has not ended. -/
def Phase.maintains : Phase P → Bool
  | .holding _ | .releasing _ | .removing _ | .emptied _ => true
  | _ => false

structure Process (P : Type) where
  alive : Bool
  operationId : String
  phase : Phase P

structure LockState (P : Type) where
  path : Option (LockDirectory P)
  next : ℕ
  procs : P → Process P

/-- A file-system step of a process, with what it finds out where that is not in the state; any
step of an acquisition or a release may fail instead, and any process may crash. -/
inductive LockLabel (P : Type)
  | start (p : P) (operationId : String)
  | mkdir (p : P)
  | readOwner (p : P) (uncertain : Bool)
  | judgeOwner (p : P) (processIsAlive older : Bool)
  | judgeAge (p : P) (older : Bool)
  | renameAside (p : P)
  | mkdirAgain (p : P)
  | writeOwner (p : P)
  | release (p : P)
  | checkOwner (p : P)
  | removeOwner (p : P)
  | removeDirectory (p : P)
  | fail (p : P)
  | crash (p : P)

def LockLabel.actor : LockLabel P → P
  | .start p _ | .mkdir p | .readOwner p _ | .judgeOwner p _ _ | .judgeAge p _ | .renameAside p
  | .mkdirAgain p | .writeOwner p | .release p | .checkOwner p | .removeOwner p
  | .removeDirectory p | .fail p | .crash p => p

variable [DecidableEq P]

/-- A record with our own PID is only live when it names this process instance. -/
def maintenanceOwnerIsLive (pid : P → ℕ) (self : P) (owner : LockHolder P)
    (processIsAlive older : Bool) : Bool :=
  if owner.pid ≠ pid self then processIsAlive else owner.instanceId = self ∨ ¬ older

namespace LockState

def put (s : LockState P) (p : P) (phase : Phase P) : LockState P :=
  { s with procs := Function.update s.procs p { s.procs p with phase := phase } }

/-- `mkdir` at a path where nothing is. -/
def make (s : LockState P) (p : P) : LockState P :=
  { s with path := some ⟨s.next, none⟩, next := s.next + 1 }.put p (.writing s.next)

/-- The step of a live process in a phase. -/
def act (pid : P → ℕ) (s : LockState P) (p : P) : LockLabel P → Phase P → Option (LockState P)
  | .start _ operationId, .idle => some
    { s with procs := Function.update s.procs p ⟨true, operationId, .making⟩ }
  | .mkdir _, .making =>
    match s.path with
    | none => some (s.make p)
    | some _ => some (s.put p .reading)
  | .readOwner _ uncertain, .reading =>
    if uncertain then some (s.put p .idle)
    else
      match s.path with
      | none => some (s.put p .judgingAge)
      | some dir =>
        match dir.owner with
        | none => some (s.put p .judgingAge)
        | some owner => some (s.put p (.judgingOwner dir.id owner))
  | .judgeOwner _ processIsAlive older, .judgingOwner inspected owner =>
    if maintenanceOwnerIsLive pid p owner processIsAlive older then some (s.put p .idle)
    else some (s.put p (.taking inspected))
  | .judgeAge _ older, .judgingAge =>
    match s.path with
    | none => some (s.put p .idle)
    | some dir => if older then some (s.put p (.taking dir.id)) else some (s.put p .idle)
  | .renameAside _, .taking _ =>
    match s.path with
    | none => some (s.put p .idle)
    | some _ => some ({ s with path := none }.put p .remaking)
  | .mkdirAgain _, .remaking =>
    match s.path with
    | none => some (s.make p)
    | some _ => some (s.put p .idle)
  | .writeOwner _, .writing made =>
    match s.path with
    | none => some (s.put p .idle)
    -- The record goes to whatever directory is at the path.
    | some dir => some ({ s with
        path := some { dir with owner := some ⟨(s.procs p).operationId, pid p, p⟩ } }.put p
          (.holding made))
  | .release _, .holding made => some (s.put p (.releasing made))
  | .checkOwner _, .releasing made =>
    match s.path.bind (·.owner) with
    | none => some (s.put p .idle)
    | some owner =>
      if owner.operationId ≠ (s.procs p).operationId ∨ owner.pid ≠ pid p then some (s.put p .idle)
      else some (s.put p (.removing made))
  | .removeOwner _, .removing made =>
    match s.path with
    | none => some (s.put p .idle)
    | some dir => some ({ s with path := some { dir with owner := none } }.put p (.emptied made))
  | .removeDirectory _, .emptied _ =>
    match s.path with
    | none => some (s.put p .idle)
    | some dir =>
      if dir.owner.isSome then some (s.put p .idle)
      else some ({ s with path := none }.put p .idle)
  | .fail _, .idle | .fail _, .holding _ => none
  | .fail _, _ => some (s.put p .idle)
  | .crash _, phase => some
    { s with procs := Function.update s.procs p ⟨false, (s.procs p).operationId, phase⟩ }
  | _, _ => none

def step (pid : P → ℕ) (s : LockState P) (l : LockLabel P) : Option (LockState P) :=
  if (s.procs l.actor).alive then s.act pid l.actor l (s.procs l.actor).phase else none

omit [DecidableEq P] in
def Started (s : LockState P) : Prop :=
  (∀ p, (s.procs p).phase = .idle) ∧ ∀ dir, s.path = some dir → dir.id < s.next

/-- A live process that has made a directory and not removed it yet. -/
def Uses (s : LockState P) (p : P) (dir : ℕ) : Prop :=
  (s.procs p).alive = true ∧ (s.procs p).phase.uses = some dir

/-- A live process between a successful `acquireMaintenance` and the end of its release. -/
def Maintains (s : LockState P) (p : P) : Prop :=
  (s.procs p).alive = true ∧ (s.procs p).phase.maintains = true

end LockState

open LockState

omit [DecidableEq P] in
/-- What a process has found out about the directory it inspected stays true: nobody but its owner
uses it, and nobody at all if it was judged stale. -/
def PhaseInv (s : LockState P) : Phase P → Prop
  | .judgingOwner dir owner => dir < s.next ∧ ∀ q, Uses s q dir → q = owner.instanceId
  | .taking dir => dir < s.next ∧ ∀ q, ¬ Uses s q dir
  | _ => True

/-- The directory a live process uses is the one at the path, and no other live process uses it. -/
structure LockInv (s : LockState P) : Prop where
  present : ∀ p d, Uses s p d → ∃ dir, s.path = some dir ∧ dir.id = d
  unique : ∀ p q d, Uses s p d → Uses s q d → p = q
  given : ∀ dir, s.path = some dir → dir.id < s.next
  owned : ∀ dir owner, s.path = some dir → dir.owner = some owner →
    ∀ q, Uses s q dir.id → q = owner.instanceId
  phases : ∀ p, PhaseInv s (s.procs p).phase

omit [DecidableEq P] in
lemma PhaseInv.mono {s s' : LockState P} {phase : Phase P} (h : PhaseInv s phase)
    (hnext : s.next ≤ s'.next) (huses : ∀ q d, d < s.next → Uses s' q d → Uses s q d) :
    PhaseInv s' phase := by
  cases phase with
  | judgingOwner dir owner =>
    obtain ⟨hlt, howner⟩ := h
    exact ⟨hlt.trans_le hnext, fun q hq => howner q (huses q dir hlt hq)⟩
  | taking dir =>
    obtain ⟨hlt, hfree⟩ := h
    exact ⟨hlt.trans_le hnext, fun q hq => hfree q (huses q dir hlt hq)⟩
  | _ => trivial

variable {s : LockState P} {p : P}

/-- In the state after a step of `p` every other process is as before. -/
lemma uses_other {s' : LockState P} {m : Process P} (hprocs : s'.procs = Function.update s.procs p m)
    {q : P} (hq : q ≠ p) (d : ℕ) : Uses s' q d ↔ Uses s q d := by
  unfold Uses
  rw [hprocs, Function.update_of_ne hq]

/-- A step that only moves the process on, and takes no directory into use. -/
lemma LockInv.quiet (h : LockInv s) {m : Process P}
    (huses : m.alive = true → ∀ d, m.phase.uses = some d → Uses s p d)
    (hphase : PhaseInv s m.phase) :
    LockInv { s with procs := Function.update s.procs p m } := by
  have hback : ∀ q d, Uses { s with procs := Function.update s.procs p m } q d → Uses s q d := by
    intro q d hq
    by_cases hqp : q = p
    · subst hqp
      unfold Uses at hq
      dsimp only at hq
      rw [Function.update_self] at hq
      exact huses hq.1 d hq.2
    · exact (uses_other rfl hqp d).mp hq
  refine ⟨?_, ?_, h.given, ?_, ?_⟩
  · intro q d hq
    exact h.present q d (hback q d hq)
  · intro q r d hq hr
    exact h.unique q r d (hback q d hq) (hback r d hr)
  · intro dir owner hdir howner q hq
    exact h.owned dir owner hdir howner q (hback q _ hq)
  · intro q
    have hmono : ∀ phase, PhaseInv s phase →
        PhaseInv { s with procs := Function.update s.procs p m } phase :=
      fun phase hphase => hphase.mono le_rfl fun q d _ => hback q d
    dsimp only
    by_cases hqp : q = p
    · rw [hqp, Function.update_self]
      exact hmono _ hphase
    · rw [Function.update_of_ne hqp]
      exact hmono _ (h.phases q)

lemma LockInv.made (h : LockInv s) (hnone : s.path = none) : LockInv (s.make p) := by
  have hfree : ∀ q d, ¬ Uses s q d := by
    intro q d hq
    obtain ⟨dir, hdir, -⟩ := h.present q d hq
    rw [hnone] at hdir
    cases hdir
  have hself : ∀ q d, Uses (s.make p) q d → q = p ∧ d = s.next := by
    intro q d hq
    by_cases hqp : q = p
    · subst hqp
      unfold Uses make put at hq
      dsimp only at hq
      rw [Function.update_self] at hq
      exact ⟨rfl, (Option.some.inj hq.2).symm⟩
    · exact absurd ((uses_other rfl hqp d).mp hq) (hfree q d)
  refine ⟨?_, ?_, ?_, ?_, ?_⟩
  · intro q d hq
    obtain ⟨-, rfl⟩ := hself q d hq
    exact ⟨⟨s.next, none⟩, rfl, rfl⟩
  · intro q r d hq hr
    rw [(hself q d hq).1, (hself r d hr).1]
  · intro dir hdir
    rw [← Option.some.inj hdir]
    exact Nat.lt_succ_self _
  · intro dir owner hdir howner
    rw [← Option.some.inj hdir] at howner
    cases howner
  · intro q
    unfold make put
    dsimp only
    by_cases hqp : q = p
    · rw [hqp, Function.update_self]
      trivial
    · rw [Function.update_of_ne hqp]
      apply (h.phases q).mono (Nat.le_succ _)
      intro r d hlt hr
      rw [(hself r d hr).2] at hlt
      exact absurd hlt (lt_irrefl _)

/-- Taking away the directory at the path, when no live process but `p` itself uses it. -/
lemma LockInv.vacated (h : LockInv s) {dir : LockDirectory P} (hdir : s.path = some dir)
    (hfree : ∀ q, Uses s q dir.id → q = p) {phase : Phase P} (huses : phase.uses = none)
    (hphase : ∀ t : LockState P, PhaseInv t phase) :
    LockInv ({ s with path := none }.put p phase) := by
  have hnobody : ∀ q d, ¬ Uses ({ s with path := none }.put p phase) q d := by
    intro q d hq
    by_cases hqp : q = p
    · subst hqp
      unfold Uses put at hq
      dsimp only at hq
      rw [Function.update_self, huses] at hq
      cases hq.2
    · have hold : Uses s q d := (uses_other rfl hqp d).mp hq
      obtain ⟨dir', hdir', rfl⟩ := h.present q d hold
      rw [hdir] at hdir'
      obtain rfl := Option.some.inj hdir'
      exact hqp (hfree q hold)
  refine ⟨?_, ?_, ?_, ?_, ?_⟩
  · intro q d hq
    exact absurd hq (hnobody q d)
  · intro q r d hq
    exact absurd hq (hnobody q d)
  · intro dir' hdir'
    cases hdir'
  · intro dir' owner hdir'
    cases hdir'
  · intro q
    by_cases hqp : q = p
    · unfold put
      dsimp only
      rw [hqp, Function.update_self]
      exact hphase _
    · have hsame : (({ s with path := none }.put p phase).procs q).phase = (s.procs q).phase := by
        unfold put
        dsimp only
        rw [Function.update_of_ne hqp]
      rw [hsame]
      exact (h.phases q).mono le_rfl fun r d _ hr => absurd hr (hnobody r d)

/-- Writing or removing the record in the directory that `p` itself uses. -/
lemma LockInv.rewritten (h : LockInv s) {dir : LockDirectory P} (hdir : s.path = some dir)
    (hp : Uses s p dir.id) {owner : Option (LockHolder P)}
    (howner : ∀ o, owner = some o → o.instanceId = p) {phase : Phase P}
    (huses : phase.uses = some dir.id) (hphase : ∀ t : LockState P, PhaseInv t phase) :
    LockInv ({ s with path := some { dir with owner := owner } }.put p phase) := by
  have hback : ∀ q d, Uses ({ s with path := some { dir with owner := owner } }.put p phase) q d →
      Uses s q d := by
    intro q d hq
    by_cases hqp : q = p
    · subst hqp
      unfold Uses put at hq
      dsimp only at hq
      rw [Function.update_self, huses] at hq
      exact Option.some.inj hq.2 ▸ hp
    · exact (uses_other rfl hqp d).mp hq
  refine ⟨?_, ?_, ?_, ?_, ?_⟩
  · intro q d hq
    obtain ⟨dir', hdir', rfl⟩ := h.present q d (hback q d hq)
    rw [hdir] at hdir'
    obtain rfl := Option.some.inj hdir'
    exact ⟨{ dir with owner := owner }, rfl, rfl⟩
  · intro q r d hq hr
    exact h.unique q r d (hback q d hq) (hback r d hr)
  · intro dir' hdir'
    rw [← Option.some.inj hdir']
    exact h.given dir hdir
  · intro dir' o hdir' ho q hq
    rw [← Option.some.inj hdir'] at ho hq
    rw [howner o ho]
    exact h.unique q p dir.id (hback q _ hq) hp
  · intro q
    by_cases hqp : q = p
    · unfold put
      dsimp only
      rw [hqp, Function.update_self]
      exact hphase _
    · have hsame : (({ s with path := some { dir with owner := owner } }.put p phase).procs
          q).phase = (s.procs q).phase := by
        unfold put
        dsimp only
        rw [Function.update_of_ne hqp]
      rw [hsame]
      exact (h.phases q).mono le_rfl fun r d _ hr => hback r d hr

end Maple.MaintenanceLock
