import Maple.MaintenanceLock

/-! When the maintenance lock excludes: in every run in which no process renames aside a directory
that has taken the place of the one it inspected. -/

namespace Maple.MaintenanceLock

open TransitionRun LockState

variable {P : Type} [DecidableEq P] {pid : P → ℕ} {s s' : LockState P}

/-- A live owner is recognised as alive. -/
def RecognisesOwner (pid : P → ℕ) (s : LockState P) (self : P) (processIsAlive older : Bool) :
    Phase P → Prop
  | .judgingOwner _ owner => (s.procs owner.instanceId).alive = true →
      maintenanceOwnerIsLive pid self owner processIsAlive older = true
  | _ => True

/-- No live process uses the directory. -/
def Unused (s : LockState P) : Option (LockDirectory P) → Prop
  | none => True
  | some dir => ∀ q, ¬ Uses s q dir.id

/-- What is taken for granted of the steps: a live owner is recognised as alive, and a directory
without a record that is older than the grace period is used by no live process. -/
def Assumed (pid : P → ℕ) (s : LockState P) : LockLabel P → Prop
  | .judgeOwner p processIsAlive older =>
    RecognisesOwner pid s p processIsAlive older (s.procs p).phase
  | .judgeAge _ older => older = true → Unused s s.path
  | _ => True

/-- The directory at the path is the one that was inspected, or no live process uses it. -/
def TakesInspected (s : LockState P) : Phase P → Option (LockDirectory P) → Prop
  | .taking inspected, some dir => dir.id = inspected ∨ ∀ q, ¬ Uses s q dir.id
  | _, _ => True

/-- A rename takes the directory that was inspected, or one that no live process uses. -/
def Undisturbed (s : LockState P) : LockLabel P → Prop
  | .renameAside p => TakesInspected s (s.procs p).phase s.path
  | _ => True

lemma LockInv.put (h : LockInv s) {p : P} {phase : Phase P}
    (huses : ∀ d, phase.uses = some d → Uses s p d) (hphase : PhaseInv s phase) :
    LockInv (s.put p phase) :=
  h.quiet (fun _ => huses) hphase

lemma LockInv.rest (h : LockInv s) (p : P) : LockInv (s.put p .idle) := by
  apply h.put
  · intro d hd
    cases hd
  · trivial

omit [DecidableEq P] in
/-- The directory at the path is the one that a live process uses. -/
lemma LockInv.path_eq (h : LockInv s) {p : P} {d : ℕ} (hp : Uses s p d) {dir : LockDirectory P}
    (hdir : s.path = some dir) : dir.id = d := by
  obtain ⟨dir', hdir', rfl⟩ := h.present p d hp
  rw [hdir] at hdir'
  exact congrArg _ (Option.some.inj hdir')

omit [DecidableEq P] in
/-- A rename that is not disturbed takes a directory nobody uses. -/
lemma LockInv.rename_free (h : LockInv s) {p : P} (hok : Undisturbed s (.renameAside p))
    {inspected : ℕ} (hphase : (s.procs p).phase = .taking inspected) {dir : LockDirectory P}
    (hdir : s.path = some dir) (q : P) : ¬ Uses s q dir.id := by
  rw [Undisturbed, hphase, hdir] at hok
  rcases hok with rfl | hfree
  · have hstale := h.phases p
    rw [hphase] at hstale
    exact hstale.2 q
  · exact hfree q

/-- Every step that is as assumed and not disturbed keeps the invariant. -/
lemma LockInv.step (h : LockInv s) {l : LockLabel P} (hassumed : Assumed pid s l)
    (hok : Undisturbed s l) (hstep : s.step pid l = some s') : LockInv s' := by
  unfold LockState.step at hstep
  split_ifs at hstep with halive
  generalize hphase : (s.procs l.actor).phase = phase at hstep
  have huses : ∀ d, phase.uses = some d → Uses s l.actor d := by
    intro d hd
    exact ⟨halive, hphase ▸ hd⟩
  unfold act at hstep
  split at hstep
  -- start
  · obtain rfl := Option.some.inj hstep
    exact h.quiet (fun _ d hd => nomatch hd) trivial
  -- mkdir
  · split at hstep
    · obtain rfl := Option.some.inj hstep
      exact h.made ‹_›
    · obtain rfl := Option.some.inj hstep
      exact h.put (fun d hd => nomatch hd) trivial
  -- readOwner
  · split_ifs at hstep
    · obtain rfl := Option.some.inj hstep
      exact h.rest _
    · split at hstep
      · obtain rfl := Option.some.inj hstep
        exact h.put (fun d hd => nomatch hd) trivial
      · rename_i dir hdir
        split at hstep
        · obtain rfl := Option.some.inj hstep
          exact h.put (fun d hd => nomatch hd) trivial
        · rename_i owner howner
          obtain rfl := Option.some.inj hstep
          exact h.put (fun d hd => nomatch hd) ⟨h.given dir hdir, h.owned dir owner hdir howner⟩
  -- judgeOwner: the owner of the record is dead, and nobody else uses its directory.
  · rename_i p processIsAlive older inspected owner
    split_ifs at hstep with hlive
    · obtain rfl := Option.some.inj hstep
      exact h.rest _
    · obtain rfl := Option.some.inj hstep
      have hjudged := h.phases p
      simp only [Assumed, LockLabel.actor] at hassumed hphase
      rw [hphase] at hassumed hjudged
      obtain ⟨hlt, howner⟩ := hjudged
      apply h.put
      · intro d hd
        cases hd
      · refine ⟨hlt, ?_⟩
        intro q hq
        apply hlive
        apply hassumed
        rw [← howner q hq]
        exact hq.1
  -- judgeAge
  · rename_i p older
    split at hstep
    · obtain rfl := Option.some.inj hstep
      exact h.rest _
    · rename_i dir hdir
      split_ifs at hstep with hold
      · obtain rfl := Option.some.inj hstep
        have hunused := hassumed hold
        rw [hdir] at hunused
        exact h.put (fun d hd => nomatch hd) ⟨h.given dir hdir, hunused⟩
      · obtain rfl := Option.some.inj hstep
        exact h.rest _
  -- renameAside
  · rename_i p inspected
    split at hstep
    · obtain rfl := Option.some.inj hstep
      exact h.rest _
    · rename_i dir hdir
      obtain rfl := Option.some.inj hstep
      apply h.vacated hdir
      · intro q hq
        exact absurd hq (h.rename_free hok hphase hdir q)
      · rfl
      · intro t
        trivial
  -- mkdirAgain
  · split at hstep
    · obtain rfl := Option.some.inj hstep
      exact h.made ‹_›
    · obtain rfl := Option.some.inj hstep
      exact h.rest _
  -- writeOwner
  · rename_i p made
    have hmade := huses made rfl
    split at hstep
    · obtain rfl := Option.some.inj hstep
      exact h.rest _
    · rename_i dir hdir
      obtain rfl := Option.some.inj hstep
      obtain rfl := h.path_eq hmade hdir
      apply h.rewritten hdir hmade
      · intro o ho
        rw [← Option.some.inj ho]
      · rfl
      · intro t
        trivial
  -- release
  · rename_i p made
    obtain rfl := Option.some.inj hstep
    exact h.put huses trivial
  -- checkOwner
  · rename_i p made
    split at hstep
    · obtain rfl := Option.some.inj hstep
      exact h.rest _
    · split_ifs at hstep
      · obtain rfl := Option.some.inj hstep
        exact h.rest _
      · obtain rfl := Option.some.inj hstep
        exact h.put huses trivial
  -- removeOwner
  · rename_i p made
    have hmade := huses made rfl
    split at hstep
    · obtain rfl := Option.some.inj hstep
      exact h.rest _
    · rename_i dir hdir
      obtain rfl := Option.some.inj hstep
      obtain rfl := h.path_eq hmade hdir
      apply h.rewritten hdir hmade
      · intro o ho
        cases ho
      · rfl
      · intro t
        trivial
  -- removeDirectory
  · rename_i p made
    have hmade := huses made rfl
    split at hstep
    · obtain rfl := Option.some.inj hstep
      exact h.rest _
    · rename_i dir hdir
      split_ifs at hstep
      · obtain rfl := Option.some.inj hstep
        exact h.rest _
      · obtain rfl := Option.some.inj hstep
        obtain rfl := h.path_eq hmade hdir
        apply h.vacated hdir
        · intro q hq
          exact h.unique q _ _ hq hmade
        · rfl
        · intro t
          trivial
  -- fail
  · cases hstep
  · cases hstep
  · obtain rfl := Option.some.inj hstep
    exact h.rest _
  -- crash
  · obtain rfl := Option.some.inj hstep
    apply h.quiet
    · intro hdead
      cases hdead
    · rename_i p
      have hkept := h.phases p
      rw [LockLabel.actor] at hphase
      rw [hphase] at hkept
      exact hkept
  · cases hstep

omit [DecidableEq P] in
lemma lockInv_started (h : Started s) : LockInv s := by
  obtain ⟨hidle, hgiven⟩ := h
  have hfree : ∀ q d, ¬ Uses s q d := by
    rintro q d ⟨-, hq⟩
    rw [hidle q] at hq
    cases hq
  refine ⟨?_, ?_, hgiven, ?_, ?_⟩
  · intro q d hq
    exact absurd hq (hfree q d)
  · intro q r d hq
    exact absurd hq (hfree q d)
  · intro dir owner _ _ q hq
    exact absurd hq (hfree q _)
  · intro q
    rw [hidle q]
    trivial

omit [DecidableEq P] in
lemma maintains_uses {p : P} (h : Maintains s p) : ∃ d, Uses s p d := by
  obtain ⟨halive, hphase⟩ := h
  cases hp : (s.procs p).phase with
  | holding dir => exact ⟨dir, halive, by rw [hp]; rfl⟩
  | releasing dir => exact ⟨dir, halive, by rw [hp]; rfl⟩
  | removing dir => exact ⟨dir, halive, by rw [hp]; rfl⟩
  | emptied dir => exact ⟨dir, halive, by rw [hp]; rfl⟩
  | _ =>
    rw [hp] at hphase
    cases hphase

/-- The lock excludes, and only its user takes its directory away. -/
structure Excludes (pid : P → ℕ) (s : LockState P) : Prop where
  one : ∀ p q, Maintains s p → Maintains s q → p = q
  leaves : ∀ l s', Undisturbed s l → s.step pid l = some s' →
    l = .renameAside l.actor ∨ l = .removeOwner l.actor ∨ l = .removeDirectory l.actor →
    ∀ dir, s.path = some dir → ∀ q, Uses s q dir.id → q = l.actor

theorem LockInv.excludes (h : LockInv s) : Excludes pid s := by
  constructor
  · intro p q hp hq
    obtain ⟨d, hp⟩ := maintains_uses hp
    obtain ⟨e, hq⟩ := maintains_uses hq
    obtain ⟨dir, hdir, rfl⟩ := h.present p d hp
    obtain rfl := h.path_eq hq hdir
    exact h.unique p q _ hp hq
  · intro l s' hok hstep hl dir hdir q hq
    unfold LockState.step at hstep
    split_ifs at hstep with halive
    rcases hl with hl | hl | hl
    · rw [hl] at hstep hok
      generalize l.actor = p at *
      simp only [LockLabel.actor] at hstep
      cases hphase : (s.procs p).phase with
      | taking inspected => exact absurd hq (h.rename_free hok hphase hdir q)
      | _ => simp [hphase, act] at hstep
    · rw [hl] at hstep
      generalize l.actor = p at *
      simp only [LockLabel.actor] at hstep
      cases hphase : (s.procs p).phase with
      | removing made =>
        have hp : Uses s p made := ⟨halive, by rw [hphase]; rfl⟩
        obtain rfl := h.path_eq hp hdir
        exact h.unique q p _ hq hp
      | _ => simp [hphase, act] at hstep
    · rw [hl] at hstep
      generalize l.actor = p at *
      simp only [LockLabel.actor] at hstep
      cases hphase : (s.procs p).phase with
      | emptied made =>
        have hp : Uses s p made := ⟨halive, by rw [hphase]; rfl⟩
        obtain rfl := h.path_eq hp hdir
        exact h.unique q p _ hq hp
      | _ => simp [hphase, act] at hstep

/-- In every run in which no rename is disturbed the lock excludes. -/
theorem excludes_of_undisturbed
    (h : ReachWhen (LockState.step pid) (fun s l => Assumed pid s l ∧ Undisturbed s l) Started s) :
    Excludes pid s := by
  have hinv : LockInv s := by
    apply h.invariant
    · intro s hs
      exact lockInv_started hs
    · intro s l s' hs hl hstep
      exact hs.step hl.1 hl.2 hstep
  exact hinv.excludes

instance (s : LockState P) (p : P) (d : ℕ) : Decidable (Uses s p d) :=
  inferInstanceAs (Decidable (_ ∧ _))

instance (pid : P → ℕ) (s : LockState P) (self : P) (processIsAlive older : Bool)
    (phase : Phase P) : Decidable (RecognisesOwner pid s self processIsAlive older phase) :=
  match phase with
  | .judgingOwner _ _ => inferInstanceAs (Decidable (_ → _))
  | .idle | .making | .reading | .judgingAge | .taking _ | .remaking | .writing _ | .holding _
  | .releasing _ | .removing _ | .emptied _ => isTrue trivial

instance [Fintype P] (s : LockState P) (phase : Phase P) (path : Option (LockDirectory P)) :
    Decidable (TakesInspected s phase path) :=
  match phase, path with
  | .taking inspected, some dir =>
    inferInstanceAs (Decidable (dir.id = inspected ∨ ∀ q, ¬ Uses s q dir.id))
  | .taking _, none => isTrue trivial
  | .idle, _ | .making, _ | .reading, _ | .judgingOwner _ _, _ | .judgingAge, _ | .remaking, _
  | .writing _, _ | .holding _, _ | .releasing _, _ | .removing _, _ | .emptied _, _ =>
    isTrue trivial

instance [Fintype P] (s : LockState P) (path : Option (LockDirectory P)) :
    Decidable (Unused s path) :=
  match path with
  | none => isTrue trivial
  | some dir => inferInstanceAs (Decidable (∀ q, ¬ Uses s q dir.id))

instance [Fintype P] (pid : P → ℕ) (s : LockState P) (l : LockLabel P) :
    Decidable (Assumed pid s l) :=
  match l with
  | .judgeOwner p processIsAlive older =>
    inferInstanceAs (Decidable (RecognisesOwner pid s p processIsAlive older (s.procs p).phase))
  | .judgeAge _ _ => inferInstanceAs (Decidable (_ → Unused s s.path))
  | .start _ _ | .mkdir _ | .readOwner _ _ | .renameAside _ | .mkdirAgain _ | .writeOwner _
  | .release _ | .checkOwner _ | .removeOwner _ | .removeDirectory _ | .fail _ | .crash _ =>
    isTrue trivial

instance (s : LockState P) (p : P) : Decidable (Maintains s p) :=
  inferInstanceAs (Decidable (_ ∧ _))

instance [Fintype P] (s : LockState P) (l : LockLabel P) : Decidable (Undisturbed s l) :=
  match l with
  | .renameAside p => inferInstanceAs (Decidable (TakesInspected s (s.procs p).phase s.path))
  | .start _ _ | .mkdir _ | .readOwner _ _ | .judgeOwner _ _ _ | .judgeAge _ _ | .mkdirAgain _
  | .writeOwner _ | .release _ | .checkOwner _ | .removeOwner _ | .removeDirectory _ | .fail _
  | .crash _ => isTrue trivial

def demoStart : LockState (Fin 3) := ⟨none, 0, fun _ => ⟨true, "", .idle⟩⟩

/-- The steps by which a process takes the lock over from a dead owner, up to the rename. -/
def judgesDead (p : Fin 3) (operationId : String) : List (LockLabel (Fin 3)) :=
  [.start p operationId, .mkdir p, .readOwner p false, .judgeOwner p false false]

def takes (p : Fin 3) : List (LockLabel (Fin 3)) := [.renameAside p, .mkdirAgain p, .writeOwner p]

/-- A process takes the lock and dies with it. -/
local instance neZeroThree : NeZero 3 := ⟨by decide⟩

def deadOwner : List (LockLabel (Fin 3)) := [.start 0 "a", .mkdir 0, .writeOwner 0, .crash 0]

/-- Two processes judge the dead owner before either renames; the second renames aside the lock the
first has taken. -/
def overlappingTakeovers : List (LockLabel (Fin 3)) :=
  deadOwner ++ judgesDead 1 "b" ++ judgesDead 2 "c" ++ takes 1 ++ takes 2

theorem maintained_twice : ¬ ∀ (P : Type) (_ : DecidableEq P) (pid : P → ℕ) (s : LockState P),
    ReachWhen (LockState.step pid) (Assumed pid) Started s →
      ∀ p q, Maintains s p → Maintains s q → p = q := by
  intro h
  have hview : (runWhen (LockState.step Fin.val) (Assumed Fin.val) demoStart
      overlappingTakeovers).map (fun s => decide (Maintains s 1 ∧ Maintains s 2)) = some true := by
    decide
  obtain ⟨s, hrun, hboth⟩ := Option.map_eq_some_iff.mp hview
  have hstart : Started demoStart := ⟨fun _ => rfl, fun _ hdir => nomatch hdir⟩
  obtain ⟨hone, htwo⟩ := of_decide_eq_true hboth
  have hsame := h (Fin 3) _ Fin.val s (reachWhen_runWhen (.start hstart) hrun) 1 2 hone htwo
  exact absurd hsame (by decide)

/-- One process after the other takes the lock over. -/
def takeoversInTurn : List (LockLabel (Fin 3)) :=
  deadOwner ++ judgesDead 1 "b" ++ takes 1 ++
    [.release 1, .checkOwner 1, .removeOwner 1, .removeDirectory 1, .start 2 "c", .mkdir 2,
      .writeOwner 2]

theorem excludes_in_turn : ∃ s, runWhen (LockState.step Fin.val)
    (fun s l => Assumed Fin.val s l ∧ Undisturbed s l) demoStart takeoversInTurn = some s ∧
      Maintains s 2 ∧ Excludes Fin.val s := by
  have hview : (runWhen (LockState.step Fin.val)
      (fun s l => Assumed Fin.val s l ∧ Undisturbed s l) demoStart takeoversInTurn).map
        (fun s => decide (Maintains s 2)) = some true := by
    decide
  obtain ⟨s, hrun, htwo⟩ := Option.map_eq_some_iff.mp hview
  have hstart : Started demoStart := ⟨fun _ => rfl, fun _ hdir => nomatch hdir⟩
  exact ⟨s, hrun, of_decide_eq_true htwo,
    excludes_of_undisturbed (reachWhen_runWhen (.start hstart) hrun)⟩

end Maple.MaintenanceLock
