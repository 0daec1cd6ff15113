import Maple.ErrorIssueLease

/-! The lease of an issue along runs of calls and lease expiries, side by side. -/

namespace Maple.Errors
open ReadCommitted TransitionRun WorkflowState

abbrev Service := World Row Empty LeaseWrite (Except ErrorsError Unit)

def step (isPullRequestUrl : String → Bool) (w : Service) (a : Action Call) : Option Service :=
  w.step (fun call => (serve isPullRequestUrl call).run) a

/-- A lease has a holder and an expiry, or neither. -/
def Paired (r : ErrorIssueRow) : Prop := r.leaseHolderActorId = none ↔ r.leaseExpiresAt = none

/-- Nothing runs yet, and what is stored is paired. -/
structure Start (w : Service) : Prop where
  processes : w.processes = []
  pending : ∀ i, (w.store.slot i).pending = none
  paired : ∀ i r, (w.store.slot i).committed = some (.issue r) → Paired r

/-- The row as the next statement that may write it finds it. -/
def latest (w : Service) (i : ℕ) : Option Row :=
  match (w.store.slot i).pending with
  | some (_, row) => row
  | none => (w.store.slot i).committed

/-- What the update process `t` is at does to a lease. -/
def leaseWrite (w : Service) (t : ℕ) : Option LeaseWrite :=
  (w.process? t).bind fun p => p.current.window

/-- Whether the update process `t` is at matches the row. -/
def matchesRow (w : Service) (t : ℕ) (row : Row) : Bool :=
  match (w.process? t).map Process.current with
  | some (Program.visit _ write _ _ _) => (write row).isSome
  | _ => false

instance (now : ℤ) (r : ErrorIssueRow) : Decidable (r.expired now) :=
  inferInstanceAs (Decidable (∃ e ∈ r.leaseExpiresAt, e < now))

instance (now : ℤ) (lease : Option LeaseWrite) (r : ErrorIssueRow) :
    Decidable (Finds now lease r) :=
  match lease with
  | some (.renew a) => inferInstanceAs (Decidable (r.leaseHolderActorId = some a))
  | some (.release a) =>
      inferInstanceAs (Decidable (r.leaseHolderActorId = none ∨ r.leaseHolderActorId = some a))
  | some .expire => inferInstanceAs (Decidable (r.leaseExpiresAt = none ∨ r.expired now))
  | some (.acquire _) => inferInstanceAs (Decidable True)
  | none => inferInstanceAs (Decidable True)

/-- An update that is about to write an issue still finds its lease as the call read it. -/
def AsRead (w : Service) : Action Call → Prop
  | .visit t i =>
      match latest w i with
      | some (.issue r) => matchesRow w t (.issue r) → Finds w.now (leaseWrite w t) r
      | _ => True
  | _ => True

instance (w : Service) (a : Action Call) : Decidable (AsRead w a) :=
  match a with
  | .visit t i =>
      match h : latest w i with
      | some (.issue r) =>
          decidable_of_iff (matchesRow w t (.issue r) → Finds w.now (leaseWrite w t) r)
            (by simp [AsRead, h])
      | some (.incident _) => .isTrue (by simp [AsRead, h])
      | some (.issueState _) => .isTrue (by simp [AsRead, h])
      | some (.event _) => .isTrue (by simp [AsRead, h])
      | none => .isTrue (by simp [AsRead, h])
  | .spawn _ => .isTrue trivial
  | .tick _ => .isTrue trivial
  | .run _ => .isTrue trivial
  | .retry _ => .isTrue trivial
  | .fail _ => .isTrue trivial

def LeaseWrite.actor : LeaseWrite → Option ActorId
  | .acquire a => some a
  | .renew a => some a
  | .release a => some a
  | .expire => none

/-- A statement that meets an unexpired lease of `x` leaves its holder and expiry, closes the
issue, or is one of `x`. -/
def Exclusive (w : Service) (a : Action Call) (w' : Service) : Prop :=
  ∀ t i r x, a = .visit t i → latest w i = some (.issue r) → r.leaseHolderActorId = some x →
    ¬ r.expired w.now → ∃ r', latest w' i = some (.issue r') ∧
      (r'.leaseHolderActorId = some x ∧ r'.leaseExpiresAt = r.leaseExpiresAt ∨
        r'.workflowState ∈ CLOSED_WORKFLOW_STATES ∨
        (leaseWrite w t).bind LeaseWrite.actor = some x)

/-- A step after which `x` need not hold the lease of row `i`: it has expired, `x` releases it or
the issue is closed. -/
def Ends (next : Service → Action Call → Option Service) (x : ActorId) (i : ℕ) (w : Service)
    (a : Action Call) : Prop :=
  (∃ r, latest w i = some (.issue r) ∧ r.expired w.now) ∨
  (∃ t, a = .visit t i ∧ leaseWrite w t = some (.release x)) ∨
  ∃ w' r', next w a = some w' ∧ latest w' i = some (.issue r') ∧
    r'.workflowState ∈ CLOSED_WORKFLOW_STATES

/-- Process `t`'s uncommitted write of row `i` is undone. -/
def Undone (t i : ℕ) (w : Service) (a : Action Call) : Prop :=
  (w.store.slot i).lockedBy t ∧ (a = .retry t ∨ a = .fail t)

/-- `x` holds the lease in the newest version of row `i`, and in the committed one as soon as
process `t` has committed. -/
structure HeldBy (x : ActorId) (t i : ℕ) (w : Service) : Prop where
  latest : ∃ r, latest w i = some (.issue r) ∧ r.leaseHolderActorId = some x
  committed : ¬ (w.store.slot i).lockedBy t →
    ∃ r, (w.store.slot i).committed = some (.issue r) ∧ r.leaseHolderActorId = some x

/-- The guarantee of an issue lease, for runs under `ok`. -/
structure LeaseSafe (next : Service → Action Call → Option Service)
    (ok : Service → Action Call → Prop) (w : Service) : Prop where
  paired : ∀ i r, (w.store.slot i).committed = some (.issue r) → Paired r
  excludes : ∀ a w', ok w a → next w a = some w' → Exclusive w a w'
  holds : ∀ t i x acquired, ok w (.visit t i) → next w (.visit t i) = some acquired →
    leaseWrite w t = some (.acquire x) → acquired.store.slot i ≠ w.store.slot i →
    ∀ w', ReachWhen next (fun v a => ok v a ∧ ¬ Ends next x i v a ∧ ¬ Undone t i v a)
      (· = acquired) w' → HeldBy x t i w'

/-! ### One step -/

variable {isPullRequestUrl : String → Bool} {w w' : Service}

lemma writes_of_reach {ok : Service → Action Call → Prop}
    (h : ReachWhen (step isPullRequestUrl) ok Start w) : w.Writes leaseRule := by
  refine h.invariant ?_ ?_
  · intro w hw t p hp
    rw [World.process?, hw.processes] at hp
    simp at hp
  · intro w a w' hwrites _ hstep
    exact hwrites.step (fun call now => keeps_serve isPullRequestUrl call) hstep

lemma latest_of_seen {t i : ℕ} {row : Row} (hfree : (w.store.slot i).Free t)
    (hseen : (w.store.slot i).seen t = some row) : latest w i = some row := by
  unfold latest
  cases hp : (w.store.slot i).pending with
  | none =>
    have hfree' : ¬ (w.store.slot i).lockedBy t := by simp [Slot.lockedBy, hp]
    rwa [Slot.seen_free hfree'] at hseen
  | some p =>
    obtain ⟨u, found⟩ := p
    have hu : u = t := hfree u (by simp [Slot.lockedBy, hp])
    rw [hu] at hp
    rwa [Slot.seen_locked hp] at hseen

lemma leaseWrite_of_updates {t i : ℕ} {lease : Option LeaseWrite} {row : Row} {new : Option Row}
    (h : w.Updates t i lease row new) : leaseWrite w t = lease := by
  obtain ⟨p, write, targets, returned, next, hp, hc, -⟩ := h
  simp [leaseWrite, hp, hc, Program.window]

/-- An update that finds an issue as it was read leaves an issue, and respects its lease. -/
lemma leaseStep_of_updates {t i : ℕ} {lease : Option LeaseWrite} {r : ErrorIssueRow}
    {new : Option Row} (hwrites : w.Writes leaseRule) (hok : AsRead w (.visit t i))
    (h : w.Updates t i lease (.issue r) new) :
    ∃ r', new = some (.issue r') ∧ LeaseStep w.now lease r r' := by
  have hrule := hwrites.updates h
  have hlease := leaseWrite_of_updates h
  obtain ⟨p, write, targets, returned, next, hp, hc, hfree, hseen, hwrite⟩ := h
  have hlatest := latest_of_seen hfree hseen
  have hmatches : matchesRow w t (.issue r) = true := by simp [matchesRow, hp, hc, hwrite]
  simp only [AsRead, hlatest, hlease, hmatches, forall_const] at hok
  cases new with
  | none => exact hrule.elim
  | some row =>
    cases row with
    | issue r' => exact ⟨r', rfl, hrule hok⟩
    | incident _ => exact hrule.elim
    | issueState _ => exact hrule.elim
    | event _ => exact hrule.elim

lemma LeaseStep.paired {now : ℤ} {lease : Option LeaseWrite} {r r' : ErrorIssueRow}
    (h : LeaseStep now lease r r') (hpaired : Paired r) : Paired r' := by
  cases h with
  | keeps hholder hexpiry => rwa [Paired, hholder, hexpiry]
  | closes _ hholder hexpiry => simp [Paired, hholder, hexpiry]
  | acquires _ hholder hexpiry =>
    have hne := Option.isSome_iff_ne_none.mp hexpiry
    simp [Paired, hholder, hne]
  | renews _ hholder hexpiry =>
    have hne := Option.isSome_iff_ne_none.mp hexpiry
    simp [Paired, hholder, hne]
  | releases _ hholder hexpiry => simp [Paired, hholder, hexpiry]
  | expires _ hholder hexpiry => simp [Paired, hholder, hexpiry]

/-- What a statement does to a lease of `x` that has not expired. -/
lemma LeaseStep.held {now : ℤ} {lease : Option LeaseWrite} {r r' : ErrorIssueRow} {x : ActorId}
    (h : LeaseStep now lease r r') (hpaired : Paired r) (hheld : r.leaseHolderActorId = some x)
    (hlive : ¬ r.expired now) :
    r'.leaseHolderActorId = some x ∧ r'.leaseExpiresAt = r.leaseExpiresAt ∨
      r'.workflowState ∈ CLOSED_WORKFLOW_STATES ∨
      lease.bind LeaseWrite.actor = some x ∧
        (r'.leaseHolderActorId = some x ∨ lease = some (.release x)) := by
  cases h with
  | keeps hholder hexpiry => exact Or.inl ⟨hholder.trans hheld, hexpiry⟩
  | closes hclosed _ _ => exact Or.inr (Or.inl hclosed)
  | @acquires a _ _ hfree hholder _ =>
    right; right
    rcases hfree with hnone | hown | hexpired
    · simp [hnone] at hheld
    · obtain rfl : a = x := by simpa [hown] using hheld
      exact ⟨rfl, Or.inl hholder⟩
    · exact absurd hexpired hlive
  | @renews a _ _ hown hholder _ =>
    obtain rfl : a = x := by simpa [hown] using hheld
    exact Or.inr (Or.inr ⟨rfl, Or.inl hholder⟩)
  | @releases a _ _ hown _ _ =>
    right; right
    rcases hown with hnone | hown
    · simp [hnone] at hheld
    · obtain rfl : a = x := by simpa [hown] using hheld
      exact ⟨rfl, Or.inr rfl⟩
  | expires hlapsed _ _ =>
    rcases hlapsed with hnone | hexpired
    · simp [hpaired.mpr hnone] at hheld
    · exact absurd hexpired hlive

/-! ### Runs -/

/-- Every version of every issue has its lease paired. -/
def AllPaired (w : Service) : Prop :=
  ∀ i r, (w.store.slot i).Version (.issue r) → Paired r

lemma allPaired_step {a : Action Call} (hwrites : w.Writes leaseRule) (hpaired : AllPaired w)
    (hok : AsRead w a) (hstep : step isPullRequestUrl w a = some w') : AllPaired w' := by
  intro i r hversion
  have hslot := World.slotStep hwrites hstep i
  have hall : ∀ row, (w'.store.slot i).Version row → ∀ r, row = .issue r → Paired r := by
    apply hslot.version (P := fun row => ∀ r, row = .issue r → Paired r)
    · intro row hrow r hr
      exact hpaired i r (hr ▸ hrow)
    · intro row hinsert r hr
      exact absurd hr (hinsert r)
    · intro t lease row new ha hupdates hrow r' hr'
      subst ha hr'
      cases row with
      | issue r =>
        obtain ⟨found, hfound, hlease⟩ := leaseStep_of_updates hwrites hok hupdates
        obtain rfl : r' = found := by simpa using hfound
        exact hlease.paired (hrow r rfl)
      | incident _ => exact (hwrites.updates hupdates).elim
      | issueState _ => exact (hwrites.updates hupdates).elim
      | event _ => exact (hwrites.updates hupdates).elim
  exact hall _ hversion r rfl

lemma allPaired_of_reach (h : ReachWhen (step isPullRequestUrl) AsRead Start w) :
    AllPaired w := by
  induction h with
  | start h =>
    intro i r hversion
    rcases hversion with hcommitted | ⟨t, hpending⟩
    · exact h.paired i r hcommitted
    · simp [h.pending i] at hpending
  | next hs hok hstep ih => exact allPaired_step (writes_of_reach hs) ih hok hstep

lemma version_of_latest {i : ℕ} {row : Row} (h : latest w i = some row) :
    (w.store.slot i).Version row := by
  unfold latest at h
  split at h
  · rename_i t found hpending
    exact Or.inr ⟨t, by rw [hpending, h]⟩
  · exact Or.inl h

lemma exclusive_step {a : Action Call} (hwrites : w.Writes leaseRule) (hpaired : AllPaired w)
    (hok : AsRead w a) (hstep : step isPullRequestUrl w a = some w') : Exclusive w a w' := by
  intro t i r x ha hlatest hheld hlive
  subst ha
  have hslot := World.slotStep hwrites hstep i
  have hsame : (w'.store.slot i) = w.store.slot i → latest w' i = latest w i := by
    intro hsame
    unfold latest
    rw [hsame]
  generalize hslot' : w'.store.slot i = slot at hslot hsame
  cases hslot with
  | same => exact ⟨r, (hsame rfl).trans hlatest, Or.inl ⟨hheld, rfl⟩⟩
  | update u lease row new ha hupdates =>
    obtain ⟨rfl, -⟩ := by simpa using ha
    have hleaseWrite := leaseWrite_of_updates hupdates
    have hrow : row = .issue r := by
      obtain ⟨p, write, targets, returned, next, -, -, hfree, hseen, -⟩ := hupdates
      have hrow := latest_of_seen hfree hseen
      exact (Option.some.inj (hlatest.symm.trans hrow)).symm
    subst hrow
    obtain ⟨r', rfl, hlease⟩ := leaseStep_of_updates hwrites hok hupdates
    refine ⟨r', by simp [latest, hslot', Slot.write], ?_⟩
    have hpaired' := hpaired i r (version_of_latest hlatest)
    rcases hlease.held hpaired' hheld hlive with hkept | hclosed | hown
    · exact Or.inl hkept
    · exact Or.inr (Or.inl hclosed)
    · exact Or.inr (Or.inr (hleaseWrite ▸ hown.1))
  | insert u row _ hempty _ => simp [latest, hempty] at hlatest
  | commit u ha => simp at ha
  | rollback u ha => simp at ha

/-- Where row `i` stands once `t` has acquired it for `x`: written by `t` and not yet committed,
or held by `x` in every version. -/
inductive Holding (x : ActorId) (t : ℕ) : Slot Row → Prop
  | acquiring {slot : Slot Row} (r : ErrorIssueRow)
      (hpending : slot.pending = some (t, some (.issue r)))
      (hheld : r.leaseHolderActorId = some x) : Holding x t slot
  | holding {slot : Slot Row} (r : ErrorIssueRow) (hcommitted : slot.committed = some (.issue r))
      (hheld : r.leaseHolderActorId = some x)
      (hpending : ∀ u row, slot.pending = some (u, row) →
        ∃ r', row = some (.issue r') ∧ r'.leaseHolderActorId = some x) : Holding x t slot

lemma Holding.heldBy {x : ActorId} {t i : ℕ} (h : Holding x t (w.store.slot i)) :
    HeldBy x t i w := by
  cases h with
  | acquiring r hpending hheld =>
    refine ⟨⟨r, by simp [Errors.latest, hpending], hheld⟩, ?_⟩
    intro hunlocked
    simp [Slot.lockedBy, hpending] at hunlocked
  | holding r hcommitted hheld hpending =>
    refine ⟨?_, fun _ => ⟨r, hcommitted, hheld⟩⟩
    unfold Errors.latest
    split
    · rename_i u row hp
      exact hpending u row hp
    · exact ⟨r, hcommitted, hheld⟩

lemma Holding.step {x : ActorId} {t i : ℕ} {a : Action Call}
    (h : Holding x t (w.store.slot i)) (hwrites : w.Writes leaseRule) (hpaired : AllPaired w)
    (hok : AsRead w a) (hstep : step isPullRequestUrl w a = some w')
    (hends : ¬ Ends (step isPullRequestUrl) x i w a) (hundone : ¬ Undone t i w a) :
    Holding x t (w'.store.slot i) := by
  obtain ⟨r, hlatest, hheld⟩ := h.heldBy.latest
  have hlive : ¬ r.expired w.now := fun hexpired => hends (Or.inl ⟨r, hlatest, hexpired⟩)
  have hslot := World.slotStep hwrites hstep i
  generalize hslot' : w'.store.slot i = slot at hslot
  cases hslot with
  | same => exact h
  | update u lease row new ha hupdates =>
    subst ha
    have hleaseWrite := leaseWrite_of_updates hupdates
    obtain ⟨p, write, targets, returned, next, hp, hc, hfree, hseen, hwrite⟩ := hupdates
    have hrow := latest_of_seen hfree hseen
    obtain rfl := Option.some.inj (hlatest.symm.trans hrow)
    obtain ⟨r', rfl, hlease⟩ := leaseStep_of_updates hwrites hok
      ⟨p, write, targets, returned, next, hp, hc, hfree, hseen, hwrite⟩
    have hlatest' : latest w' i = some (.issue r') := by simp [latest, hslot', Slot.write]
    have hheld' : r'.leaseHolderActorId = some x := by
      rcases hlease.held (hpaired i r (version_of_latest hlatest)) hheld hlive with
        hkept | hclosed | ⟨-, hkept | hrelease⟩
      · exact hkept.1
      · exact absurd (Or.inr (Or.inr ⟨w', r', hstep, hlatest', hclosed⟩)) hends
      · exact hkept
      · exact absurd (Or.inr (Or.inl ⟨u, rfl, hleaseWrite.trans hrelease⟩)) hends
    cases h with
    | acquiring found hpending _ =>
      obtain rfl : t = u := hfree t (by simp [Slot.lockedBy, hpending])
      exact .acquiring r' rfl hheld'
    | holding found hcommitted hfound _ =>
      refine .holding found hcommitted hfound ?_
      intro v row hrow
      simp only [Slot.write, Option.some.injEq, Prod.mk.injEq] at hrow
      exact ⟨r', hrow.2.symm, hheld'⟩
  | insert u row _ hempty _ => simp [latest, hempty] at hlatest
  | commit u ha =>
    by_cases hlocked : (w.store.slot i).lockedBy u
    · obtain ⟨row, hrow⟩ := Slot.lockedBy_iff.mp hlocked
      rw [Slot.commit_locked hrow]
      have hlatest' : latest w i = row := by simp [latest, hrow]
      rw [hlatest'] at hlatest
      exact .holding r hlatest hheld (by simp)
    · rwa [Slot.commit_free hlocked]
  | rollback u ha =>
    by_cases hlocked : (w.store.slot i).lockedBy u
    · rw [Slot.rollback_locked hlocked]
      cases h with
      | acquiring found hpending _ =>
        obtain rfl : t = u := by simpa [Slot.lockedBy, hpending] using hlocked
        exact absurd ⟨hlocked, ha⟩ hundone
      | holding found hcommitted hfound _ => exact .holding found hcommitted hfound (by simp)
    · rwa [Slot.rollback_free hlocked]

/-- The update of `acquireLease` that writes the row puts it in the hands of its actor. -/
lemma holding_of_acquires {t i : ℕ} {x : ActorId} (hwrites : w.Writes leaseRule)
    (hok : AsRead w (.visit t i)) (hstep : step isPullRequestUrl w (.visit t i) = some w')
    (hlease : leaseWrite w t = some (.acquire x)) (hwrote : w'.store.slot i ≠ w.store.slot i) :
    Holding x t (w'.store.slot i) := by
  have hslot := World.slotStep hwrites hstep i
  generalize hslot' : w'.store.slot i = slot at hslot hwrote
  cases hslot with
  | same => exact absurd rfl hwrote
  | update u lease row new ha hupdates =>
    obtain ⟨rfl, -⟩ := by simpa using ha
    obtain rfl : some (.acquire x) = lease := hlease.symm.trans (leaseWrite_of_updates hupdates)
    cases row with
    | issue r =>
      obtain ⟨r', rfl, hacquired⟩ := leaseStep_of_updates hwrites hok hupdates
      cases hacquired with
      | acquires _ hholder _ => exact .acquiring r' rfl hholder
    | incident _ => simpa using lease_eq_none (hwrites.updates hupdates) (by simp)
    | issueState _ => simpa using lease_eq_none (hwrites.updates hupdates) (by simp)
    | event _ => simpa using lease_eq_none (hwrites.updates hupdates) (by simp)
  | insert u row ha => simp at ha
  | commit u ha => simp at ha
  | rollback u ha => simp at ha

theorem leaseSafe_of_reach (h : ReachWhen (step isPullRequestUrl) AsRead Start w) :
    LeaseSafe (step isPullRequestUrl) AsRead w where
  paired i r hcommitted := allPaired_of_reach h i r (Or.inl hcommitted)
  excludes a w' hok hstep :=
    exclusive_step (writes_of_reach h) (allPaired_of_reach h) hok hstep
  holds t i x acquired hok hstep hlease hwrote w' hrun := by
    have hstart := holding_of_acquires (writes_of_reach h) hok hstep hlease hwrote
    have hall : ReachWhen (step isPullRequestUrl) AsRead Start w' ∧
        Holding x t (w'.store.slot i) := by
      induction hrun with
      | start heq => exact heq ▸ ⟨.next h hok hstep, hstart⟩
      | next _ hstep' hnext ih =>
        obtain ⟨hreach, hholding⟩ := ih
        exact ⟨.next hreach hstep'.1 hnext, hholding.step (writes_of_reach hreach)
          (allPaired_of_reach hreach) hstep'.1 hnext hstep'.2.1 hstep'.2.2⟩
    exact hall.2.heldBy

/-- In runs whose updates find each lease as their call read it, a lease keeps everyone else out. -/
theorem leases_exclude_when_as_read : ∀ isPullRequestUrl w,
    ReachWhen (step isPullRequestUrl) AsRead Start w →
      LeaseSafe (step isPullRequestUrl) AsRead w :=
  fun _ _ h => leaseSafe_of_reach h

/-! ### A sweep that meets a lease taken since -/

/-- An issue whose holder has let the lease lapse. -/
def lapsedIssue : ErrorIssueRow where
  orgId := "org"
  id := "issue"
  workflowState := in_progress
  leaseHolderActorId := some "first"
  leaseExpiresAt := some 0
  claimedAt := some 0
  updatedAt := 0

/-- The issue once another actor has claimed it. -/
def claimedIssue : ErrorIssueRow :=
  { lapsedIssue with
    leaseHolderActorId := some "second"
    leaseExpiresAt := some (10 + DEFAULT_LEASE_DURATION_MS)
    claimedAt := some 10
    updatedAt := 10 }

/-- The issue once the sweep has written it. -/
def sweptIssue : ErrorIssueRow :=
  { lapsedIssue with
    leaseHolderActorId := none
    leaseExpiresAt := none
    claimedAt := none
    updatedAt := 10 }

def lapsedStart : Service where
  store := { slots := [{ committed := some (.issue lapsedIssue) }] }
  now := 10

lemma start_lapsedStart : Start lapsedStart := by
  have hslot : ∀ i, lapsedStart.store.slot i = { committed := some (.issue lapsedIssue) } ∨
      lapsedStart.store.slot i = {} := by
    intro i
    cases i with
    | zero => exact Or.inl rfl
    | succ i => exact Or.inr (by simp [lapsedStart, Store.slot])
  refine ⟨rfl, ?_, ?_⟩
  · intro i
    rcases hslot i with h | h
    · rw [h]
    · rw [h]
  · intro i r hr
    rcases hslot i with h | h
    · obtain rfl : lapsedIssue = r := by simpa [h] using hr
      simp [Paired, lapsedIssue]
    · simp [h] at hr

/-- The tick reads the lapsed lease, another actor claims the issue, and the tick's update
begins. -/
def lapsedRun : List (Action Call) :=
  [.spawn (.expireLeases "org" "system"), .run 0, .run 0,
    .spawn (.claimIssue "org" "second" "issue" none), .run 1, .run 1, .run 1, .visit 1 0, .run 1,
    .run 0]

/-- The expiry sweep removes the lease another actor has just been given. -/
theorem sweep_removes_fresh_lease : ¬ ∀ isPullRequestUrl w,
    Reach (step isPullRequestUrl) Start w →
      LeaseSafe (step isPullRequestUrl) (fun _ _ => True) w := by
  intro hclaim
  have hview : ((runSteps (step fun _ => true) lapsedStart lapsedRun).bind fun w =>
      (step (fun _ => true) w (.visit 0 0)).map fun w' =>
        (w.now, latest w 0, leaseWrite w 0, latest w' 0)) =
      some (10, some (.issue claimedIssue), some .expire, some (.issue sweptIssue)) := by
    decide
  obtain ⟨w, hrun, hw⟩ := Option.bind_eq_some_iff.mp hview
  obtain ⟨w', hstep, hviews⟩ := Option.map_eq_some_iff.mp hw
  simp only [Prod.mk.injEq] at hviews
  obtain ⟨hnow, hlatest, hlease, hlatest'⟩ := hviews
  have hsafe := hclaim _ w (reachWhen_runWhen (.start start_lapsedStart) hrun)
  have hlive : ¬ claimedIssue.expired w.now := by
    rw [hnow]
    decide
  obtain ⟨r, hr, hkept⟩ := hsafe.excludes _ w' trivial hstep 0 0 claimedIssue "second" rfl hlatest
    rfl hlive
  obtain rfl : sweptIssue = r := by simpa [hlatest'] using hr
  rw [hlease] at hkept
  revert hkept
  decide

/-- A release and a claim in turn, each finding the lease as it was read. -/
def inTurnRun : List (Action Call) :=
  [.spawn (.releaseIssue "org" "first" "issue" (some in_progress) none), .run 0, .run 0, .run 0,
    .visit 0 0, .run 0, .spawn (.claimIssue "org" "second" "issue" none), .run 1, .run 1, .run 1,
    .visit 1 0, .run 1]

theorem leases_exclude_in_turn : ∃ w, runWhen (step fun _ => true) AsRead lapsedStart inTurnRun =
    some w ∧ latest w 0 = some (.issue claimedIssue) ∧
      LeaseSafe (step fun _ => true) AsRead w := by
  have hview : (runWhen (step fun _ => true) AsRead lapsedStart inTurnRun).map
      (fun w => latest w 0) = some (some (.issue claimedIssue)) := by
    decide
  obtain ⟨w, hrun, hlatest⟩ := Option.map_eq_some_iff.mp hview
  exact ⟨w, hrun, hlatest, leases_exclude_when_as_read _ w
    (reachWhen_runWhen (.start start_lapsedStart) hrun)⟩

end Maple.Errors
