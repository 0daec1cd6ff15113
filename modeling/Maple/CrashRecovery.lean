import Mathlib

/-! Programs that change a state by single writes and may be cut between any two of them, or in the
middle of one that is not atomic: what they leave, and rules to prove it. -/

namespace Maple.CrashRecovery

/-- A program over a state `σ` that fails with an `ε` or returns an `α`. `torn` relates the state
before a write to what a cut in the middle of it may leave; an atomic write has no such state. -/
inductive Program (σ ε α : Type) : Type
  | done (a : α)
  | throw (e : ε)
  | read (next : σ → Program σ ε α)
  | write (torn : σ → σ → Prop) (f : σ → σ) (next : Program σ ε α)

namespace Program

variable {σ ε α β γ ι : Type}

def bind (p : Program σ ε α) (k : α → Program σ ε β) : Program σ ε β :=
  match p with
  | .done a => k a
  | .throw e => .throw e
  | .read next => .read fun s => (next s).bind k
  | .write torn f next => .write torn f (next.bind k)

instance : Monad (Program σ ε) where
  pure := .done
  bind := bind

/-- A write that happens or does not happen. -/
def atomic (f : σ → σ) : Program σ ε Unit := .write (fun _ _ => False) f (.done ())

def get : Program σ ε σ := .read .done

/-- Fail unless the condition holds. -/
def require (b : Bool) (e : ε) : Program σ ε Unit := if b then .done () else .throw e

/-- Run the program only under the condition. -/
def whenever (b : Bool) (p : Program σ ε Unit) : Program σ ε Unit := if b then p else .done ()

def ofExcept : Except ε α → Program σ ε α
  | .ok a => .done a
  | .error e => .throw e

/-- On a failure go on with `handler`. -/
def orElse (p : Program σ ε α) (handler : ε → Program σ ε α) : Program σ ε α :=
  match p with
  | .done a => .done a
  | .throw e => handler e
  | .read next => .read fun s => (next s).orElse handler
  | .write torn f next => .write torn f (next.orElse handler)

/-- Run to the end without a cut. -/
def run : Program σ ε α → σ → σ × Except ε α
  | .done a, s => (s, .ok a)
  | .throw e, s => (s, .error e)
  | .read next, s => (next s).run s
  | .write _ f next, s => next.run (f s)

/-- The states a program leaves when it is cut somewhere, or at its end. -/
inductive CrashesTo : Program σ ε α → σ → σ → Prop
  | done {a : α} {s : σ} : CrashesTo (.done a) s s
  | throw {e : ε} {s : σ} : CrashesTo (.throw e) s s
  | read {next : σ → Program σ ε α} {s s' : σ} (h : CrashesTo (next s) s s') :
      CrashesTo (.read next) s s'
  | before {torn : σ → σ → Prop} {f : σ → σ} {next : Program σ ε α} {s : σ} :
      CrashesTo (.write torn f next) s s
  | torn {torn : σ → σ → Prop} {f : σ → σ} {next : Program σ ε α} {s s' : σ} (h : torn s s') :
      CrashesTo (.write torn f next) s s'
  | after {torn : σ → σ → Prop} {f : σ → σ} {next : Program σ ε α} {s s' : σ}
      (h : CrashesTo next (f s) s') : CrashesTo (.write torn f next) s s'

/-- The state after `n` writes, or at the end if there are fewer. -/
def runWrites : Program σ ε α → ℕ → σ → σ
  | .done _, _, s => s
  | .throw _, _, s => s
  | .read next, n, s => (next s).runWrites n s
  | .write _ _ _, 0, s => s
  | .write _ f next, n + 1, s => next.runWrites n (f s)

theorem crashesTo_runWrites (p : Program σ ε α) (n : ℕ) (s : σ) : CrashesTo p s (p.runWrites n s) := by
  induction p generalizing n s with
  | done a => exact .done
  | throw e => exact .throw
  | read next ih => exact .read (ih s n s)
  | write torn f next ih =>
    cases n with
    | zero => exact .before
    | succ n => exact .after (ih n (f s))

/-- The precondition under which a program returns with `Q`, fails with `E`, and passes through
states of `crash` only. -/
def wp (crash : σ → Prop) (Q : σ → α → Prop) (E : σ → ε → Prop) : Program σ ε α → σ → Prop
  | .done a, s => Q s a
  | .throw e, s => E s e
  | .read next, s => (next s).wp crash Q E s
  | .write torn f next, s => crash s ∧ (∀ s', torn s s' → crash s') ∧ next.wp crash Q E (f s)

variable {crash : σ → Prop} {Q Q' : σ → α → Prop} {E E' : σ → ε → Prop} {s s' : σ}

@[simp] lemma wp_done {a : α} : (done a : Program σ ε α).wp crash Q E s ↔ Q s a := Iff.rfl

@[simp] lemma wp_pure {a : α} : (pure a : Program σ ε α).wp crash Q E s ↔ Q s a := Iff.rfl

@[simp] lemma wp_throw {e : ε} : (throw e : Program σ ε α).wp crash Q E s ↔ E s e := Iff.rfl

@[simp] lemma wp_read {next : σ → Program σ ε α} :
    (read next).wp crash Q E s ↔ (next s).wp crash Q E s := Iff.rfl

@[simp] lemma wp_get {Q : σ → σ → Prop} : (get : Program σ ε σ).wp crash Q E s ↔ Q s s := Iff.rfl

@[simp] lemma wp_atomic {f : σ → σ} {Q : σ → Unit → Prop} :
    (atomic f : Program σ ε Unit).wp crash Q E s ↔ crash s ∧ Q (f s) () := by
  simp [atomic, wp]

@[simp] lemma wp_require {b : Bool} {e : ε} {Q : σ → Unit → Prop} :
    (require b e : Program σ ε Unit).wp crash Q E s ↔ if b then Q s () else E s e := by
  unfold require
  split_ifs
  · rfl
  · rfl

lemma wp_require_of {b : Bool} {e : ε} {Q : σ → Unit → Prop} (hok : b = true → Q s ())
    (hfail : E s e) : (require b e : Program σ ε Unit).wp crash Q E s := by
  rw [wp_require]
  split_ifs with hb
  · exact hok hb
  · exact hfail

lemma wp_whenever {b : Bool} {p : Program σ ε Unit} {Q : σ → Unit → Prop} :
    (whenever b p).wp crash Q E s ↔ if b then p.wp crash Q E s else Q s () := by
  unfold whenever
  split_ifs
  · rfl
  · rfl

@[simp] lemma wp_ofExcept_ok {a : α} :
    (ofExcept (.ok a) : Program σ ε α).wp crash Q E s ↔ Q s a := Iff.rfl

@[simp] lemma wp_ofExcept_error {e : ε} :
    (ofExcept (.error e) : Program σ ε α).wp crash Q E s ↔ E s e := Iff.rfl

lemma wp_bind {p : Program σ ε α} {k : α → Program σ ε β} {Q : σ → β → Prop} {s : σ} :
    (p >>= k).wp crash Q E s ↔ p.wp crash (fun s a => (k a).wp crash Q E s) E s := by
  change (p.bind k).wp crash Q E s ↔ _
  induction p generalizing s with
  | done a => rfl
  | throw e => rfl
  | read next ih => exact ih s
  | write torn f next ih =>
    have hnext := ih (s := f s)
    constructor
    · rintro ⟨hcrash, htorn, hrest⟩
      exact ⟨hcrash, htorn, hnext.mp hrest⟩
    · rintro ⟨hcrash, htorn, hrest⟩
      exact ⟨hcrash, htorn, hnext.mpr hrest⟩

lemma wp_discard {p : Program σ ε α} {Q : σ → Unit → Prop} {s : σ} :
    (discard p).wp crash Q E s ↔ p.wp crash (fun s _ => Q s ()) E s := wp_bind

lemma wp_orElse {p : Program σ ε α} {handler : ε → Program σ ε α} {s : σ} :
    (p.orElse handler).wp crash Q E s ↔
      p.wp crash Q (fun s e => (handler e).wp crash Q E s) s := by
  induction p generalizing s with
  | done a => rfl
  | throw e => rfl
  | read next ih => exact ih s
  | write torn f next ih =>
    have hnext := ih (s := f s)
    constructor
    · rintro ⟨hcrash, htorn, hrest⟩
      exact ⟨hcrash, htorn, hnext.mp hrest⟩
    · rintro ⟨hcrash, htorn, hrest⟩
      exact ⟨hcrash, htorn, hnext.mpr hrest⟩

lemma wp_mono {p : Program σ ε α} {crash' : σ → Prop} (h : p.wp crash Q E s)
    (hcrash : ∀ s, crash s → crash' s) (hQ : ∀ s a, Q s a → Q' s a)
    (hE : ∀ s e, E s e → E' s e) : p.wp crash' Q' E' s := by
  induction p generalizing s with
  | done a => exact hQ _ _ h
  | throw e => exact hE _ _ h
  | read next ih => exact ih s h
  | write torn f next ih =>
    obtain ⟨hbefore, htorn, hrest⟩ := h
    exact ⟨hcrash _ hbefore, fun s' hs' => hcrash _ (htorn s' hs'), ih hrest⟩

lemma wp_conseq {p : Program σ ε α} (h : p.wp crash Q E s) (hQ : ∀ s a, Q s a → Q' s a) :
    p.wp crash Q' E s := wp_mono h (fun _ hs => hs) hQ fun _ _ he => he

section Keeps
variable {inv : σ → Prop}

end Keeps

/-- Wherever a program is cut, it leaves a state of `crash`. -/
theorem crash_of_wp {p : Program σ ε α} (h : p.wp crash Q E s) (hQ : ∀ s a, Q s a → crash s)
    (hE : ∀ s e, E s e → crash s) (hcut : CrashesTo p s s') : crash s' := by
  induction hcut with
  | done => exact hQ _ _ h
  | throw => exact hE _ _ h
  | read _ ih => exact ih h
  | before => exact h.1
  | torn hs' => exact h.2.1 _ hs'
  | after _ ih => exact ih h.2.2

/-- A program that is not cut ends with its postcondition. -/
theorem run_of_wp {p : Program σ ε α} (h : p.wp crash Q E s) :
    (∃ s' a, p.run s = (s', .ok a) ∧ Q s' a) ∨ ∃ s' e, p.run s = (s', .error e) ∧ E s' e := by
  induction p generalizing s with
  | done a => exact Or.inl ⟨s, a, rfl, h⟩
  | throw e => exact Or.inr ⟨s, e, rfl, h⟩
  | read next ih => exact ih s h
  | write torn f next ih => exact ih h.2.2

/-- A program that cannot fail returns. -/
theorem returns_of_wp {p : Program σ ε α} (h : p.wp crash Q (fun _ _ => False) s) :
    ∃ s' a, p.run s = (s', .ok a) ∧ Q s' a := by
  rcases run_of_wp h with hok | ⟨_, _, _, hfalse⟩
  · exact hok
  · exact hfalse.elim

/-- The states left by a program that was cut, and by any number of recoveries that were cut too. -/
inductive Interrupted (p : Program σ ε α) (recover : ι → Program σ ε β) (s : σ) : σ → Prop
  | first {s' : σ} (h : CrashesTo p s s') : Interrupted p recover s s'
  | again {s' s'' : σ} (i : ι) (hs : Interrupted p recover s s')
      (h : CrashesTo (recover i) s' s'') : Interrupted p recover s s''

theorem Interrupted.invariant {p : Program σ ε α} {recover : ι → Program σ ε β} {inv : σ → Prop}
    (hfirst : ∀ s', CrashesTo p s s' → inv s')
    (hagain : ∀ i s' s'', inv s' → CrashesTo (recover i) s' s'' → inv s'')
    (h : Interrupted p recover s s') : inv s' := by
  induction h with
  | first h => exact hfirst _ h
  | again i _ h ih => exact hagain i _ _ ih h

end Program

end Maple.CrashRecovery
