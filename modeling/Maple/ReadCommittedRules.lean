import Maple.ReadCommitted

/-! Programs of statements and transactions, any number of which run side by side. -/

namespace Maple.ReadCommitted
open TransitionRun

variable {R E W O A B : Type}

/-- A program that reads and writes rows of `R`. A statement outside a transaction is one followed
by its commit. A `W` on an update names what is at stake from the statement before it until its
last row has been visited. -/
inductive Program (R E W : Type) (A : Type) : Type
  | done (a : A)
  | clock (next : ℤ → Program R E W A)
  | draw (next : ℕ → Program R E W A)
  | select (query : R → Bool) (next : List R → Program R E W A)
  | update (window : Option W) (write : R → Option (Option R)) (next : List R → Program R E W A)
  | visit (window : Option W) (write : R → Option (Option R)) (targets : List ℕ) (returned : List R)
      (next : List R → Program R E W A)
  | insert (row : R) (next : Program R E W A)
  | begin (next : Program R E W A)
  | commit (entries : List E) (next : Program R E W A)

namespace Program

def bind (p : Program R E W A) (k : A → Program R E W B) : Program R E W B :=
  match p with
  | .done a => k a
  | .clock next => .clock fun now => (next now).bind k
  | .draw next => .draw fun n => (next n).bind k
  | .select query next => .select query fun rows => (next rows).bind k
  | .update window write next => .update window write fun rows => (next rows).bind k
  | .visit window write targets returned next =>
      .visit window write targets returned fun rows => (next rows).bind k
  | .insert row next => .insert row (next.bind k)
  | .begin next => .begin (next.bind k)
  | .commit entries next => .commit entries (next.bind k)

instance : Monad (Program R E W) where
  pure := .done
  bind := bind

/-- What is at stake while the program stands here. -/
def window : Program R E W A → Option W
  | .update window _ _ => window
  | .visit window _ _ _ _ => window
  | _ => none

/-- An update that has the rows of `targets` still to visit. -/
def visiting (window : Option W) (write : R → Option (Option R)) (targets : List ℕ)
    (returned : List R) (next : List R → Program R E W A) : Program R E W A :=
  if targets = [] then next returned else .visit window write targets returned next

end Program

/-- A program in progress, and where its transaction started. -/
structure Process (R E W A : Type) where
  current : Program R E W A
  restart : Option (Program R E W A) := none

/-- The store, and the processes that were ever started; one that has failed is `none`. -/
structure World (R E W A : Type) where
  store : Store R E := {}
  now : ℤ := 0
  processes : List (Option (Process R E W A)) := []

/-- A process starts, the clock advances, a process takes the next statement or visits the next row
of its update; its transaction is rolled back and tried again, or it fails for good. -/
inductive Action (O : Type) : Type
  | spawn (op : O)
  | tick (now : ℤ)
  | run (t : ℕ)
  | visit (t i : ℕ)
  | retry (t : ℕ)
  | fail (t : ℕ)

namespace World

def process? (w : World R E W A) (t : ℕ) : Option (Process R E W A) := w.processes.getD t none

def setProcess (w : World R E W A) (t : ℕ) (p : Option (Process R E W A)) : World R E W A :=
  { w with processes := w.processes.set t p }

def goOn (w : World R E W A) (t : ℕ) (store : Store R E) (p : Process R E W A) : World R E W A :=
  { w with store }.setProcess t (some p)

/-- The next statement of a process. -/
def run (w : World R E W A) (t : ℕ) (p : Process R E W A) : Option (World R E W A) :=
  match p.current with
  | .done _ => none
  | .clock next => some (w.goOn t w.store { p with current := next w.now })
  | .draw next => some (w.goOn t (w.store.draw t) { p with current := next w.store.draws.length })
  | .select query next =>
      some (w.goOn t w.store { p with current := next ((w.store.visible t).filter query) })
  | .update window write next =>
      some (w.goOn t w.store
        { p with current := .visiting window write (w.store.matching t write) [] next })
  | .visit _ _ _ _ _ => none
  | .insert row next => some (w.goOn t (w.store.insert t row) { p with current := next })
  | .begin next => some (w.goOn t w.store { current := next, restart := some next })
  | .commit entries next => some (w.goOn t (w.store.commit t entries) { current := next })

/-- An update locks the row and judges it as it is now; a row locked by another must wait. -/
def visit (w : World R E W A) (t i : ℕ) (p : Process R E W A) : Option (World R E W A) :=
  match p.current with
  | .visit window write targets returned next =>
      if i ∈ targets ∧ (w.store.slot i).Free t then
        let rest := targets.erase i
        match (w.store.slot i).seen t with
        | none => some (w.goOn t w.store { p with current := .visiting window write rest returned next })
        | some row =>
            match write row with
            | none =>
                some (w.goOn t w.store { p with current := .visiting window write rest returned next })
            | some new =>
                some (w.goOn t (w.store.write t i new)
                  { p with
                    current := .visiting window write rest (returned ++ [new.getD row]) next })
      else none
  | _ => none

def step (start : O → Program R E W A) (w : World R E W A) : Action O → Option (World R E W A)
  | .spawn op => some { w with processes := w.processes ++ [some { current := start op }] }
  | .tick now => if w.now ≤ now then some { w with now } else none
  | .run t => (w.process? t).bind (w.run t)
  | .visit t i => (w.process? t).bind (w.visit t i)
  | .retry t =>
      (w.process? t).bind fun p => p.restart.map fun first =>
        w.goOn t (w.store.rollback t) { current := first, restart := some first }
  | .fail t =>
      if (w.process? t).isSome then
        some ({ w with store := w.store.rollback t }.setProcess t none)
      else none

variable {w : World R E W A} {t u : ℕ} {p : Option (Process R E W A)}

lemma lt_length_of_process? {q : Process R E W A} (h : w.process? t = some q) :
    t < w.processes.length := by
  by_contra hlt
  simp [process?, List.getElem?_eq_none (not_lt.mp hlt)] at h

lemma process?_setProcess_self (ht : t < w.processes.length) :
    (w.setProcess t p).process? t = p := by
  simp [process?, setProcess, ht]

lemma process?_setProcess_of_ne (h : u ≠ t) : (w.setProcess t p).process? u = w.process? u := by
  simp [process?, setProcess, List.getElem?_set_ne (Ne.symm h)]

end World

end Maple.ReadCommitted
