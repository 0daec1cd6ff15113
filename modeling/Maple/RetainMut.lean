import Mathlib.Data.List.Basic

/-! Filtering a list in place with a closure that changes the elements it keeps and a state of its
own. -/

namespace Maple.RetainMut
variable {α δ σ γ : Type}

/-- Keeps the elements the visit says to keep, as it leaves them. -/
def retainMut (visit : α → σ → (Bool × α) × σ) : List α → σ → List α × σ
  | [], s => ([], s)
  | a :: as, s =>
    let here := visit a s
    let rest := retainMut visit as here.2
    (if here.1.1 then here.1.2 :: rest.1 else rest.1, rest.2)

/-- The element a visit keeps. -/
def kept (result : Bool × α) : Option α := if result.1 then some result.2 else none

/-- Every visit does what some description of the element says: `erase` gives the element the
description is of, `outcome` what is kept of it and `gain` what the visit adds to the gauge. -/
structure Described (visit : α → σ → (Bool × α) × σ) (inv : σ → Prop) (erase : δ → α)
    (valid : δ → Prop) (outcome : δ → Option α) (gauge : σ → γ) (gain : γ → δ → γ) : Prop where
  step : ∀ a s, inv s → ∃ d, erase d = a ∧ valid d ∧ kept (visit a s).1 = outcome d ∧
    gauge (visit a s).2 = gain (gauge s) d ∧ inv (visit a s).2

variable {visit : α → σ → (Bool × α) × σ} {inv : σ → Prop} {erase : δ → α} {valid : δ → Prop}
  {outcome : δ → Option α} {gauge : σ → γ} {gain : γ → δ → γ}

/-- A whole run keeps what the descriptions of its elements say, in order. -/
theorem Described.run (hvisit : Described visit inv erase valid outcome gauge gain) (as : List α)
    (s : σ) (hs : inv s) :
    ∃ ds : List δ, ds.map erase = as ∧ (∀ d ∈ ds, valid d) ∧
      (retainMut visit as s).1 = ds.filterMap outcome ∧
      gauge (retainMut visit as s).2 = ds.foldl gain (gauge s) ∧ inv (retainMut visit as s).2 := by
  induction as generalizing s with
  | nil => exact ⟨[], rfl, by simp, rfl, rfl, hs⟩
  | cons a as ih =>
    obtain ⟨d, herase, hvalid, hkept, hgain, hinv⟩ := hvisit.step a s hs
    obtain ⟨ds, hmap, hall, hlist, hfold, hinv'⟩ := ih (visit a s).2 hinv
    refine ⟨d :: ds, by simp [herase, hmap], by simpa using ⟨hvalid, hall⟩, ?_, ?_, hinv'⟩
    · simp only [retainMut, List.filterMap_cons, ← hkept, kept, hlist]
      cases (visit a s).1.1 <;> rfl
    · simp only [retainMut, List.foldl_cons, hfold, hgain]

end Maple.RetainMut
