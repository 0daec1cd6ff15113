import Mathlib.Data.List.Basic

/-! Doubly linked lists whose cells are slots: each slot in use names the slot before it and the
slot after it. -/

namespace Maple

/-- The slots before and after each slot in use. -/
abbrev SlotLinks := ℕ → Option (Option ℕ × Option ℕ)

namespace SlotLinks

variable {links links' : SlotLinks} {prev next : Option ℕ} {s : ℕ} {slots more : List ℕ}

/-- The slots in order, linked both ways; `prev` comes before the first and `next` after the last. -/
def Segment (links : SlotLinks) : Option ℕ → List ℕ → Option ℕ → Prop
  | _, [], _ => True
  | prev, s :: rest, next =>
    links s = some (prev, rest.head?.or next) ∧ Segment links (some s) rest next

lemma segment_append : Segment links prev (slots ++ more) next ↔
    Segment links prev slots (more.head?.or next) ∧
      Segment links (slots.getLast?.or prev) more next := by
  induction slots generalizing prev with
  | nil => simp [Segment]
  | cons s slots ih =>
    have hlast : (s :: slots).getLast?.or prev = slots.getLast?.or (some s) := by
      rw [List.getLast?_cons]
      cases slots.getLast? <;> rfl
    rw [List.cons_append, Segment, Segment, ih, hlast, List.head?_append, Option.or_assoc, and_assoc]

lemma Segment.congr (h : Segment links prev slots next) (hsame : ∀ s ∈ slots, links' s = links s) :
    Segment links' prev slots next := by
  induction slots generalizing prev with
  | nil => trivial
  | cons s slots ih =>
    obtain ⟨hs, hrest⟩ := h
    refine ⟨?_, ih hrest fun t ht => hsame t (by simp [ht])⟩
    rw [hsame s (by simp), hs]

lemma Segment.mem (h : Segment links prev slots next) (hs : s ∈ slots) : (links s).isSome := by
  induction slots generalizing prev with
  | nil => cases hs
  | cons t slots ih =>
    obtain ⟨ht, hrest⟩ := h
    rcases List.mem_cons.mp hs with rfl | hs
    · simp [ht]
    · exact ih hrest hs

/-- The first slot gets another slot before it. -/
lemma Segment.relinkFirst {prev' : Option ℕ} (h : Segment links prev (s :: slots) next)
    (hs : links' s = (links s).map fun link => (prev', link.2))
    (hsame : ∀ t ∈ slots, links' t = links t) : Segment links' prev' (s :: slots) next := by
  obtain ⟨hfirst, hrest⟩ := h
  refine ⟨?_, hrest.congr hsame⟩
  rw [hs, hfirst]
  rfl

/-- The last slot gets another slot after it. -/
lemma Segment.relinkLast {next' : Option ℕ} (h : Segment links prev (slots ++ [s]) next)
    (hs : links' s = (links s).map fun link => (link.1, next'))
    (hsame : ∀ t ∈ slots, links' t = links t) : Segment links' prev (slots ++ [s]) next' := by
  obtain ⟨hfront, hlast, -⟩ := segment_append.mp h
  refine segment_append.mpr ⟨hfront.congr hsame, ?_, trivial⟩
  rw [hs, hlast]
  rfl

end SlotLinks

end Maple
