import Mathlib

/-! Patterns with stars over any alphabet: what they mean by their star-free segments, and how far
the leftmost occurrence of a segment decides that. -/

namespace Maple.StarPattern

variable {α : Type}

/-- The segments with the gaps between them. -/
def weave : List (List α) → List (List α) → List α
  | segment :: segments, gap :: gaps => segment ++ (gap ++ weave segments gaps)
  | [segment], [] => segment
  | _, _ => []

/-- The text is the segments with some text, perhaps none, between every two. -/
def Woven (segments : List (List α)) (text : List α) : Prop :=
  ∃ gaps, gaps.length + 1 = segments.length ∧ text = weave segments gaps

/-- The text is woven from the segments after some text of its own. -/
def After (segments : List (List α)) (text : List α) : Prop :=
  ∃ gap tail, text = gap ++ tail ∧ Woven segments tail

lemma woven_singleton {segment text : List α} : Woven [segment] text ↔ text = segment := by
  constructor
  · intro ⟨gaps, hlength, htext⟩
    have hnil : gaps = [] := List.length_eq_zero_iff.mp (by simpa using hlength)
    rw [htext, hnil, weave]
  · intro htext
    exact ⟨[], rfl, by rw [htext, weave]⟩

lemma woven_cons {segment next text : List α} {segments : List (List α)} :
    Woven (segment :: next :: segments) text ↔
      ∃ tail, text = segment ++ tail ∧ After (next :: segments) tail := by
  constructor
  · intro ⟨gaps, hlength, htext⟩
    cases gaps with
    | nil => simp at hlength
    | cons gap gaps =>
      refine ⟨gap ++ weave (next :: segments) gaps, htext, gap, _, rfl, gaps, ?_, rfl⟩
      simpa using hlength
  · intro ⟨tail, htext, gap, tail', htail, gaps, hlength, htail'⟩
    refine ⟨gap :: gaps, by simpa using hlength, ?_⟩
    rw [htext, htail, htail', weave]

lemma After.prepend {segments : List (List α)} {text : List α} (h : After segments text)
    (front : List α) : After segments (front ++ text) := by
  obtain ⟨gap, tail, rfl, htail⟩ := h
  exact ⟨front ++ gap, tail, by rw [List.append_assoc], htail⟩

lemma after_cons {segment next text : List α} {segments : List (List α)} :
    After (segment :: next :: segments) text ↔
      ∃ gap tail, text = gap ++ (segment ++ tail) ∧ After (next :: segments) tail := by
  constructor
  · intro ⟨gap, tail, htext, htail⟩
    obtain ⟨tail', rfl, hafter⟩ := woven_cons.mp htail
    exact ⟨gap, tail', htext, hafter⟩
  · intro ⟨gap, tail, htext, hafter⟩
    exact ⟨gap, segment ++ tail, htext, woven_cons.mpr ⟨tail, rfl, hafter⟩⟩

/-! ### Patterns -/

section pattern
variable [DecidableEq α] {star : α}

/-- The text that a pattern stands for, its stars standing for any text. -/
def Means (star : α) (pattern text : List α) : Prop := Woven (pattern.splitOn star) text

lemma splitOn_cons (c : α) (pattern : List α) : (c :: pattern).splitOn star =
    if c = star then [] :: pattern.splitOn star
    else (pattern.splitOn star).modifyHead (List.cons c) := by
  rw [List.splitOn, List.splitOnP_cons_eq_if_modifyHead]
  simp only [beq_iff_eq, List.splitOn]

variable (star) in
lemma exists_splitOn (pattern : List α) :
    ∃ segment segments, pattern.splitOn star = segment :: segments :=
  List.exists_cons_of_ne_nil (List.splitOnP_ne_nil _ pattern)

lemma means_nil {text : List α} : Means star [] text ↔ text = [] := by
  rw [Means, List.splitOn_nil, woven_singleton]

lemma means_star {pattern text : List α} :
    Means star (star :: pattern) text ↔ ∃ gap tail, text = gap ++ tail ∧ Means star pattern tail := by
  obtain ⟨segment, segments, hsplit⟩ := exists_splitOn star pattern
  unfold Means
  rw [splitOn_cons, if_pos rfl, hsplit, woven_cons]
  constructor
  · intro ⟨tail, htext, hafter⟩
    rwa [htext]
  · intro hafter
    exact ⟨text, rfl, hafter⟩

lemma means_cons {c : α} {pattern text : List α} (hc : c ≠ star) :
    Means star (c :: pattern) text ↔ ∃ tail, text = c :: tail ∧ Means star pattern tail := by
  obtain ⟨segment, segments, hsplit⟩ := exists_splitOn star pattern
  unfold Means
  rw [splitOn_cons, if_neg hc, hsplit, List.modifyHead_cons]
  cases segments with
  | nil => simp [woven_singleton]
  | cons next segments =>
    simp only [woven_cons]
    constructor
    · intro ⟨tail, htext, hafter⟩
      exact ⟨segment ++ tail, htext, tail, rfl, hafter⟩
    · intro ⟨tail, htext, tail', htail, hafter⟩
      exact ⟨tail', by rw [htext, htail]; rfl, hafter⟩

/-- Literals at the front of a pattern stand for themselves. -/
lemma means_append {literals pattern text : List α} (hliterals : star ∉ literals) :
    Means star (literals ++ pattern) text ↔
      ∃ tail, text = literals ++ tail ∧ Means star pattern tail := by
  induction literals generalizing text with
  | nil => simp
  | cons c literals ih =>
    obtain ⟨hc, hrest⟩ : star ≠ c ∧ star ∉ literals := by simpa using hliterals
    rw [List.cons_append, means_cons (Ne.symm hc)]
    constructor
    · intro ⟨tail, htext, hmeans⟩
      obtain ⟨tail', htail, hmeans'⟩ := (ih hrest).mp hmeans
      exact ⟨tail', by rw [htext, htail]; rfl, hmeans'⟩
    · intro ⟨tail, htext, hmeans⟩
      exact ⟨literals ++ tail, htext, (ih hrest).mpr ⟨tail, rfl, hmeans⟩⟩

/-- Only stars stand for the empty text. -/
lemma means_empty_iff {pattern : List α} : Means star pattern [] ↔ ∀ c ∈ pattern, c = star := by
  induction pattern with
  | nil => simp [means_nil]
  | cons c pattern ih =>
    by_cases hc : c = star
    · subst hc
      rw [means_star, List.forall_mem_cons]
      simp only [true_and, ← ih]
      constructor
      · intro ⟨gap, tail, htext, hmeans⟩
        obtain ⟨-, rfl⟩ := List.append_eq_nil_iff.mp htext.symm
        exact hmeans
      · intro hmeans
        exact ⟨[], [], rfl, hmeans⟩
    · rw [means_cons hc]
      simp [hc]

end pattern

/-! ### Segments in order -/

/-- The segments occur one after the other in the text. -/
def InOrder : List (List α) → List α → Prop
  | [], _ => True
  | segment :: segments, text =>
    ∃ gap tail, text = gap ++ (segment ++ tail) ∧ InOrder segments tail

lemma InOrder.prepend {segments : List (List α)} {text : List α} (h : InOrder segments text)
    (front : List α) : InOrder segments (front ++ text) := by
  cases segments with
  | nil => trivial
  | cons segment segments =>
    obtain ⟨gap, tail, rfl, htail⟩ := h
    exact ⟨front ++ gap, tail, by rw [List.append_assoc], htail⟩

/-- Before a last segment, the others occur in order. -/
lemma after_concat {segments : List (List α)} {last text : List α} :
    After (segments ++ [last]) text ↔ ∃ rest, text = rest ++ last ∧ InOrder segments rest := by
  induction segments generalizing text with
  | nil => simp [After, woven_singleton, InOrder]
  | cons segment segments ih =>
    obtain ⟨next, others, hothers⟩ := List.exists_cons_of_ne_nil
      (List.append_ne_nil_of_right_ne_nil segments (List.cons_ne_nil last []))
    rw [List.cons_append, hothers, after_cons, ← hothers]
    constructor
    · intro ⟨gap, tail, htext, hafter⟩
      obtain ⟨rest, htail, hin⟩ := ih.mp hafter
      exact ⟨gap ++ (segment ++ rest), by rw [htext, htail]; simp, gap, rest, rfl, hin⟩
    · intro ⟨rest, htext, gap, tail, hrest, hin⟩
      exact ⟨gap, tail ++ last, by rw [htext, hrest]; simp, ih.mpr ⟨tail, rfl, hin⟩⟩

/-- Where the segment first occurs. -/
def find [DecidableEq α] (segment text : List α) : Option ℕ :=
  (List.range (text.length + 1)).find? fun at' => segment.isPrefixOf (text.drop at')

section find
variable [DecidableEq α] {segment text : List α} {segments : List (List α)}

/-- Taking the leftmost occurrence leaves the most room for the rest. -/
lemma inOrder_cons_find :
    InOrder (segment :: segments) text ↔
      ∃ at', find segment text = some at' ∧ InOrder segments (text.drop (at' + segment.length)) := by
  constructor
  · intro ⟨gap, tail, htext, hin⟩
    have hoccurs : segment.isPrefixOf (text.drop gap.length) = true := by
      rw [htext, List.drop_left, List.isPrefixOf_iff_prefix]
      exact List.prefix_append _ _
    have hroom : gap.length < text.length + 1 := by
      rw [htext, List.length_append]
      omega
    cases hfind : find segment text with
    | none =>
      have hnone := List.find?_range_eq_none.mp hfind gap.length hroom
      simp [hoccurs] at hnone
    | some at' =>
      refine ⟨at', rfl, ?_⟩
      obtain ⟨-, -, hfirst⟩ := List.find?_range_eq_some.mp hfind
      have hle : at' ≤ gap.length := by
        by_contra hlt
        have hnot := hfirst gap.length (not_le.mp hlt)
        simp [hoccurs] at hnot
      have hsuffix : text.drop (gap.length + segment.length) = tail := by
        rw [htext, ← List.append_assoc]
        exact List.drop_left' (by simp)
      have hsplit : text.drop (at' + segment.length) =
          (text.drop (at' + segment.length)).take (gap.length - at') ++ tail := by
        rw [← hsuffix]
        have hdrop : text.drop (gap.length + segment.length) =
            (text.drop (at' + segment.length)).drop (gap.length - at') := by
          rw [List.drop_drop]
          congr 1
          omega
        rw [hdrop, List.take_append_drop]
      rw [hsplit]
      exact hin.prepend _
  · intro ⟨at', hfind, hin⟩
    obtain ⟨hoccurs, -, -⟩ := List.find?_range_eq_some.mp hfind
    obtain ⟨tail, htail⟩ := List.isPrefixOf_iff_prefix.mp hoccurs
    refine ⟨text.take at', tail, ?_, ?_⟩
    · rw [htail, List.take_append_drop]
    · rw [← List.drop_drop, ← htail, List.drop_left] at hin
      exact hin

end find

lemma inOrder_nil_cons {segments : List (List α)} {text : List α} :
    InOrder ([] :: segments) text ↔ InOrder segments text := by
  constructor
  · intro ⟨gap, tail, htext, hin⟩
    rw [htext]
    exact hin.prepend gap
  · intro hin
    exact ⟨[], text, rfl, hin⟩

end Maple.StarPattern
