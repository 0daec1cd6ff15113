import Maple.StarPattern

/-! Encodings of characters in code units that show where each character begins, as the two
encodings of Unicode do: what a text is made of can be read off its units. -/

namespace Maple.CodeUnits
open StarPattern

variable {α β : Type}

/-- No character's units begin another's, and only the first unit of a character is a lead. -/
structure SelfSync (enc : α → List β) (lead : β → Bool) : Prop where
  prefixFree : ∀ {c d : α} {x y : List β}, enc c ++ x = enc d ++ y → c = d
  starts : ∀ c, ∃ unit units, enc c = unit :: units ∧ lead unit = true ∧
    ∀ u ∈ units, lead u = false

variable {enc : α → List β} {lead : β → Bool}

lemma SelfSync.ne_nil (h : SelfSync enc lead) (c : α) : enc c ≠ [] := by
  obtain ⟨unit, units, hunits, -⟩ := h.starts c
  simp [hunits]

/-- The units of a text at the front of another's are those of a text at its front. -/
lemma SelfSync.of_prefix (h : SelfSync enc lead) {xs ys : List α} {rest : List β}
    (heq : xs.flatMap enc ++ rest = ys.flatMap enc) :
    ∃ zs, ys = xs ++ zs ∧ rest = zs.flatMap enc := by
  induction xs generalizing ys with
  | nil => exact ⟨ys, rfl, heq⟩
  | cons c xs ih =>
    cases ys with
    | nil =>
      have hnil := h.ne_nil c
      simp at heq
      exact absurd heq.1 hnil
    | cons d ys =>
      rw [List.flatMap_cons, List.flatMap_cons, List.append_assoc] at heq
      have hcd := h.prefixFree heq
      subst hcd
      obtain ⟨zs, hys, hrest⟩ := ih (List.append_cancel_left heq)
      exact ⟨zs, by rw [hys]; rfl, hrest⟩

lemma SelfSync.injective (h : SelfSync enc lead) {xs ys : List α}
    (heq : xs.flatMap enc = ys.flatMap enc) : xs = ys := by
  obtain ⟨zs, hys, hrest⟩ := h.of_prefix ((List.append_nil _).trans heq)
  cases zs with
  | nil => simpa using hys.symm
  | cons z zs =>
    have hnil := h.ne_nil z
    simp at hrest
    exact absurd hrest.1 hnil

/-- Where the next unit is a lead, a text can be cut. -/
lemma SelfSync.cut (h : SelfSync enc lead) {ys : List α} {front tail : List β} {u : β}
    (hu : lead u = true) (heq : ys.flatMap enc = front ++ u :: tail) :
    ∃ before after, ys = before ++ after ∧ front = before.flatMap enc ∧
      u :: tail = after.flatMap enc := by
  induction ys generalizing front with
  | nil => simp at heq
  | cons d ys ih =>
    obtain ⟨unit, units, hunits, hlead, hnot⟩ := h.starts d
    cases front with
    | nil => exact ⟨[], d :: ys, rfl, rfl, heq.symm⟩
    | cons v front =>
      rw [List.flatMap_cons, hunits, List.cons_append, List.cons_append] at heq
      obtain ⟨rfl, hrest⟩ := List.cons.inj heq
      rcases List.append_eq_append_iff.mp hrest with ⟨between, hfront, htail⟩ | ⟨between, hus, hcut⟩
      · obtain ⟨before, after, hys, hbetween, hafter⟩ := ih htail
        refine ⟨d :: before, after, by rw [hys]; rfl, ?_, hafter⟩
        rw [hfront, hbetween, List.flatMap_cons, hunits, List.cons_append]
      · cases between with
        | nil =>
          refine ⟨[d], ys, rfl, ?_, by simpa using hcut⟩
          simp [hunits, hus]
        | cons w between =>
          obtain ⟨rfl, -⟩ := List.cons.inj hcut
          have hmem : u ∈ units := by simp [hus]
          simp [hnot u hmem] at hu

/-- The units of a segment occur in a text's where the segment occurs in the text. -/
lemma SelfSync.of_occurs (h : SelfSync enc lead) {segment text : List α} {front rest : List β}
    (hne : segment ≠ []) (heq : text.flatMap enc = front ++ (segment.flatMap enc ++ rest)) :
    ∃ gap tail, text = gap ++ (segment ++ tail) ∧ rest = tail.flatMap enc := by
  cases segment with
  | nil => exact absurd rfl hne
  | cons c cs =>
    obtain ⟨unit, units, hunits, hlead, -⟩ := h.starts c
    have hsegment : (c :: cs).flatMap enc ++ rest = unit :: (units ++ cs.flatMap enc ++ rest) := by
      simp [hunits]
    rw [hsegment] at heq
    obtain ⟨before, after, htext, -, hafter⟩ := h.cut hlead heq
    rw [← hsegment] at hafter
    obtain ⟨tail, hsplit, hrest⟩ := h.of_prefix hafter
    exact ⟨before, tail, by rw [htext, hsplit], hrest⟩

lemma woven_flatMap {segments : List (List α)} {text : List α} (hwoven : Woven segments text) :
    Woven (segments.map (List.flatMap enc)) (text.flatMap enc) := by
  induction segments generalizing text with
  | nil =>
    obtain ⟨gaps, hlength, -⟩ := hwoven
    simp at hlength
  | cons segment segments ih =>
    cases segments with
    | nil => simp [woven_singleton.mp hwoven, woven_singleton]
    | cons next segments =>
      obtain ⟨tail, rfl, gap, tail', rfl, hnext⟩ := woven_cons.mp hwoven
      exact woven_cons.mpr ⟨(gap ++ tail').flatMap enc, by simp, gap.flatMap enc, tail'.flatMap enc,
        by simp, ih hnext⟩

/-- A star may cut a character only where nothing is asked of the cut, so stars among units stand
for what stars among characters stand for. -/
lemma SelfSync.after_iff (h : SelfSync enc lead) {segments : List (List α)} (text : List α)
    (hne : segments ≠ []) :
    After (segments.map (List.flatMap enc)) (text.flatMap enc) ↔ After segments text := by
  constructor
  · induction segments generalizing text with
    | nil => exact absurd rfl hne
    | cons segment segments ih =>
      intro hunits
      cases segments with
      | nil =>
        obtain ⟨gap, tail, htext, htail⟩ := hunits
        rw [List.map_singleton, woven_singleton] at htail
        by_cases hempty : segment = []
        · exact ⟨text, [], by simp, by rw [hempty, woven_singleton]⟩
        · have hend : text.flatMap enc = gap ++ (segment.flatMap enc ++ []) := by
            rw [List.append_nil, htext, htail]
          obtain ⟨gap', tail', htext', hrest⟩ := h.of_occurs hempty hend
          have hnil : tail' = [] := h.injective (by simpa using hrest.symm)
          exact ⟨gap', segment, by rw [htext', hnil, List.append_nil], woven_singleton.mpr rfl⟩
      | cons next segments =>
        obtain ⟨gap, tail, htext, hafter⟩ := after_cons.mp hunits
        rw [after_cons]
        by_cases hempty : segment = []
        · subst hempty
          have hnext := hafter.prepend gap
          rw [List.flatMap_nil, List.nil_append] at htext
          rw [← htext] at hnext
          exact ⟨[], text, rfl, ih text (by simp) hnext⟩
        · obtain ⟨gap', tail', htext', hrest⟩ := h.of_occurs hempty htext
          rw [hrest] at hafter
          exact ⟨gap', tail', htext', ih tail' (by simp) hafter⟩
  · intro ⟨gap, tail, htext, htail⟩
    exact ⟨gap.flatMap enc, tail.flatMap enc, by rw [htext, List.flatMap_append],
      woven_flatMap htail⟩

theorem SelfSync.woven_iff (h : SelfSync enc lead) {segments : List (List α)} (text : List α) :
    Woven (segments.map (List.flatMap enc)) (text.flatMap enc) ↔ Woven segments text := by
  refine ⟨?_, woven_flatMap⟩
  intro hwoven
  match segments with
  | [] =>
    obtain ⟨gaps, hlength, -⟩ := hwoven
    simp at hlength
  | [segment] =>
    rw [List.map_singleton, woven_singleton] at hwoven
    exact woven_singleton.mpr (h.injective hwoven)
  | segment :: next :: segments =>
    obtain ⟨rest, htext, hafter⟩ := woven_cons.mp hwoven
    obtain ⟨tail, hsplit, hrest⟩ := h.of_prefix htext.symm
    rw [hrest] at hafter
    exact woven_cons.mpr ⟨tail, hsplit, (h.after_iff tail (by simp)).mp hafter⟩

/-- A character of one unit has that unit to itself. -/
lemma SelfSync.not_mem (h : SelfSync enc lead) {star c : α} {unit : β} (hstar : enc star = [unit])
    (hc : c ≠ star) : unit ∉ enc c := by
  intro hmem
  obtain ⟨first, units, hunits, -, hnot⟩ := h.starts c
  obtain ⟨unit', units', hunits', hlead, -⟩ := h.starts star
  rw [hstar] at hunits'
  obtain ⟨rfl, -⟩ := List.cons.inj hunits'
  rw [hunits] at hmem
  rcases List.mem_cons.mp hmem with rfl | hmem
  · have heq : enc star ++ units = enc c ++ [] := by simp [hstar, hunits]
    exact hc (h.prefixFree heq).symm
  · simp [hnot unit hmem] at hlead

/-- A star of one unit splits units as it splits text. -/
lemma SelfSync.splitOn_flatMap [DecidableEq α] [DecidableEq β] (h : SelfSync enc lead) {star : α}
    {unit : β} (hstar : enc star = [unit]) (text : List α) :
    (text.flatMap enc).splitOn unit = (text.splitOn star).map (List.flatMap enc) := by
  have hfront : ∀ front rest : List β, unit ∉ front →
      (front ++ rest).splitOn unit = (rest.splitOn unit).modifyHead (front ++ ·) := by
    intro front rest hfront
    induction front with
    | nil =>
      obtain ⟨segment, segments, hsplit⟩ := exists_splitOn unit rest
      simp [hsplit]
    | cons u front ih =>
      obtain ⟨hu, hrest⟩ : unit ≠ u ∧ unit ∉ front := by simpa using hfront
      rw [List.cons_append, splitOn_cons, if_neg (Ne.symm hu), ih hrest]
      obtain ⟨segment, segments, hsplit⟩ := exists_splitOn unit rest
      simp [hsplit]
  induction text with
  | nil => simp [List.splitOn_nil]
  | cons c text ih =>
    obtain ⟨segment, segments, hsplit⟩ := exists_splitOn star text
    rw [List.flatMap_cons, splitOn_cons]
    by_cases hc : c = star
    · rw [if_pos hc, hc, hstar, List.singleton_append, splitOn_cons, if_pos rfl, ih]
      simp
    · rw [if_neg hc, hfront _ _ (h.not_mem hstar hc), ih, hsplit]
      simp

end Maple.CodeUnits
