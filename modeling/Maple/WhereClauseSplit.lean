import Maple.WhereClauseTyped

/-! Texts joined by a keyword, and what the splitter makes of them. -/

namespace Maple.WhereClause
open SafeFetch (isTrimmed)

/-! ### Bounded texts -/

/-- A text that begins and ends with no white space. -/
structure Bounded (text : Text) : Prop where
  ne : text ≠ []
  head : Headed text
  last : ∀ c ∈ text.getLast?, isTrimmed c = false

lemma dropWhile_headed {text : Text} (h : Headed text) : text.dropWhile isTrimmed = text := by
  cases text with
  | nil => rfl
  | cons c text => simp [h c rfl]

lemma Bounded.trim_eq {text : Text} (h : Bounded text) : trim text = text := by
  have hlast : Headed text.reverse := by
    intro c hc
    rw [List.head?_reverse] at hc
    exact h.last c hc
  rw [trim, dropWhile_headed h.head, dropWhile_headed hlast, List.reverse_reverse]

lemma Bounded.append {front back : Text} (hfront : Bounded front) (hback : Bounded back)
    (middle : Text) : Bounded (front ++ (middle ++ back)) where
  ne := by simp [hfront.ne]
  head := by
    intro c hc
    rw [List.head?_append_of_ne_nil _ hfront.ne] at hc
    exact hfront.head c hc
  last := by
    rw [← List.append_assoc, List.getLast?_append_of_ne_nil _ hback.ne]
    exact hback.last

/-! ### Reading past -/

/-- Where the text of a clause may end. -/
def Ends (rest : Text) : Prop := ∀ c ∈ rest.head?, isTrimmed c = true ∨ c = ')'

/-- The splitter reads past the text at this depth. -/
def Passed (keyword : String) (depth : ℕ) (text : Text) : Prop :=
  ∀ part rest, Ends rest → splitLoop keyword 0 ⟨depth, none, part⟩ (text ++ rest) =
    splitLoop keyword 0 ⟨depth, none, part ++ text⟩ rest

inductive Separator (keyword : String) : Text → Prop
  | intro {c : Char} {before typed after : Text} : splitsAt c = true → Spaces before →
      toLowerCase typed = keyword.toList → Spaces after → after ≠ [] →
      Separator keyword (c :: (before ++ (typed ++ after)))

lemma isTrimmed_of_splitsAt {c : Char} (h : splitsAt c = true) : isTrimmed c = true := by
  simp only [splitsAt, Bool.or_eq_true, decide_eq_true_eq] at h
  rcases h with ((rfl | rfl) | rfl) | rfl
  all_goals decide

lemma isKeyChar_of_lower {c : Char} (h : isKeyChar c.toLower = true) : isKeyChar c = true := by
  by_cases hupper : c.val ≥ 'A'.val ∧ c.val ≤ 'Z'.val
  · have hletter : ('A' ≤ c) ∧ (c ≤ 'Z') := hupper
    simp [isKeyChar, hletter]
  · rwa [Char.toLower, dif_neg hupper] at h

/-- A keyword however it is typed is letters, and there are some. -/
lemma IsKeyword.typed {keyword : String} (h : IsKeyword keyword) {typed : Text}
    (htyped : toLowerCase typed = keyword.toList) :
    typed ≠ [] ∧ ∀ c ∈ typed, isPlain c = true := by
  have hletters : keyword.toList ≠ [] ∧ ∀ c ∈ keyword.toList, isKeyChar c = true := by
    rcases h with rfl | rfl
    · exact ⟨by decide, List.all_eq_true.mp (by decide)⟩
    · exact ⟨by decide, List.all_eq_true.mp (by decide)⟩
  constructor
  · rintro rfl
    exact hletters.1 htyped.symm
  · intro c hc
    apply isPlain_of_key
    apply isKeyChar_of_lower
    apply hletters.2
    rw [← htyped]
    exact List.mem_map_of_mem hc

lemma IsKeyword.headed {keyword : String} (h : IsKeyword keyword) {typed : Text}
    (htyped : toLowerCase typed = keyword.toList) (rest : Text) : Headed (typed ++ rest) := by
  obtain ⟨hne, hplain⟩ := h.typed htyped
  intro c hc
  rw [List.head?_append_of_ne_nil _ hne] at hc
  have hc' := hplain c (List.mem_of_mem_head? hc)
  simp only [isPlain, Bool.and_eq_true, Bool.not_eq_true'] at hc'
  exact hc'.1.1.1

lemma Separator.after {keyword : String} (hkeyword : IsKeyword keyword) {separator : Text}
    (h : Separator keyword separator) {rest : Text} (hrest : Headed rest) :
    afterSeparator keyword (separator ++ rest) = some rest := by
  obtain ⟨hc, hbefore, htyped, hafter, hne⟩ := h
  rename_i c before typed after
  have hspaces : Spaces (c :: before) := by
    intro d hd
    rcases List.mem_cons.mp hd with rfl | hd
    · exact isTrimmed_of_splitsAt hc
    · exact hbefore d hd
  have htext : c :: (before ++ (typed ++ after)) ++ rest =
      (c :: before) ++ (typed ++ (after ++ rest)) := by simp
  rw [htext, afterSeparator, afterSpace_spaces hspaces (List.cons_ne_nil _ _)
    (hkeyword.headed htyped _), Option.bind_some, afterWord_typed htyped, Option.bind_some,
    afterSpace_spaces hafter hne hrest]

lemma splitLoop_skip (keyword : String) (state : SplitState) (skipped rest : Text) :
    splitLoop keyword skipped.length state (skipped ++ rest) = splitLoop keyword 0 state rest := by
  induction skipped with
  | nil => rfl
  | cons c skipped ih =>
    rw [List.length_cons, List.cons_append, splitLoop, ih]

/-- At no depth, a separator ends a part. -/
lemma Separator.splits {keyword : String} (hkeyword : IsKeyword keyword) {separator : Text}
    (h : Separator keyword separator) (part : Text) {rest : Text} (hrest : Headed rest) :
    splitLoop keyword 0 ⟨0, none, part⟩ (separator ++ rest) =
      part :: splitLoop keyword 0 {} rest := by
  have hafter := h.after hkeyword hrest
  obtain ⟨hc, hbefore, htyped, hspaces, hne⟩ := h
  rename_i c before typed after
  have hseparator : (SplitState.mk 0 none part).separator keyword
      (c :: (before ++ (typed ++ after) ++ rest)) = some rest := by
    rw [SplitState.separator, if_pos ⟨rfl, rfl, hc⟩]
    exact hafter
  have hskip : (before ++ (typed ++ after) ++ rest).length - rest.length =
      (before ++ (typed ++ after)).length := by
    rw [List.length_append]
    omega
  rw [List.cons_append, splitLoop, hseparator]
  dsimp only
  rw [hskip, splitLoop_skip]

/-- Inside parentheses, characters of no meaning are read past. -/
lemma splitLoop_deep {keyword : String} {text : Text} (h : ∀ c ∈ text, isQuote c = false ∧
    c ≠ '(' ∧ c ≠ ')') (depth : ℕ) (part rest : Text) :
    splitLoop keyword 0 ⟨depth + 1, none, part⟩ (text ++ rest) =
      splitLoop keyword 0 ⟨depth + 1, none, part ++ text⟩ rest := by
  induction text generalizing part with
  | nil => simp
  | cons c text ih =>
    obtain ⟨hquote, hopen, hclose⟩ := h c List.mem_cons_self
    have hstep : splitLoop keyword 0 ⟨depth + 1, none, part⟩ (c :: (text ++ rest)) =
        splitLoop keyword 0 ⟨depth + 1, none, part ++ [c]⟩ (text ++ rest) := by
      simp [splitLoop, SplitState.separator, SplitState.read, hquote, hopen, hclose]
    rw [List.cons_append, hstep, ih fun d hd => h d (List.mem_cons_of_mem c hd)]
    simp

lemma unmarked_of_isTrimmed {c : Char} (h : isTrimmed c = true) :
    isQuote c = false ∧ c ≠ '(' ∧ c ≠ ')' := by
  refine ⟨?_, ?_, ?_⟩
  · rw [Bool.eq_false_iff]
    intro hquote
    simp only [isQuote, Bool.or_eq_true, decide_eq_true_eq] at hquote
    rcases hquote with rfl | rfl
    · exact absurd h (by decide)
    · exact absurd h (by decide)
  · rintro rfl
    exact absurd h (by decide)
  · rintro rfl
    exact absurd h (by decide)

lemma unmarked_of_isPlain {c : Char} (h : isPlain c = true) :
    isQuote c = false ∧ c ≠ '(' ∧ c ≠ ')' := by
  simp only [isPlain, Bool.and_eq_true, Bool.not_eq_true', decide_eq_true_eq] at h
  exact ⟨h.1.1.2, h.1.2, h.2⟩

lemma Separator.unmarked {keyword : String} (hkeyword : IsKeyword keyword) {separator : Text}
    (h : Separator keyword separator) :
    ∀ c ∈ separator, isQuote c = false ∧ c ≠ '(' ∧ c ≠ ')' := by
  obtain ⟨hc, hbefore, htyped, hafter, hne⟩ := h
  intro d hd
  simp only [List.mem_cons, List.mem_append] at hd
  rcases hd with rfl | hd | hd | hd
  · exact unmarked_of_isTrimmed (isTrimmed_of_splitsAt hc)
  · exact unmarked_of_isTrimmed (hbefore d hd)
  · exact unmarked_of_isPlain ((hkeyword.typed htyped).2 d hd)
  · exact unmarked_of_isTrimmed (hafter d hd)

/-! ### Joined texts -/

/-- The text is made of the parts, with a separator after each but the last. -/
inductive Joined (keyword : String) : Text → List Text → Prop
  | one (text : Text) : Joined keyword text [text]
  | more {part separator rest : Text} {parts : List Text} : Separator keyword separator →
      Headed rest → Joined keyword rest parts →
      Joined keyword (part ++ (separator ++ rest)) (part :: parts)

lemma ends_separator {keyword : String} {separator : Text} (h : Separator keyword separator)
    (rest : Text) : Ends (separator ++ rest) := by
  obtain ⟨hc, -⟩ := h
  intro d hd
  rw [List.cons_append, List.head?_cons, Option.mem_some_iff] at hd
  exact .inl (hd ▸ isTrimmed_of_splitsAt hc)

lemma Joined.split {keyword : String} (hkeyword : IsKeyword keyword) {text : Text}
    {parts : List Text} (h : Joined keyword text parts)
    (hparts : ∀ part ∈ parts, Passed keyword 0 part) : splitLoop keyword 0 {} text = parts := by
  induction h with
  | one text =>
    have hend : splitLoop keyword 0 ⟨0, none, text⟩ [] = [text] := rfl
    have hpass := hparts text (List.mem_singleton_self text) [] [] (by simp [Ends])
    rw [List.append_nil, List.nil_append, hend] at hpass
    exact hpass
  | @more part separator rest parts hseparator hrest _ ih =>
    have hpass := hparts part List.mem_cons_self [] (separator ++ rest)
      (ends_separator hseparator rest)
    calc splitLoop keyword 0 {} (part ++ (separator ++ rest)) =
        splitLoop keyword 0 ⟨0, none, part⟩ (separator ++ rest) := hpass
      _ = part :: splitLoop keyword 0 {} rest := hseparator.splits hkeyword part hrest
      _ = part :: parts := by rw [ih fun t ht => hparts t (List.mem_cons_of_mem _ ht)]

lemma Joined.passed {keyword other : String} (hkeyword : IsKeyword keyword) {text : Text}
    {parts : List Text} (h : Joined keyword text parts) {depth : ℕ}
    (hparts : ∀ part ∈ parts, Passed other (depth + 1) part) : Passed other (depth + 1) text := by
  induction h with
  | one text => exact hparts text (List.mem_singleton_self text)
  | @more part separator rest parts hseparator hrest _ ih =>
    intro front back hback
    rw [List.append_assoc, List.append_assoc, hparts part List.mem_cons_self _ _
      (ends_separator hseparator _), splitLoop_deep (hseparator.unmarked hkeyword),
      ih (fun t ht => hparts t (List.mem_cons_of_mem _ ht)) _ _ hback]
    simp

lemma Joined.bounded {keyword : String} {text : Text} {parts : List Text}
    (h : Joined keyword text parts) (hparts : ∀ part ∈ parts, Bounded part) : Bounded text := by
  induction h with
  | one text => exact hparts text (List.mem_singleton_self text)
  | @more part separator rest parts hseparator hrest _ ih =>
    exact (hparts part List.mem_cons_self).append
      (ih fun t ht => hparts t (List.mem_cons_of_mem _ ht)) separator

/-- Joining bounded texts that are read past, and splitting them again. -/
lemma Joined.splitOnKeyword {keyword : String} (hkeyword : IsKeyword keyword) {text : Text}
    {parts : List Text} (h : Joined keyword text parts)
    (hparts : ∀ part ∈ parts, Passed keyword 0 part ∧ Bounded part) :
    splitOnKeyword text keyword = parts := by
  have htrim : parts.map trim = parts := by
    have hid : parts.map trim = parts.map id :=
      List.map_congr_left fun t ht => (hparts t ht).2.trim_eq
    rw [hid, List.map_id]
  rw [WhereClause.splitOnKeyword, h.split hkeyword fun t ht => (hparts t ht).1, htrim]
  apply List.filter_eq_self.mpr
  intro t ht
  have hne := (hparts t ht).2.ne
  simpa using hne

end Maple.WhereClause
