import Maple.WalLane

/-! What the text of a cursor file, cut anywhere, reads back as. -/

namespace Maple.Wal

lemma isWhitespace_of_isDigit {c : Char} (h : c.isDigit) : isWhitespace c = false := by
  have hrange : 48 ≤ c.toNat ∧ c.toNat ≤ 57 := by
    simp only [Char.isDigit, Bool.and_eq_true, decide_eq_true_eq, ge_iff_le, UInt32.le_iff_toNat_le] at h
    exact h
  simp only [isWhitespace, List.contains_eq_mem, List.mem_cons, List.not_mem_nil, or_false,
    Bool.or_eq_false_iff, Bool.and_eq_false_iff, decide_eq_false_iff_not]
  omega

lemma isDigit_toDigits {n : ℕ} {c : Char} (h : c ∈ Nat.toDigits 10 n) : c.isDigit :=
  Nat.isDigit_of_mem_toDigits (by decide) (by decide) h

lemma splitWhitespace_word {word : List Char} (h : ∀ c ∈ word, c.isDigit) :
    splitWhitespace word = if word = [] then [] else [word] := by
  rw [splitWhitespace, List.splitOnP_eq_singleton fun c hc => isWhitespace_of_isDigit (h c hc)]
  cases word <;> rfl

lemma splitWhitespace_cons {word rest : List Char} (hne : word ≠ []) (h : ∀ c ∈ word, c.isDigit) :
    splitWhitespace (word ++ ' ' :: rest) = word :: splitWhitespace rest := by
  rw [splitWhitespace, List.splitOnP_append_cons_of_forall_mem (fun c hc => isWhitespace_of_isDigit (h c hc)) ' ' rfl,
    List.filter_cons_of_pos (by simpa using hne)]
  rfl

/-- More digits make a number no smaller. -/
lemma ofDigitChars_ge (digits : List Char) (n : ℕ) : n ≤ Nat.ofDigitChars 10 digits n := by
  induction digits generalizing n with
  | nil => simp
  | cons c cs ih =>
    rw [Nat.ofDigitChars_cons]
    have hrest := ih (10 * n + (c.toNat - '0'.toNat))
    omega

lemma ofDigitChars_take_le (n k : ℕ) :
    Nat.ofDigitChars 10 ((Nat.toDigits 10 n).take k) 0 ≤ n := by
  have hsplit : Nat.ofDigitChars 10 ((Nat.toDigits 10 n).drop k)
      (Nat.ofDigitChars 10 ((Nat.toDigits 10 n).take k) 0) = n := by
    rw [← Nat.ofDigitChars_append, List.take_append_drop, Nat.ofDigitChars_ten_toDigits]
  conv_rhs => rw [← hsplit]
  exact ofDigitChars_ge _ _

/-- Parsing a word of digits gives their value, or nothing. -/
lemma parseU64_digits {digits : List Char} (h : ∀ c ∈ digits, c.isDigit) {n : ℕ}
    (hn : parseU64 digits = some n) : n = Nat.ofDigitChars 10 digits 0 := by
  have hplus : ¬ digits.head? = some '+' := by
    intro hhead
    have hdigit := h '+' (List.mem_of_head? hhead)
    cases hdigit
  simp only [parseU64, if_neg hplus] at hn
  split_ifs at hn
  exact (Option.some.inj hn).symm

/-- Reading two words of digits gives the origin, or their values. -/
lemma readCursor_words {seq offset : List Char} (hseq : seq ≠ []) (hseqDigits : ∀ c ∈ seq, c.isDigit)
    (hoffsetDigits : ∀ c ∈ offset, c.isDigit) :
    readCursor (some (seq ++ ' ' :: offset)) = ⟨0, 0⟩ ∨
      readCursor (some (seq ++ ' ' :: offset)) =
        ⟨Nat.ofDigitChars 10 seq 0, Nat.ofDigitChars 10 offset 0⟩ := by
  simp only [readCursor, Option.map_some, splitWhitespace_cons hseq hseqDigits,
    splitWhitespace_word hoffsetDigits]
  by_cases hnil : offset = []
  · left
    simp [hnil]
  · simp only [if_neg hnil]
    cases hs : parseU64 seq with
    | none => exact Or.inl rfl
    | some s =>
      cases ho : parseU64 offset with
      | none => exact Or.inl rfl
      | some o =>
        right
        rw [parseU64_digits hseqDigits hs, parseU64_digits hoffsetDigits ho]

/-- A cursor text cut anywhere reads as the origin, or as the same segment at an offset that is
no further. -/
theorem readCursor_cut (cursor : SegmentCursor) (k : ℕ) :
    let r := readCursor (some ((cursorText cursor).take k))
    r = ⟨0, 0⟩ ∨ r.seq = cursor.seq ∧ r.offset ≤ cursor.offset := by
  intro r
  have hseqDigits : ∀ c ∈ Nat.toDigits 10 cursor.seq, c.isDigit := fun c hc => isDigit_toDigits hc
  by_cases hk : k ≤ (Nat.toDigits 10 cursor.seq).length
  · left
    have hcut : (cursorText cursor).take k = (Nat.toDigits 10 cursor.seq).take k := by
      rw [cursorText, List.take_append_of_le_length hk]
    have hword : ∀ c ∈ (Nat.toDigits 10 cursor.seq).take k, c.isDigit := fun c hc =>
      hseqDigits c (List.mem_of_mem_take hc)
    simp only [r, hcut, readCursor, Option.map_some, splitWhitespace_word hword]
    by_cases hnil : (Nat.toDigits 10 cursor.seq).take k = []
    · simp [hnil]
    · simp [hnil]
  · obtain ⟨j, rfl⟩ : ∃ j, k = (Nat.toDigits 10 cursor.seq).length + (j + 1) :=
      ⟨k - (Nat.toDigits 10 cursor.seq).length - 1, by omega⟩
    have hcut : (cursorText cursor).take ((Nat.toDigits 10 cursor.seq).length + (j + 1)) =
        Nat.toDigits 10 cursor.seq ++ ' ' :: (Nat.toDigits 10 cursor.offset).take j := by
      rw [cursorText, List.take_length_add_append, List.take_succ_cons]
    have hoffsetDigits : ∀ c ∈ (Nat.toDigits 10 cursor.offset).take j, c.isDigit := fun c hc =>
      isDigit_toDigits (List.mem_of_mem_take hc)
    simp only [r, hcut]
    rcases readCursor_words Nat.toDigits_ne_nil hseqDigits hoffsetDigits with hzero | hread
    · exact Or.inl hzero
    · right
      rw [hread]
      exact ⟨Nat.ofDigitChars_ten_toDigits, ofDigitChars_take_le _ _⟩

end Maple.Wal
