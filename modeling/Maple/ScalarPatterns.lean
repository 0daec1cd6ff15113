import Maple.RegexPattern

/-! The schema patterns of eventing scalars: bounded decimal integers and timestamps. -/

namespace Maple.Eventing
open RegexPattern

def digitRange (low high : ℕ) : Pattern :=
  .oneOf [(Nat.digitChar low, Nat.digitChar high)]

def anyDigit : Pattern := digitRange 0 9

def remainingDigits (remaining : ℕ) : Pattern :=
  if remaining = 0 then .literal [] else .exactly anyDigit remaining

/-- The strings of the same length that first differ from the digits here, by a smaller digit. -/
def smallerAt (digits : List Char) (index : ℕ) (c : Char) : Option Pattern :=
  let minimumDigit : ℤ := if index = 0 then 1 else 0
  let lastDigit : ℤ := (c.toNat - 48 : ℤ) - 1
  if lastDigit < minimumDigit then none
  else
    let digit :=
      if lastDigit = minimumDigit then .literal [Nat.digitChar lastDigit.toNat]
      else digitRange minimumDigit.toNat lastDigit.toNat
    let remaining := digits.length - index - 1
    some (.seq (.literal (digits.take index)) (.seq digit (remainingDigits remaining)))

/-- Decimal strings bounded by the maximum. -/
def magnitudePattern (maximum : ℕ) : Pattern :=
  let digits := Nat.toDigits 10 maximum
  .group (.any (.literal ['0'])
    (.seq (digitRange 1 9) (.repeated anyDigit 0 (digits.length - 2)) ::
      digits.zipIdx.filterMap (fun (c, index) => smallerAt digits index c) ++ [.literal digits]))

example : (magnitudePattern 420).source =
    "(?:0|[1-9][0-9]\x7b0,1\x7d|[1-3][0-9]\x7b2\x7d|4[0-1][0-9]\x7b1\x7d|420)".toList := by decide

def INT64_MIN : ℤ := -2 ^ 63
def INT64_MAX : ℤ := 2 ^ 63 - 1

def DECIMAL_INT64_PATTERN : Pattern :=
  .group (.alt (magnitudePattern INT64_MAX.toNat)
    (.seq (.literal ['-']) (magnitudePattern (-INT64_MIN).toNat)))

/-! ### Decimal strings -/

def Digits (s : List Char) : Prop := ∀ c ∈ s, 48 ≤ c.toNat ∧ c.toNat ≤ 57

def value (s : List Char) : ℕ := Nat.ofDigitChars 10 s 0

lemma value_cons (c : Char) (s : List Char) :
    value (c :: s) = 10 ^ s.length * (c.toNat - 48) + value s := by
  rw [value, Nat.ofDigitChars_cons, Nat.ofDigitChars_eq_ofDigitChars_zero, value]
  simp

lemma value_lt {s : List Char} (h : Digits s) : value s < 10 ^ s.length := by
  induction s with
  | nil => simp [value]
  | cons c s ih =>
    have hs := ih fun d hd => h d (List.mem_cons_of_mem _ hd)
    have hc := (h c List.mem_cons_self).2
    rw [value_cons, List.length_cons, pow_succ]
    have hmul : 10 ^ s.length * (c.toNat - 48) ≤ 10 ^ s.length * 9 :=
      Nat.mul_le_mul_left _ (by omega)
    omega

lemma value_append_singleton (s : List Char) (c : Char) :
    value (s ++ [c]) = 10 * value s + (c.toNat - 48) := by
  rw [value, Nat.ofDigitChars_append, Nat.ofDigitChars_cons, Nat.ofDigitChars_nil, value]
  rfl

lemma digitChar_sub {c : Char} (h : 48 ≤ c.toNat ∧ c.toNat ≤ 57) :
    Nat.digitChar (c.toNat - 48) = c := by
  apply Char.toNat_inj.mp
  rw [Nat.toNat_digitChar_of_lt_ten (by omega)]
  omega

lemma toDigits_digits (n : ℕ) : Digits (Nat.toDigits 10 n) := by
  intro c hc
  have hdigit := Nat.isDigit_of_mem_toDigits (by decide) (by decide) hc
  simp only [Char.isDigit, Bool.and_eq_true, decide_eq_true_eq] at hdigit
  exact hdigit

/-- No leading zero, unless it is the zero. -/
def Plain (s : List Char) : Prop := s ≠ [] ∧ Digits s ∧ (s.head? = some '0' → s = ['0'])

lemma head_toDigits {n : ℕ} (h : 0 < n) : (Nat.toDigits 10 n).head? ≠ some '0' := by
  induction n using Nat.strongRecOn with
  | ind n ih =>
    rw [Nat.toDigits_eq_if (by decide)]
    split_ifs with hsmall
    · simp only [List.head?_cons, ne_eq, Option.some.injEq, Nat.digitChar_eq_zero]
      omega
    · rw [List.head?_append_of_ne_nil _ Nat.toDigits_ne_nil]
      exact ih (n / 10) (by omega) (by omega)

lemma value_pos {s : List Char} (h : Digits s) (hne : s ≠ []) (hhead : s.head? ≠ some '0') :
    0 < value s := by
  cases s with
  | nil => exact absurd rfl hne
  | cons c s =>
    have hc := h c List.mem_cons_self
    have hzero : c.toNat ≠ 48 := by
      intro heq
      apply hhead
      rw [List.head?_cons, Char.toNat_inj.mp (heq.trans (by decide : (48 : ℕ) = '0'.toNat))]
    rw [value_cons]
    have hpow : 0 < 10 ^ s.length := Nat.pow_pos (by decide)
    have hmul : 0 < 10 ^ s.length * (c.toNat - 48) := Nat.mul_pos hpow (by omega)
    omega

/-- A string without leading zero is how its value is written. -/
lemma toDigits_value {s : List Char} (h : Plain s) : Nat.toDigits 10 (value s) = s := by
  obtain ⟨hne, hdigits, hzero⟩ := h
  induction s using List.reverseRecOn with
  | nil => exact absurd rfl hne
  | append_singleton t c ih =>
    have hc := hdigits c (by simp)
    rw [value_append_singleton]
    by_cases ht : t = []
    · subst ht
      have hsmall : c.toNat - 48 < 10 := by omega
      simp [value, Nat.toDigits_of_lt_base hsmall, digitChar_sub hc]
    · have htdigits : Digits t := fun d hd => hdigits d (List.mem_append_left _ hd)
      have hhead : t.head? ≠ some '0' := by
        intro heq
        have hall := hzero (by rw [List.head?_append_of_ne_nil _ ht, heq])
        have hlength := congrArg List.length hall
        simp only [List.length_append, List.length_singleton] at hlength
        exact ht (List.length_eq_zero_iff.mp (by omega))
      have hpos := value_pos htdigits ht hhead
      rw [← Nat.toDigits_append_toDigits (by decide) hpos (by omega),
        ih ht htdigits fun heq => absurd heq hhead, Nat.toDigits_of_lt_base (by omega),
        digitChar_sub hc]

lemma value_toDigits (n : ℕ) : value (Nat.toDigits 10 n) = n := Nat.ofDigitChars_ten_toDigits

/-! ### Comparison digit by digit -/

/-- The string first differs from the digits by a smaller one. -/
def Below (digits s : List Char) : Prop :=
  ∃ index c, digits[index]? = some c ∧ ∃ d rest, s = digits.take index ++ d :: rest ∧
    48 ≤ d.toNat ∧ d.toNat < c.toNat ∧ rest.length = digits.length - index - 1 ∧ Digits rest

lemma below_cons {c : Char} {digits s : List Char} : Below (c :: digits) s ↔
    (∃ d rest, s = d :: rest ∧ 48 ≤ d.toNat ∧ d.toNat < c.toNat ∧ rest.length = digits.length ∧
      Digits rest) ∨ ∃ rest, s = c :: rest ∧ Below digits rest := by
  constructor
  · rintro ⟨index, e, he, d, rest, rfl, hd⟩
    cases index with
    | zero =>
      simp only [List.getElem?_cons_zero, Option.some.injEq] at he
      subst he
      left
      exact ⟨d, rest, rfl, hd⟩
    | succ index =>
      right
      refine ⟨_, rfl, index, e, by simpa using he, d, rest, rfl, hd.1, hd.2.1, ?_, hd.2.2.2⟩
      rw [hd.2.2.1, List.length_cons]
      omega
  · rintro (⟨d, rest, rfl, hd⟩ | ⟨rest, rfl, index, e, he, d, rest', rfl, hd⟩)
    · exact ⟨0, c, rfl, d, rest, rfl, hd⟩
    · refine ⟨index + 1, e, by simpa using he, d, rest', rfl, hd.1, hd.2.1, ?_, hd.2.2.2⟩
      rw [hd.2.2.1, List.length_cons]
      omega

lemma below_iff {digits s : List Char} (h : Digits digits) :
    Below digits s ↔ s.length = digits.length ∧ Digits s ∧ value s < value digits := by
  induction digits generalizing s with
  | nil =>
    constructor
    · rintro ⟨index, c, hc, _⟩
      cases hc
    · rintro ⟨_, _, hlt⟩
      simp [value] at hlt
  | cons c digits ih =>
    have hc := h c List.mem_cons_self
    have hdigits : Digits digits := fun d hd => h d (List.mem_cons_of_mem _ hd)
    have hvalue := value_lt hdigits
    rw [below_cons]
    constructor
    · rintro (⟨d, rest, rfl, hlow, hlt, hlength, hrest⟩ | ⟨rest, rfl, hbelow⟩)
      · refine ⟨by simp [hlength], ?_, ?_⟩
        · intro e he
          rcases List.mem_cons.mp he with rfl | he
          · exact ⟨hlow, by omega⟩
          · exact hrest e he
        · have hrestvalue := value_lt hrest
          rw [value_cons, value_cons, hlength]
          rw [hlength] at hrestvalue
          have hmul : 10 ^ digits.length * (d.toNat - 48) + 10 ^ digits.length ≤
              10 ^ digits.length * (c.toNat - 48) := by
            rw [← Nat.mul_succ]
            exact Nat.mul_le_mul_left _ (by omega)
          omega
      · obtain ⟨hlength, hrest, hlt⟩ := (ih hdigits).mp hbelow
        refine ⟨by simp [hlength], ?_, ?_⟩
        · intro e he
          rcases List.mem_cons.mp he with rfl | he
          · exact hc
          · exact hrest e he
        · rw [value_cons, value_cons, hlength]
          omega
    · rintro ⟨hlength, hs, hlt⟩
      cases s with
      | nil => cases hlength
      | cons d rest =>
        have hd := hs d List.mem_cons_self
        have hrest : Digits rest := fun e he => hs e (List.mem_cons_of_mem _ he)
        have hrestlength : rest.length = digits.length := by simpa using hlength
        rw [value_cons, value_cons, hrestlength] at hlt
        rcases lt_trichotomy d.toNat c.toNat with hdc | hdc | hdc
        · exact Or.inl ⟨d, rest, rfl, hd.1, hdc, hrestlength, hrest⟩
        · right
          obtain rfl := Char.toNat_inj.mp hdc
          refine ⟨rest, rfl, (ih hdigits).mpr ⟨hrestlength, hrest, by omega⟩⟩
        · have hmul : 10 ^ digits.length * (c.toNat - 48) + 10 ^ digits.length ≤
              10 ^ digits.length * (d.toNat - 48) := by
            rw [← Nat.mul_succ]
            exact Nat.mul_le_mul_left _ (by omega)
          omega

/-! ### The patterns -/

lemma matches_digitRange {low high : ℕ} (hlow : low < 10) (hhigh : high < 10) {s : List Char} :
    (digitRange low high).Matches s ↔
      ∃ c, s = [c] ∧ 48 + low ≤ c.toNat ∧ c.toNat ≤ 48 + high := by
  rw [digitRange, Pattern.matches_oneOf]
  simp only [Pattern.inRanges, List.mem_singleton, exists_eq_left,
    Nat.toNat_digitChar_of_lt_ten hlow, Nat.toNat_digitChar_of_lt_ten hhigh]
  constructor
  · rintro ⟨c, hc, rfl⟩
    exact ⟨c, rfl, hc⟩
  · rintro ⟨c, rfl, hc⟩
    exact ⟨c, hc, rfl⟩

lemma matches_digits {low high : ℕ} {s : List Char} :
    (Pattern.repeated anyDigit low high).Matches s ↔
      low ≤ s.length ∧ s.length ≤ high ∧ Digits s := by
  rw [anyDigit, digitRange, Pattern.matches_repeated_oneOf]
  simp [Pattern.inRanges, Digits, Nat.digitChar]

lemma matches_exactDigits {count : ℕ} {s : List Char} :
    (Pattern.exactly anyDigit count).Matches s ↔ s.length = count ∧ Digits s := by
  rw [anyDigit, digitRange, Pattern.matches_exactly_oneOf]
  simp [Pattern.inRanges, Digits, Nat.digitChar]

lemma matches_remaining {remaining : ℕ} {s : List Char} :
    (remainingDigits remaining).Matches s ↔ s.length = remaining ∧ Digits s := by
  unfold remainingDigits
  split_ifs with hzero
  · rw [Pattern.matches_literal, hzero, List.length_eq_zero_iff]
    constructor
    · rintro rfl
      simp [Digits]
    · exact fun h => h.1
  · exact matches_exactDigits

/-- The least digit that may stand here. -/
def minimumDigit (index : ℕ) : ℕ := if index = 0 then 1 else 0

lemma matches_smallerAt {digits s : List Char} {index : ℕ} {c : Char}
    (hc : 48 ≤ c.toNat ∧ c.toNat ≤ 57) :
    (∃ p, smallerAt digits index c = some p ∧ p.Matches s) ↔
      ∃ d rest, s = digits.take index ++ d :: rest ∧ 48 + minimumDigit index ≤ d.toNat ∧
        d.toNat < c.toNat ∧ rest.length = digits.length - index - 1 ∧ Digits rest := by
  have hminimum : ((if index = 0 then 1 else 0 : ℤ)) = (minimumDigit index : ℤ) := by
    unfold minimumDigit
    split_ifs <;> rfl
  have hsmall : minimumDigit index < 10 := by
    unfold minimumDigit
    split_ifs <;> decide
  simp only [smallerAt, hminimum]
  split_ifs with hskip heq
  · simp only [reduceCtorEq, false_and, exists_false, false_iff]
    rintro ⟨d, rest, _, hlow, hlt, _⟩
    omega
  · simp only [Option.some.injEq, exists_eq_left', Pattern.matches_seq, Pattern.matches_literal,
      matches_remaining]
    constructor
    · rintro ⟨_, _, rfl, ⟨_, rest, rfl, hrest, rfl⟩, rfl⟩
      refine ⟨_, rest, rfl, ?_, ?_, hrest⟩
      · rw [Nat.toNat_digitChar_of_lt_ten (by omega)]
        omega
      · rw [Nat.toNat_digitChar_of_lt_ten (by omega)]
        omega
    · rintro ⟨d, rest, rfl, hlow, hlt, hrest⟩
      refine ⟨_, _, rfl, ⟨_, rest, rfl, hrest, rfl⟩, ?_⟩
      have hd : Nat.digitChar ((c.toNat : ℤ) - 48 - 1).toNat = d := by
        rw [← digitChar_sub (c := d) (by omega)]
        congr 1
        omega
      rw [hd]
      rfl
  · simp only [Option.some.injEq, exists_eq_left', Pattern.matches_seq, Pattern.matches_literal,
      matches_remaining]
    simp only [Int.toNat_natCast, matches_digitRange hsmall (by omega : ((c.toNat : ℤ) - 48 - 1).toNat < 10)]
    constructor
    · rintro ⟨_, _, rfl, ⟨_, rest, ⟨d, rfl, hlow, hhigh⟩, hrest, rfl⟩, rfl⟩
      exact ⟨d, rest, rfl, hlow, by omega, hrest⟩
    · rintro ⟨d, rest, rfl, hlow, hlt, hrest⟩
      exact ⟨_, _, rfl, ⟨_, rest, ⟨d, rfl, hlow, by omega⟩, hrest, rfl⟩, rfl⟩

lemma matches_magnitude_cases {maximum : ℕ} {s : List Char} :
    (magnitudePattern maximum).Matches s ↔
      s = ['0'] ∨
      (∃ c rest, s = c :: rest ∧ 49 ≤ c.toNat ∧ c.toNat ≤ 57 ∧
        rest.length ≤ (Nat.toDigits 10 maximum).length - 2 ∧ Digits rest) ∨
      (∃ c index, (Nat.toDigits 10 maximum)[index]? = some c ∧
        ∃ p, smallerAt (Nat.toDigits 10 maximum) index c = some p ∧ p.Matches s) ∨
      s = Nat.toDigits 10 maximum := by
  simp only [magnitudePattern, Pattern.matches_group, Pattern.matches_any, List.mem_cons,
    List.mem_append, List.mem_filterMap, List.not_mem_nil, or_false]
  constructor
  · rintro ⟨p, rfl | (rfl | ⟨⟨c, index⟩, hmem, hp⟩) | rfl, hs⟩
    · exact Or.inl hs
    · right; left
      rw [Pattern.matches_seq] at hs
      obtain ⟨a, rest, ha, hrest, rfl⟩ := hs
      obtain ⟨c, rfl, hlow, hhigh⟩ := (matches_digitRange (by decide) (by decide)).mp ha
      obtain ⟨_, hlength, hdigits⟩ := matches_digits.mp hrest
      exact ⟨c, rest, rfl, hlow, hhigh, hlength, hdigits⟩
    · right; right; left
      exact ⟨c, index, List.mem_zipIdx_iff_getElem?.mp hmem, p, hp, hs⟩
    · exact Or.inr (Or.inr (Or.inr hs))
  · rintro (rfl | ⟨c, rest, rfl, hlow, hhigh, hlength, hdigits⟩ | ⟨c, index, hc, p, hp, hs⟩ | rfl)
    · exact ⟨_, Or.inl rfl, rfl⟩
    · refine ⟨_, Or.inr (Or.inl (Or.inl rfl)), ?_⟩
      rw [Pattern.matches_seq]
      exact ⟨[c], rest, (matches_digitRange (by decide) (by decide)).mpr ⟨c, rfl, hlow, hhigh⟩,
        matches_digits.mpr ⟨Nat.zero_le _, hlength, hdigits⟩, rfl⟩
    · exact ⟨p, Or.inr (Or.inl (Or.inr ⟨(c, index), List.mem_zipIdx_iff_getElem?.mpr hc, hp⟩)), hs⟩
    · exact ⟨_, Or.inr (Or.inr rfl), rfl⟩

lemma length_toDigits_le {maximum n : ℕ} (h : n ≤ maximum) :
    (Nat.toDigits 10 n).length ≤ (Nat.toDigits 10 maximum).length := by
  rw [Nat.length_toDigits_le_iff (by decide) Nat.length_toDigits_pos]
  have hmaximum : maximum < 10 ^ (Nat.toDigits 10 maximum).length :=
    (Nat.length_toDigits_le_iff (by decide) Nat.length_toDigits_pos).mp le_rfl
  omega

/-- A string of fewer digits denotes less. -/
lemma value_lt_of_shorter {maximum : ℕ} {s : List Char} (h : Digits s) (hne : s ≠ [])
    (hlength : s.length < (Nat.toDigits 10 maximum).length) : value s < maximum := by
  have hpos := List.length_pos_iff.mpr hne
  have hnot : ¬(Nat.toDigits 10 maximum).length ≤ s.length := by omega
  rw [Nat.length_toDigits_le_iff (by decide) hpos] at hnot
  have hvalue := value_lt h
  omega

/-- The digits are bounded by the first one at the first place, by nothing elsewhere. -/
lemma plain_of_smallerAt {maximum index : ℕ} {s rest : List Char} {d : Char}
    (hs : s = (Nat.toDigits 10 maximum).take index ++ d :: rest) (hbelow : Digits s)
    (hlow : 48 + minimumDigit index ≤ d.toNat) (hmaximum : 0 < maximum) : Plain s := by
  refine ⟨by simp [hs], hbelow, ?_⟩
  intro hhead
  cases index with
  | zero =>
    rw [hs] at hhead
    simp only [List.take_zero, List.nil_append, List.head?_cons, Option.some.injEq] at hhead
    rw [hhead] at hlow
    exact absurd hlow (by decide)
  | succ index =>
    have hfirst := head_toDigits hmaximum
    cases hdigits : Nat.toDigits 10 maximum with
    | nil => exact absurd hdigits Nat.toDigits_ne_nil
    | cons c digits =>
      rw [hdigits] at hs hfirst
      rw [hs] at hhead
      exact absurd hhead hfirst

/-- A magnitude pattern matches exactly the numbers up to its maximum as they are written. -/
theorem magnitudePattern_iff {maximum : ℕ} (h : 10 ≤ maximum) (s : List Char) :
    (magnitudePattern maximum).Matches s ↔ ∃ n, n ≤ maximum ∧ s = Nat.toDigits 10 n := by
  have hdigits := toDigits_digits maximum
  have hmaximum := value_toDigits maximum
  have htwo : 2 ≤ (Nat.toDigits 10 maximum).length := by
    by_contra hone
    have hsmall : maximum < 10 ^ 1 :=
      (Nat.length_toDigits_le_iff (by decide) (by decide)).mp (by omega)
    omega
  rw [matches_magnitude_cases]
  constructor
  · rintro (rfl | ⟨c, rest, rfl, hlow, hhigh, hlength, hrest⟩ | ⟨c, index, hc, p, hp, hs⟩ | rfl)
    · exact ⟨0, Nat.zero_le _, rfl⟩
    · have hall : Digits (c :: rest) := by
        intro d hd
        rcases List.mem_cons.mp hd with rfl | hd
        · exact ⟨by omega, hhigh⟩
        · exact hrest d hd
      have hplain : Plain (c :: rest) := by
        refine ⟨by simp, hall, ?_⟩
        intro hhead
        simp only [List.head?_cons, Option.some.injEq] at hhead
        rw [hhead] at hlow
        exact absurd hlow (by decide)
      refine ⟨value (c :: rest), ?_, (toDigits_value hplain).symm⟩
      have hlt : value (c :: rest) < maximum := by
        apply value_lt_of_shorter hall (by simp)
        rw [List.length_cons]
        omega
      omega
    · have hcdigit := hdigits c (List.mem_of_getElem? hc)
      obtain ⟨d, rest, heq, hlow, hlt, hlength, hrest⟩ :=
        (matches_smallerAt hcdigit).mp ⟨p, hp, hs⟩
      have hbelow : Below (Nat.toDigits 10 maximum) s :=
        ⟨index, c, hc, d, rest, heq, by omega, hlt, hlength, hrest⟩
      obtain ⟨_, hall, hvalue⟩ := (below_iff hdigits).mp hbelow
      have hplain := plain_of_smallerAt heq hall hlow (by omega)
      exact ⟨value s, by omega, (toDigits_value hplain).symm⟩
    · exact ⟨maximum, le_rfl, rfl⟩
  · rintro ⟨n, hn, rfl⟩
    have hall := toDigits_digits n
    have hvalue := value_toDigits n
    have hlength := length_toDigits_le hn
    rcases Nat.eq_zero_or_pos n with rfl | hpos
    · exact Or.inl rfl
    have hhead := head_toDigits hpos
    cases hs : Nat.toDigits 10 n with
    | nil => exact absurd hs Nat.toDigits_ne_nil
    | cons c rest =>
      rw [hs] at hall hvalue hlength hhead
      have hc := hall c List.mem_cons_self
      have hfirst : 49 ≤ c.toNat := by
        have hne : c.toNat ≠ 48 := by
          intro heq
          apply hhead
          rw [List.head?_cons, Char.toNat_inj.mp (heq.trans (by decide : (48 : ℕ) = '0'.toNat))]
        omega
      have hrest : Digits rest := fun d hd => hall d (List.mem_cons_of_mem _ hd)
      by_cases hshort : (c :: rest).length < (Nat.toDigits 10 maximum).length
      · right; left
        refine ⟨c, rest, rfl, hfirst, hc.2, ?_, hrest⟩
        rw [List.length_cons] at hshort
        omega
      · rcases Nat.eq_or_lt_of_le hn with rfl | hlt
        · exact Or.inr (Or.inr (Or.inr hs.symm))
        · right; right; left
          have hbelow : Below (Nat.toDigits 10 maximum) (c :: rest) :=
            (below_iff hdigits).mpr ⟨by omega, hall, by omega⟩
          obtain ⟨index, e, he, d, rest', heq, hd, hde, hlength', hrest'⟩ := hbelow
          refine ⟨e, index, he, (matches_smallerAt (hdigits e (List.mem_of_getElem? he))).mpr
            ⟨d, rest', heq, ?_, hde, hlength', hrest'⟩⟩
          unfold minimumDigit
          split_ifs with hindex
          · subst hindex
            rw [List.take_zero, List.nil_append] at heq
            obtain ⟨rfl, _⟩ := List.cons.inj heq
            omega
          · omega

/-- How a signed number is written. -/
def decimal (z : ℤ) : List Char :=
  if z < 0 then '-' :: Nat.toDigits 10 z.natAbs else Nat.toDigits 10 z.natAbs

/-- The pattern of signed 64-bit numbers matches them as they are written, and `-0`. -/
theorem decimalInt64_iff (s : List Char) : DECIMAL_INT64_PATTERN.Matches s ↔
    (∃ z, INT64_MIN ≤ z ∧ z ≤ INT64_MAX ∧ s = decimal z) ∨ s = ['-', '0'] := by
  simp only [DECIMAL_INT64_PATTERN, Pattern.matches_group, Pattern.matches_alt, Pattern.matches_seq,
    Pattern.matches_literal, magnitudePattern_iff (by decide : 10 ≤ INT64_MAX.toNat),
    magnitudePattern_iff (by decide : 10 ≤ (-INT64_MIN).toNat)]
  constructor
  · rintro (⟨n, hn, rfl⟩ | ⟨_, _, rfl, ⟨n, hn, rfl⟩, rfl⟩)
    · left
      refine ⟨n, ?_, ?_, ?_⟩
      · unfold INT64_MIN
        omega
      · unfold INT64_MAX at *
        omega
      · rw [decimal, if_neg (by omega), Int.natAbs_natCast]
    · rcases Nat.eq_zero_or_pos n with rfl | hpos
      · exact Or.inr rfl
      · left
        refine ⟨-n, ?_, ?_, ?_⟩
        · unfold INT64_MIN at *
          omega
        · unfold INT64_MAX
          omega
        · rw [decimal, if_pos (by omega), Int.natAbs_neg, Int.natAbs_natCast]
          rfl
  · rintro (⟨z, hmin, hmax, rfl⟩ | rfl)
    · unfold decimal
      split_ifs with hz
      · right
        refine ⟨_, _, rfl, ⟨z.natAbs, ?_, rfl⟩, rfl⟩
        unfold INT64_MIN at *
        omega
      · left
        refine ⟨z.natAbs, ?_, rfl⟩
        unfold INT64_MAX at *
        omega
    · exact Or.inr ⟨_, _, rfl, ⟨0, Nat.zero_le _, rfl⟩, rfl⟩

end Maple.Eventing
