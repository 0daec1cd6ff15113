import Maple.Timestamp

/-! The timestamps the schema's pattern matches, by their fields. -/

namespace Maple.Eventing
open RegexPattern

/-! ### Fields -/

/-- A number below 100 in two digits. -/
def pad2 (n : ℕ) : List Char := [Nat.digitChar (n / 10), Nat.digitChar (n % 10)]

def pad4 (n : ℕ) : List Char := pad2 (n / 100) ++ pad2 (n % 100)

lemma pad2_digits {a b : ℕ} (hb : b < 10) :
    pad2 (10 * a + b) = [Nat.digitChar a, Nat.digitChar b] := by
  have hdiv : (10 * a + b) / 10 = a := by omega
  have hmod : (10 * a + b) % 10 = b := by omega
  rw [pad2, hdiv, hmod]

lemma pad4_pads {a b : ℕ} (hb : b < 100) : pad4 (100 * a + b) = pad2 a ++ pad2 b := by
  have hdiv : (100 * a + b) / 100 = a := by omega
  have hmod : (100 * a + b) % 100 = b := by omega
  rw [pad4, hdiv, hmod]

lemma digits_pad2 {n : ℕ} (h : n < 100) : Digits (pad2 n) := by
  intro c hc
  simp only [pad2, List.mem_cons, List.not_mem_nil, or_false] at hc
  rcases hc with rfl | rfl
  · rw [Nat.toNat_digitChar_of_lt_ten (by omega)]
    omega
  · rw [Nat.toNat_digitChar_of_lt_ten (by omega)]
    omega

lemma value_pad2 {n : ℕ} (h : n < 100) : value (pad2 n) = n := by
  rw [pad2, value_cons, value_cons, Nat.toNat_digitChar_of_lt_ten (by omega),
    Nat.toNat_digitChar_of_lt_ten (by omega)]
  simp [value]
  omega

lemma value_append {s t : List Char} : value (s ++ t) = 10 ^ t.length * value s + value t := by
  rw [value, Nat.ofDigitChars_append, Nat.ofDigitChars_eq_ofDigitChars_zero]
  rfl

lemma value_pad4 {n : ℕ} (h : n < 10000) : value (pad4 n) = n := by
  rw [pad4, value_append, value_pad2 (by omega), value_pad2 (by omega)]
  simp only [pad2, List.length_cons, List.length_nil]
  omega

lemma digits_pad4 {n : ℕ} (h : n < 10000) : Digits (pad4 n) := by
  intro c hc
  rcases List.mem_append.mp hc with hc | hc
  · exact digits_pad2 (by omega) c hc
  · exact digits_pad2 (by omega) c hc

/-- Two digits are a number below 100. -/
lemma exists_pad2 {s : List Char} (hlength : s.length = 2) (hs : Digits s) :
    ∃ n < 100, s = pad2 n := by
  obtain ⟨c, d, rfl⟩ := List.length_eq_two.mp hlength
  have hc := hs c (by simp)
  have hd := hs d (by simp)
  refine ⟨10 * (c.toNat - 48) + (d.toNat - 48), by omega, ?_⟩
  rw [pad2_digits (by omega), digitChar_sub hc, digitChar_sub hd]

lemma exists_pad4 {s : List Char} (hlength : s.length = 4) (hs : Digits s) :
    ∃ n < 10000, s = pad4 n := by
  have hfront : Digits (s.take 2) := fun c hc => hs c (List.mem_of_mem_take hc)
  have hback : Digits (s.drop 2) := fun c hc => hs c (List.mem_of_mem_drop hc)
  obtain ⟨a, ha, hfronteq⟩ := exists_pad2 (by simp [hlength]) hfront
  obtain ⟨b, hb, hbackeq⟩ := exists_pad2 (by simp [hlength]) hback
  refine ⟨100 * a + b, by omega, ?_⟩
  rw [pad4_pads hb, ← hfronteq, ← hbackeq, List.take_append_drop]

/-- A timestamp's fields; no zone is UTC. -/
structure Stamp where
  year : ℕ
  month : ℕ
  day : ℕ
  hour : ℕ
  minute : ℕ
  second : ℕ
  fraction : List Char
  zone : Option (Bool × ℕ × ℕ)

namespace Stamp

def fractionText (fraction : List Char) : List Char :=
  if fraction = [] then [] else '.' :: fraction

def zoneText : Option (Bool × ℕ × ℕ) → List Char
  | none => ['Z']
  | some (negative, hours, minutes) =>
    (if negative then '-' else '+') :: (pad2 hours ++ ':' :: pad2 minutes)

/-- How the fields are written. -/
def text (stamp : Stamp) : List Char :=
  pad4 stamp.year ++ '-' :: (pad2 stamp.month ++ '-' :: (pad2 stamp.day ++ 'T' ::
    (pad2 stamp.hour ++ ':' :: (pad2 stamp.minute ++ ':' :: (pad2 stamp.second ++
      (fractionText stamp.fraction ++ zoneText stamp.zone))))))

def ZoneBelow (hours minutes : ℕ) : Option (Bool × ℕ × ℕ) → Prop
  | none => True
  | some (_, h, m) => h < hours ∧ m < minutes

/-- The fields have as many digits as they are written in. -/
structure Shaped (stamp : Stamp) : Prop where
  year : stamp.year < 10000
  month : stamp.month < 100
  day : stamp.day < 100
  hour : stamp.hour < 100
  minute : stamp.minute < 100
  second : stamp.second < 100
  fraction : Digits stamp.fraction ∧ stamp.fraction.length ≤ 9
  zone : ZoneBelow 100 100 stamp.zone

/-- The fields are those of an instant. -/
structure Valid (stamp : Stamp) : Prop where
  year : stamp.year < 10000
  month : 1 ≤ stamp.month ∧ stamp.month ≤ 12
  day : 1 ≤ stamp.day ∧ stamp.day ≤ daysInMonth stamp.year stamp.month
  hour : stamp.hour < 24
  minute : stamp.minute < 60
  second : stamp.second < 60
  fraction : Digits stamp.fraction ∧ stamp.fraction.length ≤ 9
  zone : ZoneBelow 24 60 stamp.zone

end Stamp

/-! ### The pattern -/

lemma matches_digitsOf {members : List ℕ} (hmembers : ∀ d ∈ members, d < 10) {s : List Char} :
    (digitsOf members).Matches s ↔ ∃ d ∈ members, s = [Nat.digitChar d] := by
  rw [digitsOf, Pattern.matches_oneOf]
  simp only [Pattern.inRanges, List.mem_map]
  constructor
  · rintro ⟨c, ⟨_, ⟨d, hd, rfl⟩, hlow, hhigh⟩, rfl⟩
    refine ⟨d, hd, ?_⟩
    rw [Char.toNat_inj.mp (le_antisymm hhigh hlow)]
  · rintro ⟨d, hd, rfl⟩
    exact ⟨_, ⟨_, ⟨d, hd, rfl⟩, le_rfl, le_rfl⟩, rfl⟩

lemma matches_range {low high : ℕ} (hlow : low < 10) (hhigh : high < 10) {s : List Char} :
    (digitRange low high).Matches s ↔ ∃ d, low ≤ d ∧ d ≤ high ∧ s = [Nat.digitChar d] := by
  rw [matches_digitRange hlow hhigh]
  constructor
  · rintro ⟨c, rfl, hclow, hchigh⟩
    exact ⟨c.toNat - 48, by omega, by omega, by rw [digitChar_sub (by omega)]⟩
  · rintro ⟨d, hdlow, hdhigh, rfl⟩
    refine ⟨_, rfl, ?_⟩
    rw [Nat.toNat_digitChar_of_lt_ten (by omega)]
    omega

/-- The pattern matches one digit of this kind. -/
def OneDigit (p : Pattern) (P : ℕ → Prop) : Prop :=
  ∀ s, p.Matches s ↔ ∃ d, P d ∧ s = [Nat.digitChar d]

/-- The pattern matches the two digits of a number of this kind. -/
def TwoDigits (p : Pattern) (P : ℕ → Prop) : Prop := ∀ s, p.Matches s ↔ ∃ n, P n ∧ s = pad2 n

section
variable {p q : Pattern} {P Q : ℕ → Prop}

lemma oneDigit_range {low high : ℕ} (hlow : low < 10) (hhigh : high < 10) :
    OneDigit (digitRange low high) fun d => low ≤ d ∧ d ≤ high := by
  intro s
  rw [matches_range hlow hhigh]
  constructor
  · rintro ⟨d, hdlow, hdhigh, rfl⟩
    exact ⟨d, ⟨hdlow, hdhigh⟩, rfl⟩
  · rintro ⟨d, ⟨hdlow, hdhigh⟩, rfl⟩
    exact ⟨d, hdlow, hdhigh, rfl⟩

lemma oneDigit_of {members : List ℕ} (hmembers : ∀ d ∈ members, d < 10) :
    OneDigit (digitsOf members) (· ∈ members) := fun _ => matches_digitsOf hmembers

lemma oneDigit_literal (d : ℕ) : OneDigit (.literal [Nat.digitChar d]) (· = d) := by
  intro s
  simp

/-- Two one-digit patterns in a row. -/
lemma OneDigit.seq (hp : OneDigit p P) (hq : OneDigit q Q) (hQ : ∀ b, Q b → b < 10) :
    TwoDigits (.seq p q) fun n => P (n / 10) ∧ Q (n % 10) := by
  intro s
  rw [Pattern.matches_seq]
  constructor
  · rintro ⟨_, _, hfirst, hsecond, rfl⟩
    obtain ⟨a, ha, rfl⟩ := (hp _).mp hfirst
    obtain ⟨b, hb, rfl⟩ := (hq _).mp hsecond
    have hsmall := hQ b hb
    have hdiv : (10 * a + b) / 10 = a := by omega
    have hmod : (10 * a + b) % 10 = b := by omega
    refine ⟨10 * a + b, ⟨?_, ?_⟩, ?_⟩
    · rwa [hdiv]
    · rwa [hmod]
    · rw [pad2_digits hsmall]
      rfl
  · rintro ⟨n, ⟨ha, hb⟩, rfl⟩
    exact ⟨_, _, (hp _).mpr ⟨_, ha, rfl⟩, (hq _).mpr ⟨_, hb, rfl⟩, rfl⟩

lemma TwoDigits.alt (hp : TwoDigits p P) (hq : TwoDigits q Q) :
    TwoDigits (.alt p q) fun n => P n ∨ Q n := by
  intro s
  rw [Pattern.matches_alt, hp, hq]
  constructor
  · rintro (⟨n, hn, rfl⟩ | ⟨n, hn, rfl⟩)
    · exact ⟨n, Or.inl hn, rfl⟩
    · exact ⟨n, Or.inr hn, rfl⟩
  · rintro ⟨n, hn | hn, rfl⟩
    · exact Or.inl ⟨n, hn, rfl⟩
    · exact Or.inr ⟨n, hn, rfl⟩

lemma twoDigits_literal (n : ℕ) : TwoDigits (.literal (pad2 n)) (· = n) := by
  intro s
  simp

lemma TwoDigits.group (h : TwoDigits p P) : TwoDigits (.group p) P := h

lemma TwoDigits.congr (h : TwoDigits p P) (hPQ : ∀ n, P n ↔ Q n) : TwoDigits p Q := by
  intro s
  rw [h]
  simp only [hPQ]

lemma twoDigits_any : TwoDigits (.exactly anyDigit 2) (· < 100) := by
  intro s
  rw [matches_exactDigits]
  constructor
  · rintro ⟨hlength, hs⟩
    exact exists_pad2 hlength hs
  · rintro ⟨n, hn, rfl⟩
    exact ⟨rfl, digits_pad2 hn⟩

end

lemma twoDigits_hour : TwoDigits hourPattern (· < 24) := by
  have hearly := (oneDigit_of (by decide : ∀ d ∈ [0, 1], d < 10)).seq
    (oneDigit_range (by decide : 0 < 10) (by decide : 9 < 10)) fun b hb => by omega
  have hlate := (oneDigit_literal 2).seq
    (oneDigit_range (by decide : 0 < 10) (by decide : 3 < 10)) fun b hb => by omega
  apply (hearly.alt hlate).group.congr
  intro n
  simp only [List.mem_cons, List.not_mem_nil, or_false]
  omega

lemma twoDigits_minuteOrSecond : TwoDigits minuteOrSecond (· < 60) := by
  have hpair := (oneDigit_range (by decide : 0 < 10) (by decide : 5 < 10)).seq
    (oneDigit_range (by decide : 0 < 10) (by decide : 9 < 10)) fun b hb => by omega
  apply hpair.congr
  intro n
  omega

lemma twoDigits_firstDays : TwoDigits firstDays fun n => 1 ≤ n ∧ n ≤ 9 := by
  have hpair := (oneDigit_literal 0).seq
    (oneDigit_range (by decide : 1 < 10) (by decide : 9 < 10)) fun b hb => by omega
  apply hpair.congr
  intro n
  omega

lemma twoDigits_middleDays :
    TwoDigits (.seq (digitsOf [1, 2]) anyDigit) fun n => 10 ≤ n ∧ n ≤ 29 := by
  have hpair := (oneDigit_of (by decide : ∀ d ∈ [1, 2], d < 10)).seq
    (oneDigit_range (by decide : 0 < 10) (by decide : 9 < 10)) fun b hb => by omega
  apply hpair.congr
  intro n
  simp only [List.mem_cons, List.not_mem_nil, or_false]
  omega

lemma twoDigits_longDays : TwoDigits (.group (.any firstDays
    [.seq (digitsOf [1, 2]) anyDigit, .seq (.literal ['3']) (digitsOf [0, 1])]))
    fun n => 1 ≤ n ∧ n ≤ 31 := by
  have hlast := (oneDigit_literal 3).seq (oneDigit_of (by decide : ∀ d ∈ [0, 1], d < 10))
    fun b hb => by simp at hb; omega
  apply (twoDigits_firstDays.alt (twoDigits_middleDays.alt hlast)).group.congr
  intro n
  simp only [List.mem_cons, List.not_mem_nil, or_false]
  omega

lemma twoDigits_shortDays : TwoDigits (.group (.any firstDays
    [.seq (digitsOf [1, 2]) anyDigit, .literal ['3', '0']])) fun n => 1 ≤ n ∧ n ≤ 30 := by
  apply (twoDigits_firstDays.alt (twoDigits_middleDays.alt (twoDigits_literal 30))).group.congr
  intro n
  omega

lemma twoDigits_februaryDays : TwoDigits (.group (.any firstDays
    [.seq (.literal ['1']) anyDigit, .seq (.literal ['2']) (digitRange 0 8)]))
    fun n => 1 ≤ n ∧ n ≤ 28 := by
  have hteens := (oneDigit_literal 1).seq
    (oneDigit_range (by decide : 0 < 10) (by decide : 9 < 10)) fun b hb => by omega
  have htwenties := (oneDigit_literal 2).seq
    (oneDigit_range (by decide : 0 < 10) (by decide : 8 < 10)) fun b hb => by omega
  apply (twoDigits_firstDays.alt (hteens.alt htwenties)).group.congr
  intro n
  omega

lemma twoDigits_longMonth : TwoDigits longMonth (· ∈ [1, 3, 5, 7, 8, 10, 12]) := by
  have hmonths := (twoDigits_literal 1).alt ((twoDigits_literal 3).alt ((twoDigits_literal 5).alt
    ((twoDigits_literal 7).alt ((twoDigits_literal 8).alt ((twoDigits_literal 10).alt
      (twoDigits_literal 12))))))
  apply hmonths.group.congr
  intro n
  simp

lemma twoDigits_shortMonth : TwoDigits shortMonth (· ∈ [4, 6, 9, 11]) := by
  have hmonths := (twoDigits_literal 4).alt ((twoDigits_literal 6).alt ((twoDigits_literal 9).alt
    (twoDigits_literal 11)))
  apply hmonths.group.congr
  intro n
  simp

/-- The pattern matches the month and the day of a date of this kind. -/
def MonthDay (p : Pattern) (P : ℕ → ℕ → Prop) : Prop :=
  ∀ s, p.Matches s ↔ ∃ m d, P m d ∧ s = pad2 m ++ '-' :: pad2 d

lemma TwoDigits.monthDay {p q : Pattern} {P Q : ℕ → Prop} (hp : TwoDigits p P)
    (hq : TwoDigits q Q) : MonthDay (.seq p (.seq (.literal ['-']) q)) fun m d => P m ∧ Q d := by
  intro s
  simp only [Pattern.matches_seq, Pattern.matches_literal]
  constructor
  · rintro ⟨_, _, hmonth, ⟨_, _, rfl, hday, rfl⟩, rfl⟩
    obtain ⟨m, hm, rfl⟩ := (hp _).mp hmonth
    obtain ⟨d, hd, rfl⟩ := (hq _).mp hday
    exact ⟨m, d, ⟨hm, hd⟩, rfl⟩
  · rintro ⟨m, d, ⟨hm, hd⟩, rfl⟩
    exact ⟨_, _, (hp _).mpr ⟨m, hm, rfl⟩, ⟨_, _, rfl, (hq _).mpr ⟨d, hd, rfl⟩, rfl⟩, rfl⟩

lemma monthDay_february {p : Pattern} {P : ℕ → Prop} (hp : TwoDigits p P) :
    MonthDay (.seq (.literal ['0', '2', '-']) p) fun m d => m = 2 ∧ P d := by
  intro s
  simp only [Pattern.matches_seq, Pattern.matches_literal]
  constructor
  · rintro ⟨_, _, rfl, hday, rfl⟩
    obtain ⟨d, hd, rfl⟩ := (hp _).mp hday
    exact ⟨2, d, ⟨rfl, hd⟩, rfl⟩
  · rintro ⟨m, d, ⟨rfl, hd⟩, rfl⟩
    exact ⟨_, _, rfl, (hp _).mpr ⟨d, hd, rfl⟩, rfl⟩

lemma MonthDay.alt {p q : Pattern} {P Q : ℕ → ℕ → Prop} (hp : MonthDay p P) (hq : MonthDay q Q) :
    MonthDay (.alt p q) fun m d => P m d ∨ Q m d := by
  intro s
  rw [Pattern.matches_alt, hp, hq]
  constructor
  · rintro (⟨m, d, h, rfl⟩ | ⟨m, d, h, rfl⟩)
    · exact ⟨m, d, Or.inl h, rfl⟩
    · exact ⟨m, d, Or.inr h, rfl⟩
  · rintro ⟨m, d, h | h, rfl⟩
    · exact Or.inl ⟨m, d, h, rfl⟩
    · exact Or.inr ⟨m, d, h, rfl⟩

/-- The days of any year. -/
def OrdinaryDay (month day : ℕ) : Prop :=
  (month ∈ [1, 3, 5, 7, 8, 10, 12] ∧ 1 ≤ day ∧ day ≤ 31) ∨
    (month ∈ [4, 6, 9, 11] ∧ 1 ≤ day ∧ day ≤ 30) ∨ month = 2 ∧ 1 ≤ day ∧ day ≤ 28

lemma matches_ordinaryDate {s : List Char} : ordinaryDate.Matches s ↔
    ∃ y m d, y < 10000 ∧ OrdinaryDay m d ∧ s = pad4 y ++ '-' :: (pad2 m ++ '-' :: pad2 d) := by
  have hdays := (twoDigits_longMonth.monthDay twoDigits_longDays).alt
    ((twoDigits_shortMonth.monthDay twoDigits_shortDays).alt
      (monthDay_february twoDigits_februaryDays))
  rw [ordinaryDate, Pattern.matches_seq]
  constructor
  · rintro ⟨_, _, hyear, hrest, rfl⟩
    obtain ⟨hlength, hdigits⟩ := matches_exactDigits.mp hyear
    obtain ⟨y, hy, rfl⟩ := exists_pad4 hlength hdigits
    rw [Pattern.matches_seq] at hrest
    obtain ⟨_, _, rfl, hmonthday, rfl⟩ := hrest
    obtain ⟨m, d, hmd, rfl⟩ := (hdays _).mp hmonthday
    exact ⟨y, m, d, hy, hmd, rfl⟩
  · rintro ⟨y, m, d, hy, hmd, rfl⟩
    refine ⟨_, _, matches_exactDigits.mpr ⟨rfl, digits_pad4 hy⟩, ?_, rfl⟩
    rw [Pattern.matches_seq]
    exact ⟨_, _, rfl, (hdays _).mpr ⟨m, d, hmd, rfl⟩, rfl⟩

lemma isLeapYear_iff {year : ℕ} : isLeapYear year = true ↔
    year % 4 = 0 ∧ (year % 100 ≠ 0 ∨ year % 400 = 0) := by
  simp [isLeapYear]

lemma matches_leapYear {s : List Char} :
    leapYear.Matches s ↔ ∃ y, y < 10000 ∧ isLeapYear y = true ∧ s = pad4 y := by
  have hodd := (oneDigit_of (by decide : ∀ d ∈ [1, 3, 5, 7, 9], d < 10)).seq
    (oneDigit_of (by decide : ∀ d ∈ [2, 6], d < 10)) fun b hb => by simp at hb; omega
  have hfirst := (oneDigit_literal 0).seq (oneDigit_of (by decide : ∀ d ∈ [4, 8], d < 10))
    fun b hb => by simp at hb; omega
  have heven := (oneDigit_of (by decide : ∀ d ∈ [2, 4, 6, 8], d < 10)).seq
    (oneDigit_of (by decide : ∀ d ∈ [0, 4, 8], d < 10)) fun b hb => by simp at hb; omega
  have hcentury := (oneDigit_of (by decide : ∀ d ∈ [0, 2, 4, 6, 8], d < 10)).seq
    (oneDigit_of (by decide : ∀ d ∈ [0, 4, 8], d < 10)) fun b hb => by simp at hb; omega
  have hyears := (hfirst.alt (heven.alt hodd)).group
  have hcenturies := (hcentury.alt hodd).group
  rw [leapYear, Pattern.matches_group, Pattern.matches_alt, Pattern.matches_seq,
    Pattern.matches_seq]
  constructor
  · rintro (⟨_, _, hfront, hback, rfl⟩ | ⟨_, _, hfront, hback, rfl⟩)
    · obtain ⟨a, ha, rfl⟩ := (twoDigits_any _).mp hfront
      obtain ⟨b, hb, rfl⟩ := (hyears _).mp hback
      simp only [List.mem_cons, List.not_mem_nil, or_false] at hb
      refine ⟨100 * a + b, by omega, isLeapYear_iff.mpr (by omega), ?_⟩
      rw [pad4_pads (by omega)]
    · obtain ⟨a, ha, rfl⟩ := (hcenturies _).mp hfront
      simp only [List.mem_cons, List.not_mem_nil, or_false] at ha
      rw [Pattern.matches_literal] at hback
      refine ⟨100 * a + 0, by omega, isLeapYear_iff.mpr (by omega), ?_⟩
      rw [pad4_pads (by omega), hback]
      rfl
  · rintro ⟨y, hy, hleap, rfl⟩
    rw [isLeapYear_iff] at hleap
    by_cases hzero : y % 100 = 0
    · right
      refine ⟨pad2 (y / 100), pad2 (y % 100), (hcenturies _).mpr ⟨y / 100, ?_, rfl⟩, ?_, rfl⟩
      · simp only [List.mem_cons, List.not_mem_nil, or_false]
        omega
      · rw [hzero]
        rfl
    · left
      refine ⟨pad2 (y / 100), pad2 (y % 100), (twoDigits_any _).mpr ⟨y / 100, by omega, rfl⟩,
        (hyears _).mpr ⟨y % 100, ?_, rfl⟩, rfl⟩
      simp only [List.mem_cons, List.not_mem_nil, or_false]
      omega

/-- The days of a year's months are the ordinary ones and the leap day. -/
lemma validDay_iff {y m d : ℕ} : 1 ≤ m ∧ m ≤ 12 ∧ 1 ≤ d ∧ d ≤ daysInMonth y m ↔
    OrdinaryDay m d ∨ isLeapYear y = true ∧ m = 2 ∧ d = 29 := by
  have hfebruary : daysInMonth y 2 = if isLeapYear y then 29 else 28 := rfl
  constructor
  · rintro ⟨hlow, hhigh, hd, hdays⟩
    unfold OrdinaryDay
    interval_cases m
    case «2» =>
      rw [hfebruary] at hdays
      split_ifs at hdays with hleap
      · simp only [hleap]
        simp
        omega
      · simp
        omega
    all_goals
      simp only [daysInMonth] at hdays
      simp
      omega
  · rintro ((⟨hm, hd⟩ | ⟨hm, hd⟩ | ⟨rfl, hd⟩) | ⟨hleap, rfl, rfl⟩)
    · simp only [List.mem_cons, List.not_mem_nil, or_false] at hm
      rcases hm with rfl | rfl | rfl | rfl | rfl | rfl | rfl <;> exact ⟨by decide, by decide, hd⟩
    · simp only [List.mem_cons, List.not_mem_nil, or_false] at hm
      rcases hm with rfl | rfl | rfl | rfl <;> exact ⟨by decide, by decide, hd⟩
    · rw [hfebruary]
      refine ⟨by decide, by decide, hd.1, ?_⟩
      split_ifs
      · omega
      · omega
    · rw [hfebruary, if_pos hleap]
      decide

lemma matches_date {s : List Char} :
    (Pattern.group (.alt ordinaryDate
      (.seq leapYear (.literal ['-', '0', '2', '-', '2', '9'])))).Matches s ↔
    ∃ y m d, y < 10000 ∧ (1 ≤ m ∧ m ≤ 12 ∧ 1 ≤ d ∧ d ≤ daysInMonth y m) ∧
      s = pad4 y ++ '-' :: (pad2 m ++ '-' :: pad2 d) := by
  rw [Pattern.matches_group, Pattern.matches_alt, matches_ordinaryDate, Pattern.matches_seq]
  constructor
  · rintro (⟨y, m, d, hy, hday, rfl⟩ | ⟨_, _, hyear, rfl, rfl⟩)
    · exact ⟨y, m, d, hy, validDay_iff.mpr (Or.inl hday), rfl⟩
    · obtain ⟨y, hy, hleap, rfl⟩ := matches_leapYear.mp hyear
      exact ⟨y, 2, 29, hy, validDay_iff.mpr (Or.inr ⟨hleap, rfl, rfl⟩), rfl⟩
  · rintro ⟨y, m, d, hy, hday, rfl⟩
    rcases validDay_iff.mp hday with hday | ⟨hleap, rfl, rfl⟩
    · exact Or.inl ⟨y, m, d, hy, hday, rfl⟩
    · exact Or.inr ⟨_, _, matches_leapYear.mpr ⟨y, hy, hleap, rfl⟩, rfl, rfl⟩

lemma matches_fraction {s : List Char} :
    (Pattern.optional (.group (.seq (.escaped '.') (.repeated anyDigit 1 9)))).Matches s ↔
      ∃ fraction, (Digits fraction ∧ fraction.length ≤ 9) ∧ s = Stamp.fractionText fraction := by
  rw [Pattern.matches_optional, Pattern.matches_group, Pattern.matches_seq]
  constructor
  · rintro (rfl | ⟨_, fraction, rfl, hfraction, rfl⟩)
    · exact ⟨[], ⟨by simp [Digits], by simp⟩, rfl⟩
    · obtain ⟨hlow, hhigh, hdigits⟩ := matches_digits.mp hfraction
      refine ⟨fraction, ⟨hdigits, hhigh⟩, ?_⟩
      rw [Stamp.fractionText, if_neg (List.length_pos_iff.mp hlow)]
      rfl
  · rintro ⟨fraction, ⟨hdigits, hlength⟩, rfl⟩
    unfold Stamp.fractionText
    split_ifs with hnil
    · exact Or.inl rfl
    · right
      exact ⟨_, fraction, rfl,
        matches_digits.mpr ⟨List.length_pos_iff.mpr hnil, hlength, hdigits⟩, rfl⟩

lemma matches_sign {s : List Char} :
    signPattern.Matches s ↔ ∃ negative : Bool, s = [if negative then '-' else '+'] := by
  rw [signPattern, Pattern.matches_oneOf]
  simp only [Pattern.inRanges, List.mem_cons, List.not_mem_nil, or_false, exists_eq_or_imp,
    exists_eq_left]
  constructor
  · rintro ⟨c, ⟨hlow, hhigh⟩ | ⟨hlow, hhigh⟩, rfl⟩
    · exact ⟨false, by rw [Char.toNat_inj.mp (le_antisymm hhigh hlow)]; rfl⟩
    · exact ⟨true, by rw [Char.toNat_inj.mp (le_antisymm hhigh hlow)]; rfl⟩
  · rintro ⟨_ | _, rfl⟩
    · exact ⟨_, Or.inl ⟨le_rfl, le_rfl⟩, rfl⟩
    · exact ⟨_, Or.inr ⟨le_rfl, le_rfl⟩, rfl⟩

lemma matches_zone {s : List Char} :
    (Pattern.group (.alt (.literal ['Z'])
      (.seq signPattern (.seq hourPattern (.seq (.literal [':']) minuteOrSecond))))).Matches s ↔
      ∃ zone, Stamp.ZoneBelow 24 60 zone ∧ s = Stamp.zoneText zone := by
  simp only [Pattern.matches_group, Pattern.matches_alt, Pattern.matches_literal,
    Pattern.matches_seq]
  constructor
  · rintro (rfl | ⟨_, _, hsign, ⟨_, _, hhour, ⟨_, _, rfl, hminute, rfl⟩, rfl⟩, rfl⟩)
    · exact ⟨none, trivial, rfl⟩
    · obtain ⟨negative, rfl⟩ := matches_sign.mp hsign
      obtain ⟨hours, hhours, rfl⟩ := (twoDigits_hour _).mp hhour
      obtain ⟨minutes, hminutes, rfl⟩ := (twoDigits_minuteOrSecond _).mp hminute
      exact ⟨some (negative, hours, minutes), ⟨hhours, hminutes⟩, rfl⟩
  · rintro ⟨_ | ⟨negative, hours, minutes⟩, hzone, rfl⟩
    · exact Or.inl rfl
    · right
      exact ⟨_, _, matches_sign.mpr ⟨negative, rfl⟩, ⟨_, _, (twoDigits_hour _).mpr ⟨hours, hzone.1, rfl⟩,
        ⟨_, _, rfl, (twoDigits_minuteOrSecond _).mpr ⟨minutes, hzone.2, rfl⟩, rfl⟩, rfl⟩, rfl⟩

/-- The pattern matches the valid timestamps as they are written. -/
theorem rfc3339_iff (s : List Char) :
    RFC3339_TIMESTAMP_PATTERN.Matches s ↔ ∃ stamp : Stamp, stamp.Valid ∧ s = stamp.text := by
  rw [RFC3339_TIMESTAMP_PATTERN, Pattern.matches_seq]
  constructor
  · rintro ⟨_, _, hdate, hrest, rfl⟩
    obtain ⟨y, m, d, hy, hday, rfl⟩ := matches_date.mp hdate
    simp only [Pattern.matches_seq (p := .literal _), Pattern.matches_literal,
      Pattern.matches_seq (p := hourPattern), Pattern.matches_seq (p := minuteOrSecond)] at hrest
    obtain ⟨_, _, rfl, ⟨_, _, hhour, ⟨_, _, rfl, ⟨_, _, hminute, ⟨_, _, rfl, ⟨_, _, hsecond,
      htail, rfl⟩, rfl⟩, rfl⟩, rfl⟩, rfl⟩, rfl⟩ := hrest
    obtain ⟨h, hh, rfl⟩ := (twoDigits_hour _).mp hhour
    obtain ⟨n, hn, rfl⟩ := (twoDigits_minuteOrSecond _).mp hminute
    obtain ⟨e, he, rfl⟩ := (twoDigits_minuteOrSecond _).mp hsecond
    rw [Pattern.matches_seq] at htail
    obtain ⟨_, _, hfraction, hzone, rfl⟩ := htail
    obtain ⟨fraction, hdigits, rfl⟩ := matches_fraction.mp hfraction
    obtain ⟨zone, hbelow, rfl⟩ := matches_zone.mp hzone
    refine ⟨⟨y, m, d, h, n, e, fraction, zone⟩, ⟨hy, ⟨hday.1, hday.2.1⟩, hday.2.2, hh, hn, he,
      hdigits, hbelow⟩, ?_⟩
    simp [Stamp.text]
  · rintro ⟨stamp, h, rfl⟩
    refine ⟨_, 'T' :: (pad2 stamp.hour ++ ':' :: (pad2 stamp.minute ++ ':' :: (pad2 stamp.second ++
      (Stamp.fractionText stamp.fraction ++ Stamp.zoneText stamp.zone)))),
      matches_date.mpr ⟨stamp.year, stamp.month, stamp.day, h.year,
        ⟨h.month.1, h.month.2, h.day⟩, rfl⟩, ?_, ?_⟩
    · simp only [Pattern.matches_seq (p := .literal _), Pattern.matches_literal,
        Pattern.matches_seq (p := hourPattern), Pattern.matches_seq (p := minuteOrSecond)]
      refine ⟨_, _, rfl, ⟨_, _, (twoDigits_hour _).mpr ⟨_, h.hour, rfl⟩, ⟨_, _, rfl, ⟨_, _,
        (twoDigits_minuteOrSecond _).mpr ⟨_, h.minute, rfl⟩, ⟨_, _, rfl, ⟨_, _,
          (twoDigits_minuteOrSecond _).mpr ⟨_, h.second, rfl⟩, ?_, rfl⟩, rfl⟩, rfl⟩, rfl⟩, rfl⟩, rfl⟩
      rw [Pattern.matches_seq]
      exact ⟨_, _, matches_fraction.mpr ⟨_, h.fraction, rfl⟩, matches_zone.mpr ⟨_, h.zone, rfl⟩, rfl⟩
    · simp [Stamp.text]

end Maple.Eventing
