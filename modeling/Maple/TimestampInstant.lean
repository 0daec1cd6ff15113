import Maple.TimestampPattern

/-! The evaluator reads the timestamps that the pattern matches, as the nanoseconds of their
instant. -/

namespace Maple.Eventing
open RegexPattern

/-! ### Reading the fields -/

lemma isDigit_iff {c : Char} : isDigit c = true ↔ 48 ≤ c.toNat ∧ c.toNat ≤ 57 := by
  simp [isDigit]

lemma takeDigits_eq {count : ℕ} {s digits rest : List Char} :
    takeDigits count s = some (digits, rest) ↔
      s = digits ++ rest ∧ digits.length = count ∧ Digits digits := by
  unfold takeDigits
  constructor
  · intro h
    split_ifs at h with hdigits
    simp only [Option.some.injEq, Prod.mk.injEq] at h
    obtain ⟨rfl, rfl⟩ := h
    refine ⟨(List.take_append_drop count s).symm, hdigits.1, ?_⟩
    intro c hc
    exact isDigit_iff.mp (List.all_eq_true.mp hdigits.2 c hc)
  · rintro ⟨rfl, rfl, hdigits⟩
    rw [List.take_left, List.drop_left, if_pos]
    exact ⟨rfl, List.all_eq_true.mpr fun c hc => isDigit_iff.mpr (hdigits c hc)⟩

lemma expect_eq {c : Char} {s rest : List Char} : expect c s = some rest ↔ s = c :: rest := by
  cases s with
  | nil => simp [expect]
  | cons d s =>
    simp only [expect, List.cons.injEq]
    split_ifs with hd
    · simp [hd]
    · simp [hd]

namespace Stamp

/-- What `TIMESTAMP` captures of a zone. -/
def capturedZone (zone : Option (Bool × ℕ × ℕ)) : Option (Char × List Char × List Char) :=
  zone.map fun z => (if z.1 then '-' else '+', pad2 z.2.1, pad2 z.2.2)

def captured (stamp : Stamp) : TimestampMatch :=
  ⟨pad4 stamp.year, pad2 stamp.month, pad2 stamp.day, pad2 stamp.hour, pad2 stamp.minute,
    pad2 stamp.second, stamp.fraction, capturedZone stamp.zone⟩

lemma zoneText_head (zone : Option (Bool × ℕ × ℕ)) :
    ∃ c rest, zoneText zone = c :: rest ∧ isDigit c = false ∧ c ≠ '.' := by
  cases zone with
  | none => exact ⟨'Z', [], rfl, rfl, by decide⟩
  | some z =>
    obtain ⟨negative, hours, minutes⟩ := z
    cases negative with
    | true => exact ⟨'-', _, rfl, rfl, by decide⟩
    | false => exact ⟨'+', _, rfl, rfl, by decide⟩

end Stamp

lemma takeFraction_text {fraction : List Char} (h : Digits fraction ∧ fraction.length ≤ 9)
    (zone : Option (Bool × ℕ × ℕ)) :
    takeFraction (Stamp.fractionText fraction ++ Stamp.zoneText zone) =
      some (fraction, Stamp.zoneText zone) := by
  obtain ⟨c, rest, hzone, hdigit, hdot⟩ := Stamp.zoneText_head zone
  unfold Stamp.fractionText
  split_ifs with hnil
  · subst hnil
    rw [List.nil_append, hzone, takeFraction]
    exact fun _ heq => hdot (List.cons.inj heq).1
  · have hall : ∀ d ∈ fraction, isDigit d = true := fun d hd => isDigit_iff.mpr (h.1 d hd)
    have htake : (fraction ++ Stamp.zoneText zone).takeWhile isDigit = fraction := by
      rw [List.takeWhile_append_of_pos hall, hzone, List.takeWhile_cons_of_neg (by simp [hdigit]),
        List.append_nil]
    simp only [List.cons_append, takeFraction, htake, List.drop_left]
    rw [if_pos ⟨List.length_pos_iff.mpr hnil, h.2⟩]

lemma takeFraction_eq {s fraction rest : List Char} (h : takeFraction s = some (fraction, rest)) :
    (Digits fraction ∧ fraction.length ≤ 9) ∧ s = Stamp.fractionText fraction ++ rest := by
  unfold takeFraction at h
  split at h
  · rename_i tail
    dsimp only at h
    split_ifs at h with hlength
    simp only [Option.some.injEq, Prod.mk.injEq] at h
    obtain ⟨rfl, rfl⟩ := h
    refine ⟨⟨?_, hlength.2⟩, ?_⟩
    · intro c hc
      exact isDigit_iff.mp (List.mem_takeWhile_imp hc)
    · rw [Stamp.fractionText, if_neg (List.length_pos_iff.mp hlength.1), List.cons_append]
      have htake := List.prefix_iff_eq_take.mp (List.takeWhile_prefix isDigit (l := tail))
      conv_lhs => rw [← List.take_append_drop (tail.takeWhile isDigit).length tail, ← htake]
  · simp only [Option.some.injEq, Prod.mk.injEq] at h
    obtain ⟨rfl, rfl⟩ := h
    exact ⟨⟨by simp [Digits], by simp⟩, rfl⟩

lemma takeZone_text {zone : Option (Bool × ℕ × ℕ)} (h : Stamp.ZoneBelow 100 100 zone) :
    takeZone (Stamp.zoneText zone) = some (Stamp.capturedZone zone) := by
  cases zone with
  | none => rfl
  | some z =>
    obtain ⟨negative, hours, minutes⟩ := z
    have hhours : takeDigits 2 (pad2 hours ++ ':' :: pad2 minutes) =
        some (pad2 hours, ':' :: pad2 minutes) := takeDigits_eq.mpr ⟨rfl, rfl, digits_pad2 h.1⟩
    have hminutes : takeDigits 2 (pad2 minutes) = some (pad2 minutes, []) :=
      takeDigits_eq.mpr ⟨(List.append_nil _).symm, rfl, digits_pad2 h.2⟩
    cases negative with
    | true => simp [Stamp.zoneText, takeZone, hhours, hminutes, expect, Stamp.capturedZone]
    | false => simp [Stamp.zoneText, takeZone, hhours, hminutes, expect, Stamp.capturedZone]

lemma takeZone_eq {s : List Char} {found : Option (Char × List Char × List Char)}
    (h : takeZone s = some found) : ∃ zone, Stamp.ZoneBelow 100 100 zone ∧
      s = Stamp.zoneText zone ∧ found = Stamp.capturedZone zone := by
  unfold takeZone at h
  split at h
  · simp only [Option.some.injEq] at h
    exact ⟨none, trivial, rfl, h.symm⟩
  · rename_i sign rest _
    simp only [Option.bind_eq_bind, Option.bind_eq_some_iff] at h
    obtain ⟨_, hsign, ⟨hours, rest₁⟩, hhours, rest₂, hcolon, ⟨minutes, rest₃⟩, hminutes, _, hend,
      hfound⟩ := h
    obtain ⟨rfl, hhourslength, hhoursdigits⟩ := takeDigits_eq.mp hhours
    obtain rfl := expect_eq.mp hcolon
    obtain ⟨rfl, hminuteslength, hminutesdigits⟩ := takeDigits_eq.mp hminutes
    obtain ⟨hour, hhour, rfl⟩ := exists_pad2 hhourslength hhoursdigits
    obtain ⟨minute, hminute, rfl⟩ := exists_pad2 hminuteslength hminutesdigits
    simp only [Option.guard_eq_some'] at hsign hend
    subst hend
    simp only [pure, Option.some.injEq] at hfound
    subst hfound
    rcases hsign with rfl | rfl
    · exact ⟨some (false, hour, minute), ⟨hhour, hminute⟩, by simp [Stamp.zoneText], rfl⟩
    · exact ⟨some (true, hour, minute), ⟨hhour, hminute⟩, by simp [Stamp.zoneText], rfl⟩
  · cases h

/-- `TIMESTAMP` matches the timestamps whose fields have their numbers of digits. -/
theorem timestampMatch_eq {s : List Char} {found : TimestampMatch} :
    timestampMatch s = some found ↔
      ∃ stamp : Stamp, stamp.Shaped ∧ s = stamp.text ∧ found = stamp.captured := by
  constructor
  · intro h
    unfold timestampMatch at h
    simp only [Option.bind_eq_bind, Option.bind_eq_some_iff] at h
    obtain ⟨⟨year, s₁⟩, hyear, s₂, hdash₁, ⟨month, s₃⟩, hmonth, s₄, hdash₂, ⟨day, s₅⟩, hday, s₆, ht,
      ⟨hour, s₇⟩, hhour, s₈, hcolon₁, ⟨minute, s₉⟩, hminute, s₁₀, hcolon₂, ⟨second, s₁₁⟩, hsecond,
      ⟨fraction, s₁₂⟩, hfraction, zone, hzone, hfound⟩ := h
    obtain ⟨rfl, hlength, hdigits⟩ := takeDigits_eq.mp hyear
    obtain ⟨y, hy, rfl⟩ := exists_pad4 hlength hdigits
    obtain rfl := expect_eq.mp hdash₁
    obtain ⟨rfl, hlength, hdigits⟩ := takeDigits_eq.mp hmonth
    obtain ⟨m, hm, rfl⟩ := exists_pad2 hlength hdigits
    obtain rfl := expect_eq.mp hdash₂
    obtain ⟨rfl, hlength, hdigits⟩ := takeDigits_eq.mp hday
    obtain ⟨d, hd, rfl⟩ := exists_pad2 hlength hdigits
    obtain rfl := expect_eq.mp ht
    obtain ⟨rfl, hlength, hdigits⟩ := takeDigits_eq.mp hhour
    obtain ⟨hh, hhh, rfl⟩ := exists_pad2 hlength hdigits
    obtain rfl := expect_eq.mp hcolon₁
    obtain ⟨rfl, hlength, hdigits⟩ := takeDigits_eq.mp hminute
    obtain ⟨n, hn, rfl⟩ := exists_pad2 hlength hdigits
    obtain rfl := expect_eq.mp hcolon₂
    obtain ⟨rfl, hlength, hdigits⟩ := takeDigits_eq.mp hsecond
    obtain ⟨e, he, rfl⟩ := exists_pad2 hlength hdigits
    obtain ⟨hfractiondigits, rfl⟩ := takeFraction_eq hfraction
    obtain ⟨z, hbelow, rfl, rfl⟩ := takeZone_eq hzone
    simp only [pure, Option.some.injEq] at hfound
    subst hfound
    exact ⟨⟨y, m, d, hh, n, e, fraction, z⟩, ⟨hy, hm, hd, hhh, hn, he, hfractiondigits, hbelow⟩, rfl,
      rfl⟩
  · rintro ⟨stamp, h, rfl, rfl⟩
    have hyear (rest : List Char) : takeDigits 4 (pad4 stamp.year ++ rest) =
        some (pad4 stamp.year, rest) := takeDigits_eq.mpr ⟨rfl, rfl, digits_pad4 h.year⟩
    have htwo {n : ℕ} (hn : n < 100) (rest : List Char) :
        takeDigits 2 (pad2 n ++ rest) = some (pad2 n, rest) :=
      takeDigits_eq.mpr ⟨rfl, rfl, digits_pad2 hn⟩
    simp only [timestampMatch, Stamp.text, Option.bind_eq_bind, hyear, htwo h.month, htwo h.day,
      htwo h.hour, htwo h.minute, htwo h.second, expect, if_true, Option.bind_some,
      takeFraction_text h.fraction, takeZone_text h.zone, Stamp.captured, pure]

/-! ### Dates -/

/-- The length of a year. -/
def yearLength (year : ℕ) : ℕ := if isLeapYear year then 366 else 365

/-- The days from the start of year 0 to a date. -/
def daysBefore (year month day : ℕ) : ℕ :=
  ∑ y ∈ Finset.range year, yearLength y +
    ∑ m ∈ Finset.range (month - 1), daysInMonth year (m + 1) + (day - 1)

lemma sum_yearLength (year : ℕ) : ∑ y ∈ Finset.range year, yearLength y =
    365 * year + (year + 3) / 4 + (year + 399) / 400 - (year + 99) / 100 := by
  induction year with
  | zero => rfl
  | succ year ih =>
    rw [Finset.sum_range_succ, ih, yearLength]
    have hle : (year + 99) / 100 ≤ 365 * year + (year + 3) / 4 := by omega
    split_ifs with hleap
    · rw [isLeapYear_iff] at hleap
      omega
    · rw [isLeapYear_iff] at hleap
      omega

lemma dayFromYear_eq (year : ℕ) : DayFromYear year =
    (∑ y ∈ Finset.range year, yearLength y : ℕ) - (∑ y ∈ Finset.range 1970, yearLength y : ℕ) := by
  rw [sum_yearLength, sum_yearLength, DayFromYear]
  omega

lemma inLeapYear_eq (year : ℕ) : InLeapYear year = isLeapYear year := by
  rw [Bool.eq_iff_iff, isLeapYear_iff]
  simp only [InLeapYear, Bool.and_eq_true, decide_eq_true_eq, Bool.or_eq_true, bne_iff_ne, ne_eq]
  omega

lemma monthStart_eq {year month : ℕ} (hlow : 1 ≤ month) (hhigh : month ≤ 12) :
    monthStart (isLeapYear year) (month - 1) =
      (∑ m ∈ Finset.range (month - 1), daysInMonth year (m + 1) : ℕ) := by
  cases hleap : isLeapYear year with
  | true =>
    interval_cases month <;> simp [monthStart, Finset.sum_range_succ, daysInMonth, hleap]
  | false =>
    interval_cases month <;> simp [monthStart, Finset.sum_range_succ, daysInMonth, hleap]

lemma makeDay_eq {year month day : ℕ} (hlow : 1 ≤ month) (hhigh : month ≤ 12) (hday : 1 ≤ day) :
    MakeDay year (month - 1 : ℤ) day =
      (daysBefore year month day : ℤ) - (daysBefore 1970 1 1 : ℤ) := by
  have hyear : (year : ℤ) + (month - 1 : ℤ) / 12 = year := by omega
  have hmonth : ((month - 1 : ℤ) % 12).toNat = month - 1 := by omega
  have hepoch : daysBefore 1970 1 1 = ∑ y ∈ Finset.range 1970, yearLength y := by
    rw [daysBefore, Nat.sub_self, Finset.range_zero, Finset.sum_empty, Nat.add_zero, Nat.add_zero]
  rw [MakeDay]
  simp only [hyear, hmonth, inLeapYear_eq, monthStart_eq hlow hhigh, dayFromYear_eq, hepoch]
  rw [daysBefore]
  push_cast
  omega

lemma daysInMonth_le (year month : ℕ) : daysInMonth year month ≤ 31 := by
  unfold daysInMonth
  split <;> first | omega | (split_ifs <;> omega)

lemma daysBefore_le {year month day : ℕ} (hyear : year < 10000) (hmonth : month ≤ 12)
    (hday : day ≤ 31) : daysBefore year month day ≤ 4000000 := by
  have hmonths : ∑ m ∈ Finset.range (month - 1), daysInMonth year (m + 1) ≤
      (Finset.range (month - 1)).card • 31 :=
    Finset.sum_le_card_nsmul _ _ _ fun m _ => daysInMonth_le year (m + 1)
  rw [Finset.card_range, smul_eq_mul] at hmonths
  rw [daysBefore, sum_yearLength]
  omega

lemma daysBefore_epoch : daysBefore 1970 1 1 = 719528 := by
  rw [daysBefore, sum_yearLength]
  rfl

/-- The date and the time of day, through the language's dates. -/
lemma setUTC_eq {year month day hour minute second : ℕ} (hyear : year < 10000)
    (hmonth : 1 ≤ month ∧ month ≤ 12) (hday : 1 ≤ day ∧ day ≤ 31) (hhour : hour < 24)
    (hminute : minute < 60) (hsecond : second < 60) :
    setUTCHours (setUTCFullYear (some 0) year (month - 1 : ℤ) day) hour minute second 0 =
      some (((daysBefore year month day : ℤ) - (daysBefore 1970 1 1 : ℤ)) * 86400000 +
        hour * 3600000 + minute * 60000 + second * 1000) := by
  have hbound := daysBefore_le hyear hmonth.2 hday.2
  have hepoch := daysBefore_epoch
  obtain ⟨days, hdays⟩ : ∃ days : ℤ,
      days = (daysBefore year month day : ℤ) - (daysBefore 1970 1 1 : ℤ) := ⟨_, rfl⟩
  rw [← hdays]
  have hlow : -719528 ≤ days := by omega
  have hhigh : days ≤ 4000000 := by omega
  have hdate : setUTCFullYear (some 0) year (month - 1 : ℤ) day = some (days * 86400000) := by
    simp only [setUTCFullYear, Option.getD_some, makeDay_eq hmonth.1 hmonth.2 hday.1, ← hdays,
      TimeClip, msPerDay, Int.zero_emod, add_zero]
    rw [if_pos]
    rw [abs_le]
    omega
  have hfloor : days * 86400000 / 86400000 = days := by omega
  simp only [hdate, setUTCHours, Option.bind_some, msPerDay, hfloor, MakeTime, TimeClip]
  rw [if_pos]
  · rw [Option.some.injEq]
    ring
  · rw [abs_le]
    omega

namespace Stamp

/-- The nanoseconds the fraction of a second denotes. -/
def nanos (fraction : List Char) : ℕ := value fraction * 10 ^ (9 - fraction.length)

def offsetMinutes : Option (Bool × ℕ × ℕ) → ℤ
  | none => 0
  | some (negative, hours, minutes) =>
    if negative then -(hours * 60 + minutes : ℤ) else hours * 60 + minutes

/-- The nanoseconds from the epoch to the local time, less the offset. -/
def instant (stamp : Stamp) : ℤ :=
  (((daysBefore stamp.year stamp.month stamp.day : ℤ) - (daysBefore 1970 1 1 : ℤ)) * 86400 +
    stamp.hour * 3600 + stamp.minute * 60 + stamp.second - offsetMinutes stamp.zone * 60) *
      1000000000 + nanos stamp.fraction

lemma ZoneBelow.mono {hours minutes : ℕ} {zone : Option (Bool × ℕ × ℕ)}
    (h : ZoneBelow hours minutes zone) (hhours : hours ≤ 100) (hminutes : minutes ≤ 100) :
    ZoneBelow 100 100 zone := by
  cases zone with
  | none => trivial
  | some z => exact ⟨lt_of_lt_of_le h.1 hhours, lt_of_lt_of_le h.2 hminutes⟩

lemma Valid.shaped {stamp : Stamp} (h : stamp.Valid) : stamp.Shaped where
  year := h.year
  month := by
    have := h.month
    omega
  day := by
    have := h.day
    have := daysInMonth_le stamp.year stamp.month
    omega
  hour := by
    have := h.hour
    omega
  minute := by
    have := h.minute
    omega
  second := by
    have := h.second
    omega
  fraction := h.fraction
  zone := h.zone.mono (by decide) (by decide)

end Stamp

lemma value_padFraction {fraction : List Char} :
    value (padFraction fraction) = Stamp.nanos fraction := by
  rw [padFraction, Stamp.nanos, value, Nat.ofDigitChars_append, Nat.ofDigitChars_replicate_zero,
    value, mul_comm]

lemma zoneMinutes_eq {zone : Option (Bool × ℕ × ℕ)} (h : Stamp.ZoneBelow 100 100 zone)
    {offset : ℤ} : zoneMinutes (Stamp.capturedZone zone) = some offset ↔
      Stamp.ZoneBelow 24 60 zone ∧ offset = Stamp.offsetMinutes zone := by
  cases zone with
  | none =>
    constructor
    · intro h
      cases h
      exact ⟨trivial, rfl⟩
    · rintro ⟨_, rfl⟩
      rfl
  | some z =>
    obtain ⟨negative, hours, minutes⟩ := z
    simp only [Stamp.capturedZone, Option.map_some, zoneMinutes, value_pad2 h.1, value_pad2 h.2,
      Stamp.ZoneBelow, Stamp.offsetMinutes]
    by_cases hrange : 23 < hours ∨ 59 < minutes
    · rw [if_pos hrange]
      constructor
      · intro hcontra
        cases hcontra
      · rintro ⟨⟨hhours, hminutes⟩, _⟩
        omega
    · rw [if_neg hrange]
      have hbelow : hours < 24 ∧ minutes < 60 := by omega
      cases negative with
      | true => simp [hbelow, eq_comm]
      | false => simp [hbelow, eq_comm]

/-- The evaluator reads the valid timestamps, each as its instant. -/
theorem timestampToEpochNanos_eq {s : List Char} {nanos : ℤ} :
    timestampToEpochNanos s = some nanos ↔
      ∃ stamp : Stamp, stamp.Valid ∧ s = stamp.text ∧ nanos = stamp.instant := by
  constructor
  · intro h
    unfold timestampToEpochNanos at h
    simp only [Option.bind_eq_bind, Option.bind_eq_some_iff, Option.guard_eq_some'] at h
    obtain ⟨found, hfound, _, hrange, offset, hoffset, time, htime, hnanos⟩ := h
    obtain ⟨stamp, hshaped, rfl, rfl⟩ := timestampMatch_eq.mp hfound
    simp only [Stamp.captured, value_pad4 hshaped.year, value_pad2 hshaped.month,
      value_pad2 hshaped.day, value_pad2 hshaped.hour, value_pad2 hshaped.minute,
      value_pad2 hshaped.second] at hrange htime hoffset hnanos
    obtain ⟨hbelow, rfl⟩ := (zoneMinutes_eq hshaped.zone).mp hoffset
    obtain ⟨hmonth, hmonth', hday, hday', hhour, hminute, hsecond⟩ := hrange
    have hdays := daysInMonth_le stamp.year stamp.month
    rw [setUTC_eq hshaped.year ⟨hmonth, hmonth'⟩ ⟨hday, by omega⟩ (by omega) (by omega)
      (by omega)] at htime
    simp only [Option.some.injEq, pure] at htime hnanos
    refine ⟨stamp, ⟨hshaped.year, ⟨hmonth, hmonth'⟩, ⟨hday, hday'⟩, by omega, by omega, by omega,
      hshaped.fraction, hbelow⟩, rfl, ?_⟩
    rw [← hnanos, ← htime, value_padFraction, Stamp.instant]
    generalize daysBefore 1970 1 1 = epoch
    ring
  · rintro ⟨stamp, hvalid, rfl, hinstant⟩
    rw [hinstant]
    have hshaped := hvalid.shaped
    have hmatch := timestampMatch_eq.mpr ⟨stamp, hshaped, rfl, rfl⟩
    have hdays := daysInMonth_le stamp.year stamp.month
    have hday := hvalid.day
    have hhour := hvalid.hour
    have hminute := hvalid.minute
    have hsecond := hvalid.second
    have hzone := (zoneMinutes_eq hshaped.zone).mpr ⟨hvalid.zone, rfl⟩
    have hdate := setUTC_eq hshaped.year hvalid.month ⟨hday.1, by omega⟩ hhour hminute hsecond
    unfold timestampToEpochNanos
    simp only [Option.bind_eq_bind, Option.bind_eq_some_iff, Option.guard_eq_some', hmatch]
    refine ⟨stamp.captured, rfl, (), ?_, Stamp.offsetMinutes stamp.zone, hzone,
      ((daysBefore stamp.year stamp.month stamp.day : ℤ) - (daysBefore 1970 1 1 : ℤ)) * 86400000 +
        stamp.hour * 3600000 + stamp.minute * 60000 + stamp.second * 1000, ?_, ?_⟩
    · simp only [Stamp.captured, value_pad4 hshaped.year, value_pad2 hshaped.month,
        value_pad2 hshaped.day, value_pad2 hshaped.hour, value_pad2 hshaped.minute,
        value_pad2 hshaped.second]
      exact ⟨hvalid.month.1, hvalid.month.2, hday.1, hday.2, by omega, by omega, by omega⟩
    · simp only [Stamp.captured, value_pad4 hshaped.year, value_pad2 hshaped.month,
        value_pad2 hshaped.day, value_pad2 hshaped.hour, value_pad2 hshaped.minute,
        value_pad2 hshaped.second]
      exact hdate
    · simp only [pure, Option.some.injEq, Stamp.captured, value_padFraction, Stamp.instant]
      generalize daysBefore 1970 1 1 = epoch
      ring

/-- The patterns of eventing scalars accept what the evaluator reads: bounded decimal integers as
they are written, and timestamps, which the evaluator counts in nanoseconds and so puts in order. -/
theorem scalarPatterns_agree :
    (∀ maximum, 10 ≤ maximum → ∀ s, (magnitudePattern maximum).Matches s ↔
      ∃ n, n ≤ maximum ∧ s = Nat.toDigits 10 n) ∧
    (∀ s, DECIMAL_INT64_PATTERN.Matches s ↔
      (∃ z, INT64_MIN ≤ z ∧ z ≤ INT64_MAX ∧ s = decimal z) ∨ s = ['-', '0']) ∧
    (∀ s, RFC3339_TIMESTAMP_PATTERN.Matches s ↔ timestampToEpochNanos s ≠ none) ∧
    (∀ s nanos, timestampToEpochNanos s = some nanos →
      ∃ stamp : Stamp, stamp.Valid ∧ s = stamp.text ∧ nanos = stamp.instant) ∧
    ∀ stamp stamp' : Stamp, stamp.Valid → stamp'.Valid →
      ∃ nanos nanos', timestampToEpochNanos stamp.text = some nanos ∧
        timestampToEpochNanos stamp'.text = some nanos' ∧
        (nanos ≤ nanos' ↔ stamp.instant ≤ stamp'.instant) := by
  refine ⟨fun maximum h s => magnitudePattern_iff h s, decimalInt64_iff, ?_, ?_, ?_⟩
  · intro s
    rw [rfc3339_iff, Option.ne_none_iff_exists']
    constructor
    · rintro ⟨stamp, hvalid, rfl⟩
      exact ⟨_, timestampToEpochNanos_eq.mpr ⟨stamp, hvalid, rfl, rfl⟩⟩
    · rintro ⟨nanos, hnanos⟩
      obtain ⟨stamp, hvalid, hs, _⟩ := timestampToEpochNanos_eq.mp hnanos
      exact ⟨stamp, hvalid, hs⟩
  · exact fun s nanos h => timestampToEpochNanos_eq.mp h
  · intro stamp stamp' h h'
    exact ⟨_, _, timestampToEpochNanos_eq.mpr ⟨stamp, h, rfl, rfl⟩,
      timestampToEpochNanos_eq.mpr ⟨stamp', h', rfl, rfl⟩, Iff.rfl⟩

theorem scalarPatterns_agree_samples :
    (magnitudePattern 12).Matches ['1', '2'] ∧
      RFC3339_TIMESTAMP_PATTERN.Matches "2000-02-29T23:59:59.5-01:30".toList :=
  ⟨(scalarPatterns_agree.1 12 (by decide) ['1', '2']).mpr ⟨12, le_rfl, rfl⟩,
    (scalarPatterns_agree.2.2.1 _).mpr (by decide)⟩

end Maple.Eventing
