import Maple.ScalarPatterns

/-! Timestamps of eventing scalars: the schema's pattern, and the evaluator that reads one as
nanoseconds since the epoch. -/

namespace Maple.Eventing
open RegexPattern

/-! ### The pattern -/

def digitsOf (members : List ℕ) : Pattern :=
  .oneOf (members.map fun d => (Nat.digitChar d, Nat.digitChar d))

def oneOfTexts (first : List Char) (rest : List (List Char)) : Pattern :=
  .group (.any (.literal first) (rest.map .literal))

def leapYear : Pattern :=
  .group (.alt
    (.seq (.exactly anyDigit 2) (.group (.any (.seq (.literal ['0']) (digitsOf [4, 8]))
      [.seq (digitsOf [2, 4, 6, 8]) (digitsOf [0, 4, 8]),
        .seq (digitsOf [1, 3, 5, 7, 9]) (digitsOf [2, 6])])))
    (.seq (.group (.alt (.seq (digitsOf [0, 2, 4, 6, 8]) (digitsOf [0, 4, 8]))
      (.seq (digitsOf [1, 3, 5, 7, 9]) (digitsOf [2, 6])))) (.literal ['0', '0'])))

example : leapYear.source = ("(?:[0-9]\x7b2\x7d(?:0[48]|[2468][048]|[13579][26])|" ++
    "(?:[02468][048]|[13579][26])00)").toList := by decide

def longMonth : Pattern :=
  oneOfTexts ['0', '1'] [['0', '3'], ['0', '5'], ['0', '7'], ['0', '8'], ['1', '0'], ['1', '2']]

def shortMonth : Pattern := oneOfTexts ['0', '4'] [['0', '6'], ['0', '9'], ['1', '1']]

def firstDays : Pattern := .seq (.literal ['0']) (digitRange 1 9)

def ordinaryDate : Pattern :=
  .seq (.exactly anyDigit 4) (.seq (.literal ['-']) (.group (.any
    (.seq longMonth (.seq (.literal ['-']) (.group (.any firstDays
      [.seq (digitsOf [1, 2]) anyDigit, .seq (.literal ['3']) (digitsOf [0, 1])]))))
    [.seq shortMonth (.seq (.literal ['-']) (.group (.any firstDays
        [.seq (digitsOf [1, 2]) anyDigit, .literal ['3', '0']]))),
      .seq (.literal ['0', '2', '-']) (.group (.any firstDays
        [.seq (.literal ['1']) anyDigit, .seq (.literal ['2']) (digitRange 0 8)]))])))

example : ordinaryDate.source = ("[0-9]\x7b4\x7d-(?:(?:01|03|05|07|08|10|12)-" ++
    "(?:0[1-9]|[12][0-9]|3[01])|(?:04|06|09|11)-(?:0[1-9]|[12][0-9]|30)|" ++
    "02-(?:0[1-9]|1[0-9]|2[0-8]))").toList := by decide +kernel

def hourPattern : Pattern :=
  .group (.alt (.seq (digitsOf [0, 1]) anyDigit) (.seq (.literal ['2']) (digitRange 0 3)))

def minuteOrSecond : Pattern := .seq (digitRange 0 5) anyDigit

def signPattern : Pattern := .oneOf [('+', '+'), ('-', '-')]

def RFC3339_TIMESTAMP_PATTERN : Pattern :=
  .seq (.group (.alt ordinaryDate (.seq leapYear (.literal ['-', '0', '2', '-', '2', '9']))))
    (.seq (.literal ['T']) (.seq hourPattern (.seq (.literal [':']) (.seq minuteOrSecond
      (.seq (.literal [':']) (.seq minuteOrSecond
        (.seq (.optional (.group (.seq (.escaped '.') (.repeated anyDigit 1 9))))
          (.group (.alt (.literal ['Z'])
            (.seq signPattern (.seq hourPattern (.seq (.literal [':']) minuteOrSecond))))))))))))

/-! ### The evaluator -/

/-- What `TIMESTAMP` captures. No zone is `Z`. -/
structure TimestampMatch where
  year : List Char
  month : List Char
  day : List Char
  hour : List Char
  minute : List Char
  second : List Char
  fraction : List Char
  zone : Option (Char × List Char × List Char)
  deriving DecidableEq

def isDigit (c : Char) : Bool := 48 ≤ c.toNat && c.toNat ≤ 57

/-- Exactly so many digits, and what follows them. -/
def takeDigits (count : ℕ) (s : List Char) : Option (List Char × List Char) :=
  if (s.take count).length = count ∧ (s.take count).all isDigit then
    some (s.take count, s.drop count)
  else none

def expect (c : Char) : List Char → Option (List Char)
  | [] => none
  | d :: rest => if d = c then some rest else none

/-- `(?:\.(\d{1,9}))?`: what follows is never a digit. -/
def takeFraction : List Char → Option (List Char × List Char)
  | '.' :: rest =>
    let digits := rest.takeWhile isDigit
    if 1 ≤ digits.length ∧ digits.length ≤ 9 then some (digits, rest.drop digits.length) else none
  | s => some ([], s)

def takeZone : List Char → Option (Option (Char × List Char × List Char))
  | ['Z'] => some none
  | sign :: rest => do
    guard (sign = '+' ∨ sign = '-')
    let (hours, rest) ← takeDigits 2 rest
    let rest ← expect ':' rest
    let (minutes, rest) ← takeDigits 2 rest
    guard (rest = [])
    return some (sign, hours, minutes)
  | [] => none

/-- The match of `TIMESTAMP`, which leaves no choice. -/
def timestampMatch (s : List Char) : Option TimestampMatch := do
  let (year, s) ← takeDigits 4 s
  let s ← expect '-' s
  let (month, s) ← takeDigits 2 s
  let s ← expect '-' s
  let (day, s) ← takeDigits 2 s
  let s ← expect 'T' s
  let (hour, s) ← takeDigits 2 s
  let s ← expect ':' s
  let (minute, s) ← takeDigits 2 s
  let s ← expect ':' s
  let (second, s) ← takeDigits 2 s
  let (fraction, s) ← takeFraction s
  let zone ← takeZone s
  return ⟨year, month, day, hour, minute, second, fraction, zone⟩

def isLeapYear (year : ℕ) : Bool := year % 4 = 0 && (year % 100 != 0 || year % 400 = 0)

def daysInMonth (year month : ℕ) : ℕ :=
  match month with
  | 2 => if isLeapYear year then 29 else 28
  | 4 => 30
  | 6 => 30
  | 9 => 30
  | 11 => 30
  | _ => 31

/-! Dates as the language defines them: milliseconds since the epoch, `none` out of range. -/

def DayFromYear (y : ℤ) : ℤ := 365 * (y - 1970) + (y - 1969) / 4 - (y - 1901) / 100 + (y - 1601) / 400

def InLeapYear (y : ℤ) : Bool := y % 4 = 0 && (y % 100 != 0 || y % 400 = 0)

/-- The first day of a month within its year. -/
def monthStart (leap : Bool) (month : ℕ) : ℤ :=
  [0, 31, 59, 90, 120, 151, 181, 212, 243, 273, 304, 334].getD month 0 +
    if leap ∧ 2 ≤ month then 1 else 0

def MakeDay (year month date : ℤ) : ℤ :=
  let ym := year + month / 12
  DayFromYear ym + monthStart (InLeapYear ym) (month % 12).toNat + date - 1

def MakeTime (hour minute second ms : ℤ) : ℤ :=
  hour * 3600000 + minute * 60000 + second * 1000 + ms

def msPerDay : ℤ := 86400000

def TimeClip (time : ℤ) : Option ℤ := if |time| ≤ 8640000000000000 then some time else none

def setUTCFullYear (date : Option ℤ) (year month day : ℤ) : Option ℤ :=
  let time := date.getD 0
  TimeClip (MakeDay year month day * msPerDay + time % msPerDay)

def setUTCHours (date : Option ℤ) (hour minute second ms : ℤ) : Option ℤ :=
  date.bind fun time => TimeClip (time / msPerDay * msPerDay + MakeTime hour minute second ms)

def zoneMinutes : Option (Char × List Char × List Char) → Option ℤ
  | none => some 0
  | some (sign, hours, minutes) =>
    if 23 < value hours ∨ 59 < value minutes then none
    else
      let offset : ℤ := value hours * 60 + value minutes
      some (if sign = '-' then -offset else offset)

/-- `padEnd(9, "0")`. -/
def padFraction (fraction : List Char) : List Char :=
  fraction ++ List.replicate (9 - fraction.length) '0'

/-- Read a timestamp as nanoseconds since the epoch. -/
def timestampToEpochNanos (s : List Char) : Option ℤ := do
  let found ← timestampMatch s
  let year := value found.year
  let month := value found.month
  let day := value found.day
  let hour := value found.hour
  let minute := value found.minute
  let second := value found.second
  guard (1 ≤ month ∧ month ≤ 12 ∧ 1 ≤ day ∧ day ≤ daysInMonth year month ∧ hour ≤ 23 ∧
    minute ≤ 59 ∧ second ≤ 59)
  let offsetMinutes ← zoneMinutes found.zone
  let date := setUTCFullYear (some 0) year (month - 1 : ℤ) day
  let time ← setUTCHours date hour minute second 0
  let milliseconds := time - offsetMinutes * 60000
  return milliseconds * 1000000 + value (padFraction found.fraction)

end Maple.Eventing
