import LedgerClient.Text.Decimal

/-!
# `LedgerClient.Calendar.Basic`: days and dates

Dates are those of the proleptic Gregorian calendar: the rule of leap
years holds for every year, the year zero and negative ones included.
A date and its day number determine each other; days are counted from
the epoch, the first of January 1970.

Both directions count in years that start in March, so that the leap
day is the last day of its year, and in eras of 400 years, after
which the calendar repeats.
-/

set_option autoImplicit false

namespace LedgerClient.Calendar

/-- A date of the proleptic Gregorian calendar. -/
structure Date where
  year : Int
  month : Nat
  day : Nat
deriving DecidableEq, Repr

/-- A time of day and the nanoseconds after it. In a leap second the nanoseconds go on to
two seconds. -/
structure Clock where
  hour : Nat
  minute : Nat
  second : Nat
  nanos : Nat
deriving DecidableEq, Repr

/-- An instant as a number of seconds since the epoch, of either sign, and nanoseconds. -/
structure Moment where
  seconds : Int
  nanos : Nat
deriving DecidableEq, Repr

/-- Whether a year has a leap day. -/
def isLeap (year : Int) : Bool :=
  year % 4 = 0 && (year % 100 ≠ 0 || year % 400 = 0)

/-- The number of days of a month. -/
def daysInMonth (year : Int) (month : Nat) : Nat :=
  match month with
  | 2 => if isLeap year then 29 else 28
  | 4 | 6 | 9 | 11 => 30
  | _ => 31

/-- Whether there is such a date. -/
def Date.isReal (d : Date) : Bool :=
  1 ≤ d.month && d.month ≤ 12 && 1 ≤ d.day && d.day ≤ daysInMonth d.year d.month

/-- The number of a date's day. -/
def Date.toDays (d : Date) : Int :=
  let year := if d.month ≤ 2 then d.year - 1 else d.year
  let era := year / 400
  let yearOfEra := year % 400
  let monthFromMarch : Int := ((d.month + 9) % 12 : Nat)
  let dayOfYear := (153 * monthFromMarch + 2) / 5 + (d.day : Int) - 1
  era * 146097 + yearOfEra * 365 + yearOfEra / 4 - yearOfEra / 100 + dayOfYear - 719468

/-- The date of a day. -/
def Date.ofDays (days : Int) : Date :=
  let shifted := days + 719468
  let era := shifted / 146097
  let dayOfEra := (shifted % 146097).toNat
  let yearOfEra := (dayOfEra - dayOfEra / 1460 + dayOfEra / 36524 - dayOfEra / 146096) / 365
  let dayOfYear := dayOfEra - (365 * yearOfEra + yearOfEra / 4 - yearOfEra / 100)
  let monthFromMarch := (5 * dayOfYear + 2) / 153
  let day := dayOfYear - (153 * monthFromMarch + 2) / 5 + 1
  let month := if monthFromMarch < 10 then monthFromMarch + 3 else monthFromMarch - 9
  let year := (yearOfEra : Int) + era * 400
  ⟨if month ≤ 2 then year + 1 else year, month, day⟩

/-- The seconds of a day. -/
def secondsPerDay : Nat := 86400

/-- The instant at which a clock shows a time on a date, in the place whose clocks are
`offset` seconds ahead. -/
def Moment.ofCivil (date : Date) (clock : Clock) (offset : Int) : Moment :=
  let ofDay := 3600 * clock.hour + 60 * clock.minute + clock.second
  ⟨date.toDays * secondsPerDay + ofDay - offset, clock.nanos⟩

/-- The text of a year: four digits, and a sign when it needs more or is negative. -/
def yearText (year : Int) : List Char :=
  if year < 0 then '-' :: Text.Decimal.padded 4 year.natAbs
  else if year ≤ 9999 then Text.Decimal.padded 4 year.natAbs
  else '+' :: Text.Decimal.padded 4 year.natAbs

/-- The text of an instant as a date and a time, to the nanosecond. -/
def Moment.text (m : Moment) : String :=
  let date := Date.ofDays (m.seconds / secondsPerDay)
  let ofDay := (m.seconds % secondsPerDay).toNat
  let two := Text.Decimal.padded 2
  String.ofList (yearText date.year ++ '-' :: two date.month ++ '-' :: two date.day ++
    'T' :: two (ofDay / 3600) ++ ':' :: two (ofDay / 60 % 60) ++ ':' :: two (ofDay % 60) ++
    '.' :: Text.Decimal.padded 9 m.nanos ++ ['Z'])

end LedgerClient.Calendar
