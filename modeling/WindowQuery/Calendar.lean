/-!
# The calendar

Dates of the proleptic Gregorian calendar, with years before the first
counted 0, -1, …, and their numbering by days from 1970-01-01.

Both directions count in years that begin on the first of March, so that
the leap day is the last day of its year: within such a year the months
have lengths in a fixed pattern of five, and within four hundred years,
an *era*, the leap years are where the day number says.
-/

namespace WindowQuery

/-- A date. -/
structure Date where
  /-- The year. -/
  year : Int
  /-- The month, 1 to 12. -/
  month : Nat
  /-- The day of the month, from 1. -/
  day : Nat
deriving DecidableEq

namespace Date

/-- Whether a year has a leap day. -/
def isLeap (year : Int) : Bool :=
  year % 4 == 0 && (year % 100 != 0 || year % 400 == 0)

/-- The number of days of a month. -/
def monthLength (year : Int) (month : Nat) : Nat :=
  if month = 2 then (if isLeap year then 29 else 28)
  else if month = 4 ∨ month = 6 ∨ month = 9 ∨ month = 11 then 30
  else 31

/-- **A date of the calendar**: one of twelve months and a day within it. -/
def Valid (d : Date) : Prop :=
  1 ≤ d.month ∧ d.month ≤ 12 ∧ 1 ≤ d.day ∧ d.day ≤ monthLength d.year d.month

instance (d : Date) : Decidable d.Valid := inferInstanceAs (Decidable (_ ∧ _ ∧ _ ∧ _))

/-- The number of days in an era of four hundred years. -/
def daysPerEra : Int := 146097

/-- The number of days from the first of March of the year 0 to
1970-01-01. -/
def epochOffset : Int := 719468

/-- **The day number of a date.** -/
def toDayNumber (d : Date) : Int :=
  let year := if d.month ≤ 2 then d.year - 1 else d.year
  let era := year / 400
  let yearOfEra := year % 400
  let monthIndex : Int := if d.month ≤ 2 then d.month + 9 else d.month - 3
  let dayOfYear := (153 * monthIndex + 2) / 5 + d.day - 1
  let dayOfEra := yearOfEra * 365 + yearOfEra / 4 - yearOfEra / 100 + dayOfYear
  era * daysPerEra + dayOfEra - epochOffset

/-- **The date with a day number.** -/
def ofDayNumber (n : Int) : Date :=
  let z := n + epochOffset
  let era := z / daysPerEra
  let dayOfEra := z % daysPerEra
  let yearOfEra :=
    (dayOfEra - dayOfEra / 1460 + dayOfEra / 36524 - dayOfEra / 146096) / 365
  let dayOfYear := dayOfEra - (365 * yearOfEra + yearOfEra / 4 - yearOfEra / 100)
  let monthIndex := (5 * dayOfYear + 2) / 153
  let day := dayOfYear - (153 * monthIndex + 2) / 5 + 1
  let month := if monthIndex < 10 then monthIndex + 3 else monthIndex - 9
  let year := yearOfEra + era * 400
  ⟨if month ≤ 2 then year + 1 else year, month.toNat, day.toNat⟩

/-- The first and the last year in which an instant can lie. -/
def firstYear : Int := -262143

@[inherit_doc firstYear]
def lastYear : Int := 262142

end Date

end WindowQuery
