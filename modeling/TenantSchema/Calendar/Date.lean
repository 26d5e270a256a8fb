/-!
# Civil dates

The proleptic Gregorian calendar with a year zero. Days are counted from 1970-01-01; `dayNumber`
and `ofDayNumber` convert between a date and its count.
-/

namespace TenantSchema.Calendar

structure Date where
  year : Int
  month : Nat
  day : Nat
deriving DecidableEq, Repr

/-- Years that a date may have. -/
def minYear : Int := -262143
def maxYear : Int := 262142

def isLeapYear (year : Int) : Bool := year % 4 == 0 && (year % 100 != 0 || year % 400 == 0)

def daysInMonth (year : Int) : Nat → Nat
  | 2 => if isLeapYear year then 29 else 28
  | 4 | 6 | 9 | 11 => 30
  | _ => 31

def daysInYear (year : Int) : Nat := if isLeapYear year then 366 else 365

/-- Days from 1970-01-01 to a date. Years start in March here, so that a leap day comes last. -/
def Date.dayNumber (d : Date) : Int :=
  let y : Int := if d.month ≤ 2 then d.year - 1 else d.year
  let era := y / 400
  let yearOfEra := y % 400
  let monthFromMarch : Int := if 2 < d.month then (d.month : Int) - 3 else d.month + 9
  let dayOfYear := (153 * monthFromMarch + 2) / 5 + d.day - 1
  let dayOfEra := yearOfEra * 365 + yearOfEra / 4 - yearOfEra / 100 + dayOfYear
  era * 146097 + dayOfEra - 719468

/-- The date that lies `n` days after 1970-01-01. -/
def Date.ofDayNumber (n : Int) : Date :=
  let z := n + 719468
  let era := z / 146097
  let dayOfEra := z % 146097
  let yearOfEra :=
    (dayOfEra - dayOfEra / 1460 + dayOfEra / 36524 - dayOfEra / 146096) / 365
  let dayOfYear := dayOfEra - (365 * yearOfEra + yearOfEra / 4 - yearOfEra / 100)
  let monthFromMarch := (5 * dayOfYear + 2) / 153
  let day := dayOfYear - (153 * monthFromMarch + 2) / 5 + 1
  let month := if monthFromMarch < 10 then monthFromMarch + 3 else monthFromMarch - 9
  let year := yearOfEra + era * 400 + if month ≤ 2 then 1 else 0
  ⟨year, month.toNat, day.toNat⟩

namespace Date

/-- A date of the calendar within the supported years. -/
def of? (year : Int) (month day : Nat) : Option Date :=
  if minYear ≤ year ∧ year ≤ maxYear ∧ 1 ≤ month ∧ month ≤ 12 ∧ 1 ≤ day ∧
      day ≤ daysInMonth year month then some ⟨year, month, day⟩
  else none

/-- The date of a day counted from 1 within a year. -/
def ofOrdinal? (year : Int) (ordinal : Nat) : Option Date :=
  if minYear ≤ year ∧ year ≤ maxYear ∧ 1 ≤ ordinal ∧ ordinal ≤ daysInYear year then
    some (ofDayNumber (dayNumber ⟨year, 1, 1⟩ + ordinal - 1))
  else none

/-- Day counted from 1 within the year. -/
def ordinal (d : Date) : Nat := (d.dayNumber - dayNumber ⟨d.year, 1, 1⟩ + 1).toNat

/-- Day of the week, Monday being 0. -/
def weekday (d : Date) : Nat := ((d.dayNumber + 3) % 7).toNat

/-- Days since the last `start`, a day of the week. -/
def daysSince (weekday start : Nat) : Nat := (weekday + 7 - start) % 7

/-- Number of the week when weeks begin on `start` and the first `start` of the year begins week 1. -/
def weekFrom (d : Date) (start : Nat) : Nat :=
  (d.ordinal + 6 - daysSince d.weekday start) / 7

/-- The Thursday of the same week. Its year is the one that the week is counted in. -/
def thursday (d : Date) : Date := ofDayNumber (d.dayNumber - d.weekday + 3)

/-- The year of the week, which may be the one before or after that of the date. -/
def isoYear (d : Date) : Int := d.thursday.year

/-- Number of the week, the first Thursday of a year being in its week 1. -/
def isoWeek (d : Date) : Nat := (d.thursday.ordinal + 6) / 7

/-- The date of a day in a week of a year; January 4 is always in week 1. -/
def ofIsoWeek? (year week : Int) (weekday : Nat) : Option Date :=
  let fourth : Date := ⟨year, 1, 4⟩
  let d := ofDayNumber (fourth.dayNumber - fourth.weekday + (week - 1) * 7 + weekday)
  if d.isoYear = year ∧ minYear ≤ d.year ∧ d.year ≤ maxYear then some d else none

/-- Quarter of the year, from 1 to 4. -/
def quarter (d : Date) : Nat := (d.month + 2) / 3

end Date

/-- Sunday as a day of the week. -/
def sunday : Nat := 6

/-- Monday as a day of the week. -/
def monday : Nat := 0

def monthNames : List String := [
  "January", "February", "March", "April", "May", "June", "July", "August", "September",
  "October", "November", "December"]

def weekdayNames : List String := [
  "Monday", "Tuesday", "Wednesday", "Thursday", "Friday", "Saturday", "Sunday"]

end TenantSchema.Calendar
