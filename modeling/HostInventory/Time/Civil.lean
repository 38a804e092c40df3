/-!
# The proleptic Gregorian calendar

Dates are counted in days from 1970-01-01 (`daysFromCivil`), with the usual leap-year rule
(divisible by four, centuries only when divisible by 400) extended to all years. The count is
computed by eras of 400 years, each of which has exactly 146097 days, with March as the first
month so that the leap day closes the year. `civilFromDays` is its inverse on days.

The ordinal of a date counts days from 0001-01-01, which has ordinal 1; weekdays count from
Monday (0) to Sunday (6). ISO week dates name a day by the year, the week (whose Monday is in it)
and the weekday from one; week one is the week holding the year's first Thursday.
-/

namespace HostInventory.Calendar

/-- Leap years: divisible by four, and a century year only when divisible by 400. -/
def isLeap (year : Nat) : Bool := year % 4 == 0 && (year % 100 != 0 || year % 400 == 0)

/-- The number of days of a month (one to twelve) of a year. -/
def daysInMonth (year month : Nat) : Nat :=
  if month == 2 then (if isLeap year then 29 else 28)
  else if month == 4 || month == 6 || month == 9 || month == 11 then 30
  else 31

/-- Days from 1970-01-01 to the given date. -/
def daysFromCivil (year month day : Int) : Int :=
  let y := if month ≤ 2 then year - 1 else year
  let era := y / 400
  let yearOfEra := y - era * 400
  let shifted := if month > 2 then month - 3 else month + 9
  let dayOfYear := (153 * shifted + 2) / 5 + day - 1
  let dayOfEra := yearOfEra * 365 + yearOfEra / 4 - yearOfEra / 100 + dayOfYear
  era * 146097 + dayOfEra - 719468

/-- The date that lies a number of days after 1970-01-01, as year, month and day. -/
def civilFromDays (days : Int) : Int × Nat × Nat :=
  let z := days + 719468
  let era := z / 146097
  let dayOfEra := z - era * 146097
  let yearOfEra := (dayOfEra - dayOfEra / 1460 + dayOfEra / 36524 - dayOfEra / 146096) / 365
  let dayOfYear := dayOfEra - (365 * yearOfEra + yearOfEra / 4 - yearOfEra / 100)
  let shifted := (5 * dayOfYear + 2) / 153
  let day := dayOfYear - (153 * shifted + 2) / 5 + 1
  let month := if shifted < 10 then shifted + 3 else shifted - 9
  let year := yearOfEra + era * 400 + (if month ≤ 2 then 1 else 0)
  (year, month.toNat, day.toNat)

/-- The ordinal of a date: 0001-01-01 has ordinal one. -/
def ordinal (year month day : Int) : Int := daysFromCivil year month day + 719163

/-- The weekday of an ordinal, Monday being zero. -/
def weekday (ord : Int) : Nat := ((ord + 6) % 7).toNat

/-- The ordinal of the Monday of ISO week one of a year. -/
def isoWeekOneMonday (year : Int) : Int :=
  let first := ordinal year 1 1
  let wd := weekday first
  let monday := first - wd
  if wd > 3 then monday + 7 else monday

/-- Whether an ISO year has a week 53: it starts on a Thursday, or it is a leap year starting on
a Wednesday. -/
def hasWeek53 (year : Nat) : Bool :=
  let wd := weekday (ordinal year 1 1)
  wd == 3 || (wd == 2 && isLeap year)

example : daysFromCivil 1970 1 1 = 0 ∧ daysFromCivil 2000 3 1 = 11017 ∧
    daysFromCivil 1 1 1 = -719162 := by decide
example : civilFromDays 11017 = (2000, 3, 1) ∧ civilFromDays (-719162) = (1, 1, 1) := by decide
example : weekday (ordinal 2024 1 1) = 0 ∧ isoWeekOneMonday 2021 = ordinal 2021 1 4 := by decide

end HostInventory.Calendar
