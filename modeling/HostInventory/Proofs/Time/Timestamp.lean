import Mathlib.Tactic.IntervalCases
import HostInventory.Time.Instant
/-!
# Timestamps count days as the calendar does

The timestamp of a date-time comes from `Calendar.daysFromCivil`, which counts days in eras of
400 years with March as the first month. Here the days are counted the plain way instead, year by
year and month by month from 0001-01-01 (`Calendar.dayNumber`), and the two counts agree on every
date of the calendar (`Calendar.daysFromCivil_eq_dayNumber`), leap centuries included.

So a timestamp is exact (`DateTime.toTimestamp_exact`): its seconds are the whole seconds from the
epoch to the instant, rounded down, and its nanoseconds the rest, never negative, also before 1970
and whatever the offset. A date-time is the zero time exactly when its instant is the first of
0001-01-01 in UTC, and exactly when its timestamp is that instant's.
-/

namespace HostInventory

namespace Calendar

/-- The number of days of a year. -/
def yearLength (year : Nat) : Nat := if isLeap year then 366 else 365

/-- The days of the first `n` years of the calendar, counted year by year. -/
def daysInYears : Nat → Nat
  | 0 => 0
  | n + 1 => daysInYears n + yearLength (n + 1)

/-- The days of a year's months before `month`, counted month by month. -/
def daysBeforeMonth (year : Nat) : Nat → Nat
  | 0 => 0
  | 1 => 0
  | month + 1 => daysBeforeMonth year month + daysInMonth year month

/-- The number of a day counted from the first day of the calendar, 0001-01-01 being day one:
the days of the years before, then of the months before, then the day of the month. -/
def dayNumber (year month day : Nat) : Nat :=
  daysInYears (year - 1) + daysBeforeMonth year month + day

theorem isLeap_iff {year : Nat} :
    isLeap year = true ↔ year % 4 = 0 ∧ (year % 100 ≠ 0 ∨ year % 400 = 0) := by
  simp [isLeap]

/-- Among the first `n` years, the leap years are the multiples of four, less the multiples of a
hundred, plus the multiples of four hundred. -/
theorem daysInYears_eq (n : Nat) : daysInYears n = 365 * n + n / 4 - n / 100 + n / 400 := by
  induction n with
  | zero => rfl
  | succ n ih =>
    rw [daysInYears, ih, yearLength]
    by_cases leap : isLeap (n + 1) = true
    · have divisible := isLeap_iff.mp leap
      simp only [leap, if_true]
      omega
    · have notDivisible := mt isLeap_iff.mpr leap
      simp only [leap, Bool.false_eq_true, if_false]
      omega

/-- From March on, the months before hold February, whose length the leap year decides; the
lengths of the months from March repeat in fives of 153 days. -/
theorem daysBeforeMonth_eq {year month : Nat} (spring : 3 ≤ month) (inYear : month ≤ 12) :
    daysBeforeMonth year month =
      59 + (if isLeap year then 1 else 0) + (153 * (month - 3) + 2) / 5 := by
  interval_cases month <;> by_cases leap : isLeap year = true <;>
    simp [daysBeforeMonth, daysInMonth, leap]

theorem dayNumber_epoch : dayNumber 1970 1 1 = 719163 := by
  rw [dayNumber, daysInYears_eq]
  rfl

/-- The era count of days from 1970-01-01 is the plain count of days between the two dates. -/
theorem daysFromCivil_eq_dayNumber {year month : Nat} (day : Int) (positive : 1 ≤ year)
    (inMonths : 1 ≤ month ∧ month ≤ 12) :
    daysFromCivil year month day = (dayNumber year month 0 : Int) + day - dayNumber 1970 1 1 := by
  rw [dayNumber_epoch, dayNumber, daysInYears_eq]
  unfold daysFromCivil
  by_cases spring : 3 ≤ month
  · -- the year of the era is the year itself, and the months before are counted from March
    rw [daysBeforeMonth_eq spring inMonths.2]
    have late : ¬((month : Int) ≤ 2) := by omega
    have shifted : (month : Int) > 2 := by omega
    simp only [late, shifted, if_true, if_false]
    by_cases leap : isLeap year = true
    · have divisible := isLeap_iff.mp leap
      simp only [leap, if_true]
      omega
    · have notDivisible := mt isLeap_iff.mpr leap
      simp only [leap, Bool.false_eq_true, if_false]
      omega
  · -- January and February close the previous year of the era
    have early : (month : Int) ≤ 2 := by omega
    have notShifted : ¬((month : Int) > 2) := by omega
    simp only [early, notShifted, if_true, if_false]
    have january_or_february : month = 1 ∨ month = 2 := by omega
    rcases january_or_february with rfl | rfl
    · simp only [daysBeforeMonth]
      omega
    · have february : daysBeforeMonth year 2 = 31 := rfl
      rw [february]
      omega

end Calendar

namespace DateTime

theorem toTimestamp_eq (d : DateTime) :
    d.toTimestamp = ⟨d.epochMicros / 1000000, d.epochMicros % 1000000 * 1000⟩ := rfl

/-- The microseconds from the epoch to the instant of a date-time, with the days counted the
plain way. -/
theorem epochMicros_eq (d : DateTime) (positive : 1 ≤ d.year)
    (inMonths : 1 ≤ d.month ∧ d.month ≤ 12) :
    d.epochMicros = (((Calendar.dayNumber d.year d.month d.day : Int) -
      Calendar.dayNumber 1970 1 1) * 86400 + d.hour * 3600 + d.minute * 60 + d.second) * 1000000 +
        d.micro - d.offset.getD 0 := by
  unfold epochMicros
  rw [Calendar.daysFromCivil_eq_dayNumber d.day positive inMonths]
  simp only [Calendar.dayNumber]
  omega

/-- The timestamp of a date-time of the calendar is exact: with `micros` the microseconds from
the epoch to its instant, counting days year by year and month by month and taking the offset
off, its seconds are `micros` divided by a million and rounded down and its nanoseconds are the
rest, which lies in `[0, 999999000]` also before 1970. A date-time is the zero time exactly when
its instant is the first of 0001-01-01 in UTC, whatever its offset, and exactly when its
timestamp is that instant's. -/
theorem toTimestamp_exact (d : DateTime) (positive : 1 ≤ d.year)
    (inMonths : 1 ≤ d.month ∧ d.month ≤ 12) :
    let micros : Int := (((Calendar.dayNumber d.year d.month d.day : Int) -
      Calendar.dayNumber 1970 1 1) * 86400 + d.hour * 3600 + d.minute * 60 + d.second) * 1000000 +
        d.micro - d.offset.getD 0
    d.toTimestamp = ⟨micros / 1000000, micros % 1000000 * 1000⟩ ∧
      d.toTimestamp.seconds * 1000000 + d.toTimestamp.nanos / 1000 = micros ∧
      0 ≤ d.toTimestamp.nanos ∧ d.toTimestamp.nanos ≤ 999999000 ∧
      (d.isZero = true ↔ micros = -62135596800 * 1000000) ∧
      (d.isZero = true ↔ d.toTimestamp = ⟨-62135596800, 0⟩) := by
  intro micros
  have counted : d.epochMicros = micros := epochMicros_eq d positive inMonths
  have zero : d.isZero = true ↔ micros = -62135596800 * 1000000 := by
    simp [isZero, zeroMicros, counted]
  rw [toTimestamp_eq, counted]
  dsimp only
  refine ⟨rfl, by omega, by omega, by omega, zero, ?_⟩
  rw [zero, Timestamp.mk.injEq]
  omega

/-- Half a second before the epoch, written half an hour behind UTC. -/
theorem toTimestamp_exact_before_epoch :
    let d : DateTime := ⟨1969, 12, 31, 23, 29, 59, 500000, some (-1800000000)⟩
    (1 ≤ d.year ∧ 1 ≤ d.month ∧ d.month ≤ 12) ∧
      let micros : Int := (((Calendar.dayNumber d.year d.month d.day : Int) -
        Calendar.dayNumber 1970 1 1) * 86400 + d.hour * 3600 + d.minute * 60 + d.second) *
          1000000 + d.micro - d.offset.getD 0
      d.toTimestamp = ⟨micros / 1000000, micros % 1000000 * 1000⟩ ∧
        d.toTimestamp.seconds * 1000000 + d.toTimestamp.nanos / 1000 = micros ∧
        0 ≤ d.toTimestamp.nanos ∧ d.toTimestamp.nanos ≤ 999999000 ∧
        (d.isZero = true ↔ micros = -62135596800 * 1000000) ∧
        (d.isZero = true ↔ d.toTimestamp = ⟨-62135596800, 0⟩) := by
  intro d
  exact ⟨by decide, toTimestamp_exact d (by decide) (by decide)⟩

end DateTime

end HostInventory
