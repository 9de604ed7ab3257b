import Folio.Naming.Timestamp

/-!
# The calendar

From a count of seconds since the beginning of 1970 to a point in time on the calendar. Years are
counted from March, so that the leap day is the last day of a year; `400` years are `146097` days.
-/

namespace Folio.Instant

/-- The year (from March), the month (March is `0`) and the day of the month (the first is `0`)
of a day of a period of 400 years. -/
def ofDayOfEra (day : Nat) : Nat × Nat × Nat :=
  let year := (day - day / 1460 + day / 36524 - day / 146096) / 365
  let dayOfYear := day - (365 * year + year / 4 - year / 100)
  let month := (5 * dayOfYear + 2) / 153
  (year, month, dayOfYear - (153 * month + 2) / 5)

/-- The point in time so many seconds, and microseconds, after the beginning of 1970. -/
def ofEpoch (seconds microseconds : Nat) : Instant :=
  let days := seconds / 86400 + 719468
  let (year, month, day) := ofDayOfEra (days % 146097)
  let afterWinter := year + days / 146097 * 400
  let clock := seconds % 86400
  { year := if month < 10 then afterWinter else afterWinter + 1
    month := if month < 10 then month + 3 else month - 9
    day := day + 1
    hour := clock / 3600
    minute := clock / 60 % 60
    second := clock % 60
    microsecond := microseconds }

/-- The second before a leap day ends. -/
example : ofEpoch 951868799 0 = ⟨2000, 2, 29, 23, 59, 59, 0⟩ := by decide

/-- A day in March. -/
example : ofEpoch 1709993107 123456 = ⟨2024, 3, 9, 14, 5, 7, 123456⟩ := by decide

end Folio.Instant
