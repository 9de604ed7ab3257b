/-!
# Timestamps

A point in time as it goes into file names: `yyyyMMdd_HHmmssSSS`, where the milliseconds are cut
off and not rounded.
-/

namespace Folio

/-- A point in time on the calendar. -/
structure Instant where
  year : Nat
  month : Nat
  day : Nat
  hour : Nat
  minute : Nat
  second : Nat
  microsecond : Nat
  deriving DecidableEq, Repr

/-- The decimal digits of `n`, with zeros in front up to a width. -/
def padded (width n : Nat) : List Char :=
  let ds := Nat.toDigits 10 n
  List.replicate (width - ds.length) '0' ++ ds

namespace Instant

/-- The day. Years are not padded. -/
def dateChars (t : Instant) : List Char :=
  Nat.toDigits 10 t.year ++ padded 2 t.month ++ padded 2 t.day

/-- The time of the day, to the second. -/
def clockChars (t : Instant) : List Char :=
  padded 2 t.hour ++ padded 2 t.minute ++ padded 2 t.second

/-- The time to the second. -/
def stampChars (t : Instant) : List Char := t.dateChars ++ '_' :: t.clockChars

/-- The time to the millisecond. -/
def timestampChars (t : Instant) : List Char := t.stampChars ++ padded 3 (t.microsecond / 1000)

end Instant

end Folio
