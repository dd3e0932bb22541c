import SqlMetrics.Number.Text

/-!
# Instants

A point in time is a number of microseconds since the start of 1970 in UTC.  Its text is the date
and the time of day in UTC, by the calendar without gaps that counts Gregorian leap years through
all years, zero and negative ones included.
-/

namespace SqlMetrics.Source

/-- A day of the calendar. -/
structure CalendarDate where
  year : Int
  month : Nat
  day : Nat
deriving DecidableEq, Repr

/-- The day that comes `n` days after the first of January 1970.  Years are counted from March, so
that a leap day is the last one of its year, and in spans of 400 years, which have 146097 days. -/
def CalendarDate.ofDayNumber (n : Int) : CalendarDate :=
  let shifted := n + 719468
  let span := Int.fdiv shifted 146097
  let dayOfSpan := (Int.fmod shifted 146097).toNat
  let yearOfSpan :=
    (dayOfSpan - dayOfSpan / 1460 + dayOfSpan / 36524 - dayOfSpan / 146096) / 365
  let dayOfYear := dayOfSpan - (365 * yearOfSpan + yearOfSpan / 4 - yearOfSpan / 100)
  let marchMonth := (5 * dayOfYear + 2) / 153
  let month := if marchMonth < 10 then marchMonth + 3 else marchMonth - 9
  let year := (yearOfSpan : Int) + 400 * span
  ⟨if month ≤ 2 then year + 1 else year, month, dayOfYear - (153 * marchMonth + 2) / 5 + 1⟩

/-- The decimal digits of a number, filled up with zeros to a least width. -/
def padded (width n : Nat) : String :=
  let digits := toString n
  String.ofList (List.replicate (width - digits.length) '0') ++ digits

/-- A year in four digits; one that has no four digits has a sign, and then more digits
as needed. -/
def yearText (year : Int) : String :=
  if 0 ≤ year && year ≤ 9999 then padded 4 year.toNat
  else (if year < 0 then "-" else "+") ++ padded 4 year.natAbs

/-- The fraction of a second, in as few digits of 0, 3 and 6 as give it exactly. -/
def fractionText (micros : Nat) : String :=
  if micros == 0 then ""
  else if micros % 1000 == 0 then "." ++ padded 3 (micros / 1000)
  else "." ++ padded 6 micros

/-- The date and time of day of an instant, in UTC. -/
def instantText (micros : Int) : String :=
  let seconds := Int.fdiv micros 1000000
  let date := CalendarDate.ofDayNumber (Int.fdiv seconds 86400)
  let time := (Int.fmod seconds 86400).toNat
  yearText date.year ++ "-" ++ padded 2 date.month ++ "-" ++ padded 2 date.day ++ "T" ++
    padded 2 (time / 3600) ++ ":" ++ padded 2 (time / 60 % 60) ++ ":" ++ padded 2 (time % 60) ++
    fractionText (Int.fmod micros 1000000).toNat ++ "+00:00"

end SqlMetrics.Source
