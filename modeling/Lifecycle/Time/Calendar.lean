import Lifecycle.Text.Integer

/-!
The calendar: the date of a day counted from 1970-01-01, in the Gregorian calendar continued in both
directions, and the texts of dates and of times of day.
-/

namespace Lifecycle.Time

/-- A date of the calendar. -/
structure Date where
  year : Int
  month : Nat
  day : Nat
deriving DecidableEq, Repr

/-- Days in an era of 400 years. -/
abbrev eraDays : Nat := 146097

/-- The days from 0000-03-01 to 1970-01-01. -/
abbrev epochDay : Int := 719468

/-- The date of a day. Years are counted from March, so that a leap day ends its year, and months by
the rule that five of them have 153 days. -/
def Date.ofDay (day : Int) : Date :=
  let z := day + epochDay
  let era := z.fdiv eraDays
  let dayOfEra := (z.fmod eraDays).toNat
  let yearOfEra := (dayOfEra - dayOfEra / 1460 + dayOfEra / 36524 - dayOfEra / 146096) / 365
  let dayOfYear := dayOfEra - (365 * yearOfEra + yearOfEra / 4 - yearOfEra / 100)
  let m := (5 * dayOfYear + 2) / 153
  let month := if m < 10 then m + 3 else m - 9
  ⟨yearOfEra + era * 400 + (if month ≤ 2 then 1 else 0), month, dayOfYear - (153 * m + 2) / 5 + 1⟩

/-- A year: four digits, and a sign before the year 0 and after the year 9999. -/
def yearText (year : Int) : String :=
  let digits := Text.padded 4 year.natAbs
  if year < 0 then "-" ++ digits else if year ≤ 9999 then digits else "+" ++ digits

def Date.text (d : Date) : String :=
  yearText d.year ++ "-" ++ Text.padded 2 d.month ++ "-" ++ Text.padded 2 d.day

/-- The fraction of a second: 0, 3, 6 or 9 digits, the fewest that are exact. -/
def fractionText (nanos : Nat) : String :=
  if nanos = 0 then ""
  else if nanos % 1000000 = 0 then "." ++ Text.padded 3 (nanos / 1000000)
  else if nanos % 1000 = 0 then "." ++ Text.padded 6 (nanos / 1000)
  else "." ++ Text.padded 9 nanos

/-- A time of day. -/
def clockText (seconds nanos : Nat) : String :=
  Text.padded 2 (seconds / 3600) ++ ":" ++ Text.padded 2 (seconds / 60 % 60) ++ ":" ++
    Text.padded 2 (seconds % 60) ++ fractionText nanos

end Lifecycle.Time
