/-!
# Calendar dates

The proleptic Gregorian calendar.  A day is counted from 1970-01-01; `Date.ofDay` finds its date
by counting from a first of March, so that the leap day is the last day of a year, in eras of 400
years, which all have the same number of days.
-/

namespace CrudUi

/-- A date.  The year 0 is the one before the year 1. -/
structure Date where
  year : Int
  month : Nat
  day : Nat
  deriving DecidableEq, Repr

namespace Date

/-- The number of days in 400 years. -/
def daysInEra : Nat := 146097

/-- The number of days from 0000-03-01 to 1970-01-01. -/
def daysToEpoch : Int := 719468

/-- The date of a day. -/
def ofDay (n : Int) : Date :=
  let shifted := n + daysToEpoch
  let era := shifted.fdiv daysInEra
  let dayOfEra := (shifted.fmod daysInEra).toNat
  let yearOfEra :=
    (dayOfEra - dayOfEra / 1460 + dayOfEra / 36524 - dayOfEra / 146096) / 365
  let dayOfYear := dayOfEra - (365 * yearOfEra + yearOfEra / 4 - yearOfEra / 100)
  let monthFromMarch := (5 * dayOfYear + 2) / 153
  let month := if monthFromMarch < 10 then monthFromMarch + 3 else monthFromMarch - 9
  let year := 400 * era + yearOfEra
  { year := if month ≤ 2 then year + 1 else year
    month
    day := dayOfYear - (153 * monthFromMarch + 2) / 5 + 1 }

/-- The digits of a number, with zeros in front up to a width. -/
def padded (width n : Nat) : String :=
  let digits := Nat.toDigits 10 n
  String.ofList (List.replicate (width - digits.length) '0' ++ digits)

/-- A year with at least four digits and, before the year 0 or beyond 9999, its sign. -/
def yearText (year : Int) : String :=
  (if year < 0 then "-" else if 9999 < year then "+" else "") ++ padded 4 year.natAbs

/-- A date as year, month and day with dashes between them. -/
def text (date : Date) : String :=
  yearText date.year ++ "-" ++ padded 2 date.month ++ "-" ++ padded 2 date.day

/-- The first moment of a date in universal time. -/
def midnightText (date : Date) : String :=
  date.text ++ "T00:00:00Z"

end Date

end CrudUi
