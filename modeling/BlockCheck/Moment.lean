import BlockCheck.Text.Affix

/-!
# Moments

A moment in universal time, written as date and time of day.
-/

namespace BlockCheck

/-- The microseconds since the beginning of 1970. -/
structure Moment where
  microseconds : Nat

namespace Moment

/-- The number with at least `width` digits. -/
def padded (width n : Nat) : String :=
  let digits := Nat.toDigits 10 n
  String.ofList (List.replicate (width - digits.length) '0' ++ digits)

structure Date where
  year : Nat
  month : Nat
  day : Nat

/-- The date that is so many days after the first of March of year zero. A year counts from March
on, so that the leap day is its last day. -/
def dateOf (days : Nat) : Date :=
  let era := days / 146097
  let dayOfEra := days % 146097
  let yearOfEra := (dayOfEra - dayOfEra / 1460 + dayOfEra / 36524 - dayOfEra / 146096) / 365
  let dayOfYear := dayOfEra - (365 * yearOfEra + yearOfEra / 4 - yearOfEra / 100)
  let fromMarch := (5 * dayOfYear + 2) / 153
  let month := if fromMarch < 10 then fromMarch + 3 else fromMarch - 9
  { year := era * 400 + yearOfEra + (if month ≤ 2 then 1 else 0)
    month := month
    day := dayOfYear - (153 * fromMarch + 2) / 5 + 1 }

/-- The days from the first of March of year zero to the beginning of 1970. -/
def daysBefore1970 : Nat := 719468

def text (m : Moment) : String :=
  let seconds := m.microseconds / 1000000
  let date := dateOf (seconds / 86400 + daysBefore1970)
  let time := seconds % 86400
  Text.join "-" [padded 4 date.year, padded 2 date.month, padded 2 date.day] ++ "T"
    ++ Text.join ":" [padded 2 (time / 3600), padded 2 (time / 60 % 60), padded 2 (time % 60)]
    ++ "." ++ padded 6 (m.microseconds % 1000000) ++ "+00:00"

end Moment

end BlockCheck
