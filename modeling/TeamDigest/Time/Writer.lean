import TeamDigest.Text.Numeral
import TeamDigest.Time.Instant

/-!
# Writing dates and times

Dates and instants as text.  A year outside 0 to 9999 carries a sign; a leap
second is written as second 60; the fraction of a second has 0, 3, 6 or 9
digits, the fewest that lose nothing.
-/

namespace TeamDigest.Time

open Text

/-- A number of two digits at least. -/
def twoDigits (n : Nat) : String := String.ofList (padded 2 n)

/-- The year, with four digits at least, and with a sign outside 0 to 9999. -/
def yearText (year : Int) : String :=
  let digits := String.ofList (padded 4 year.natAbs)
  if year < 0 then "-" ++ digits
  else if 9999 < year then "+" ++ digits
  else digits

/-- The date as year, month and day with hyphens between them. -/
def Date.toText (d : Date) : String :=
  yearText d.year ++ "-" ++ twoDigits d.month ++ "-" ++ twoDigits d.day

namespace Instant

/-- The date of the instant. -/
def dateText (t : Instant) : String := t.date.toText

/-- Hour, minute and second with colons between them. -/
def clockText (t : Instant) : String :=
  let s := t.secondOfDay
  twoDigits (s / 3600) ++ ":" ++ twoDigits (s / 60 % 60) ++ ":" ++
    twoDigits (s % 60 + t.nano / giga)

/-- The fraction of the second, with its point, in the fewest groups of three
digits. -/
def fractionText (t : Instant) : String :=
  let n := t.nano % giga
  if n = 0 then ""
  else if n % 1000000 = 0 then "." ++ String.ofList (padded 3 (n / 1000000))
  else if n % 1000 = 0 then "." ++ String.ofList (padded 6 (n / 1000))
  else "." ++ String.ofList (padded 9 n)

/-- The instant up to the offset. -/
def stampText (t : Instant) : String :=
  t.dateText ++ "T" ++ t.clockText ++ t.fractionText

/-- The instant with `Z` for universal time. -/
def toText (t : Instant) : String := t.stampText ++ "Z"

/-- The instant with a numeric offset. -/
def toOffsetText (t : Instant) : String := t.stampText ++ "+00:00"

/-- The instant to the second, with `Z` for universal time. -/
def toSecondText (t : Instant) : String := t.dateText ++ "T" ++ t.clockText ++ "Z"

/-- The month and the day, such as `Jun 07`. -/
def monthDay (t : Instant) : String :=
  let d := t.date
  monthName d.month ++ " " ++ twoDigits d.day

/-- The month, the day and the year, such as `Jun 07, 2024`. -/
def monthDayYear (t : Instant) : String :=
  t.monthDay ++ ", " ++ yearText t.date.year

end Instant

end TeamDigest.Time
