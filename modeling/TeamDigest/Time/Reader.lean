import TeamDigest.Text.Blank
import TeamDigest.Text.Numeral
import TeamDigest.Time.Instant

/-!
# Reading dates and times

Three grammars share their parts:

* `Instant.read?` reads a date, a time and an offset, leniently: any blanks may
  stand before a number or a mark, and `t`, `T` or a space separates the two
  halves;
* `Instant.readTracker?` reads the stamps of issue trackers, with `T` between
  the halves and a numeric offset;
* `Date.read?` reads a bare date.

A number takes at most as many digits as its field has; a year with a sign may
have more than four.  A fraction of a second keeps nine digits.
-/

namespace TeamDigest.Time

open Text

namespace Reader

/-- One to `width` digits, after any blanks. -/
def number? (width : Nat) (cs : List Char) : Option (Nat × List Char) :=
  let cs := trimStart cs
  let digits := (cs.take width).takeWhile isAsciiDigit
  if digits.isEmpty then none
  else some (numeralValue digits, cs.drop digits.length)

/-- A year: four digits at most, or any number of them after a sign. -/
def year? (cs : List Char) : Option (Int × List Char) :=
  match trimStart cs with
  | '-' :: rest => do
    let (n, rest) ← signed? rest
    some (-(n : Int), rest)
  | '+' :: rest => do
    let (n, rest) ← signed? rest
    some (n, rest)
  | rest => do
    let (n, rest) ← number? 4 rest
    some (n, rest)
where
  /-- The digits after a sign. -/
  signed? (cs : List Char) : Option (Nat × List Char) :=
    let (digits, rest) := spanDigits cs
    if digits.isEmpty then none else some (numeralValue digits, rest)

/-- The character `c` itself. -/
def mark? (c : Char) : List Char → Option (List Char)
  | d :: rest => if d = c then some rest else none
  | [] => none

/-- A fraction of a second in nanoseconds, zero if there is none; digits after
the ninth are dropped. -/
def fraction? : List Char → Option (Nat × List Char)
  | '.' :: rest =>
    let (digits, rest) := spanDigits rest
    if digits.isEmpty then none
    else
      let kept := digits.take 9
      some (numeralValue kept * Nat.pow 10 (9 - kept.length), rest)
  | cs => some (0, cs)

/-- A numeric offset in seconds: a sign, two digits for the hours, colons or
blanks if any, and two digits for the minutes. -/
def offset? : List Char → Option (Int × List Char)
  | sign :: h₁ :: h₂ :: rest => do
    let negative ←
      if sign = '+' then some false
      else if sign = '-' ∨ sign = '\u2212' then some true
      else none
    if ¬ (isAsciiDigit h₁ ∧ isAsciiDigit h₂) then none
    match rest.dropWhile (fun c => c = ':' || isBlank c) with
    | m₁ :: m₂ :: rest =>
      if ¬ (isAsciiDigit m₁ ∧ isAsciiDigit m₂) ∨ 6 ≤ digitValue m₁ then none
      let seconds : Int := numeralValue [h₁, h₂] * 3600 + numeralValue [m₁, m₂] * 60
      some (if negative then -seconds else seconds, rest)
    | _ => none
  | _ => none

/-- A time zone: `Z`, `UTC` in letters of any case, or a numeric offset. -/
def zone? : List Char → Option (Int × List Char)
  | 'Z' :: rest => some (0, rest)
  | 'z' :: rest => some (0, rest)
  | c₁ :: c₂ :: c₃ :: rest =>
    if c₁.toUpper = 'U' ∧ c₂.toUpper = 'T' ∧ c₃.toUpper = 'C' then some (0, rest)
    else offset? (c₁ :: c₂ :: c₃ :: rest)
  | _ => none

end Reader

/-- A date and a time of day as they are written, with the offset of the
writer's clock in seconds. -/
structure Reading where
  date : Date
  hour : Nat
  minute : Nat
  second : Nat
  nano : Nat
  offset : Int

namespace Reading

/-- Holds when every field has a value of the calendar or of the clock.  The
sixtieth second is a leap second. -/
def isPossible (r : Reading) : Bool :=
  r.date.exists? && firstYear ≤ r.date.year && r.date.year ≤ lastYear &&
    r.hour ≤ 23 && r.minute ≤ 59 && r.second ≤ 60 && r.offset.natAbs < 86400

/-- The instant that is meant. -/
def instant? (r : Reading) : Option Instant :=
  if r.isPossible then
    let leap := r.second == 60
    let second := if leap then 59 else r.second
    let t : Instant :=
      { second := r.date.dayNumber * daySeconds +
          ((r.hour * 3600 + r.minute * 60 + second : Nat) : Int) - r.offset
        nano := if leap then r.nano + giga else r.nano }
    if t.inCalendar then some t else none
  else none

end Reading

open Reader

/-- Reads an instant in the lenient grammar. -/
def Instant.read? (text : List Char) : Option Instant := do
  let (year, cs) ← year? text
  let cs ← mark? '-' (trimStart cs)
  let (month, cs) ← number? 2 cs
  let cs ← mark? '-' (trimStart cs)
  let (day, cs) ← number? 2 cs
  let cs ← match cs with
    | 't' :: rest => some rest
    | 'T' :: rest => some rest
    | ' ' :: rest => some rest
    | _ => none
  let (hour, cs) ← number? 2 cs
  let cs ← mark? ':' (trimStart cs)
  let (minute, cs) ← number? 2 cs
  let cs ← mark? ':' (trimStart cs)
  let (second, cs) ← number? 2 cs
  let (nano, cs) ← fraction? cs
  let (offset, cs) ← zone? (trimStart cs)
  if (trimStart cs).isEmpty then
    Reading.instant? ⟨⟨year, month, day⟩, hour, minute, second, nano, offset⟩
  else none

/-- Reads an instant in the grammar of issue trackers, such as
`2024-01-15T10:30:00.000+0000`. -/
def Instant.readTracker? (text : List Char) : Option Instant := do
  let (year, cs) ← year? text
  let cs ← mark? '-' cs
  let (month, cs) ← number? 2 cs
  let cs ← mark? '-' cs
  let (day, cs) ← number? 2 cs
  let cs ← mark? 'T' cs
  let (hour, cs) ← number? 2 cs
  let cs ← mark? ':' cs
  let (minute, cs) ← number? 2 cs
  let cs ← mark? ':' cs
  let (second, cs) ← number? 2 cs
  let (nano, cs) ← fraction? cs
  let (offset, cs) ← offset? (trimStart cs)
  if cs.isEmpty then
    Reading.instant? ⟨⟨year, month, day⟩, hour, minute, second, nano, offset⟩
  else none

/-- Reads a bare date, such as `2024-01-15`. -/
def Date.read? (text : List Char) : Option Date := do
  let (year, cs) ← year? text
  let cs ← mark? '-' cs
  let (month, cs) ← number? 2 cs
  let cs ← mark? '-' cs
  let (day, cs) ← number? 2 cs
  let d : Date := ⟨year, month, day⟩
  if cs.isEmpty && d.exists? && firstYear ≤ year && year ≤ lastYear then some d else none

/-- Reads a bare date as the instant at which it begins. -/
def Instant.readDate? (text : List Char) : Option Instant :=
  (Date.read? text).map Instant.startOf

end TeamDigest.Time
