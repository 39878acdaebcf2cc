import TeamDigest.Data.Basic
import TeamDigest.Number.Word
import TeamDigest.Text.Pieces
import TeamDigest.Time.Calendar

/-!
# Bare scalars of TOML

Truth values, numbers, dates and times: scalars that stand without quotation
marks.  An underscore may stand between two digits.
-/

namespace TeamDigest.Toml

open Text

/-- Holds of the characters of bare scalars. -/
def isWordChar (c : Char) : Bool :=
  isAsciiDigit c || ('a' ≤ c && c ≤ 'z') || ('A' ≤ c && c ≤ 'Z') ||
    c = '_' || c = '+' || c = '-' || c = '.' || c = ':'

/-- The digits of a numeral in which underscores may stand between digits. -/
def digits? (isDigit : Char → Bool) (cs : List Char) : Option (List Char) :=
  let groups := cut '_' cs
  if groups.all fun g => !g.isEmpty && g.all isDigit then some groups.flatten else none

/-- The value of digits in some base. -/
def valueIn (base : Nat) (ds : List Char) : Nat :=
  ds.foldl (fun n c => n * base + (hexValue? c).getD 0) 0

/-- Splits an optional sign off; the flag tells of a minus sign. -/
def splitSign : List Char → Bool × List Char
  | '-' :: rest => (true, rest)
  | '+' :: rest => (false, rest)
  | cs => (false, cs)

/-- The digits of a decimal numeral without needless zeros in front. -/
def wholeDigits? (cs : List Char) : Option (List Char) := do
  let ds ← digits? isAsciiDigit cs
  if ds.head? = some '0' ∧ 1 < ds.length then none else some ds

/-- An integer of 64 bits. -/
def int64? (i : Int) : Option Data :=
  if Number.signedLeast64 ≤ i ∧ i ≤ Number.signedGreatest64 then some (.integer i) else none

/-- Holds of the digits of a base up to sixteen. -/
def isDigitOf (base : Nat) (c : Char) : Bool :=
  match hexValue? c with
  | some d => d < base
  | none => false

/-- The value of an integer. -/
def integer? (cs : List Char) : Option Data :=
  let based (base : Nat) (ds : List Char) : Option Data := do
    let ds ← digits? (isDigitOf base) ds
    int64? (valueIn base ds)
  match cs with
  | '0' :: 'x' :: ds => based 16 ds
  | '0' :: 'o' :: ds => based 8 ds
  | '0' :: 'b' :: ds => based 2 ds
  | _ => do
    let (negative, cs) := splitSign cs
    let ds ← wholeDigits? cs
    let n := valueIn 10 ds
    int64? (if negative then -(n : Int) else n)

/-- The exponent of a number, zero if there is none. -/
def exponent? : List Char → Option Int
  | [] => some 0
  | e :: cs =>
    if e = 'e' ∨ e = 'E' then do
      let (negative, cs) := splitSign cs
      let ds ← digits? isAsciiDigit cs
      let n := valueIn 10 ds
      some (if negative then -(n : Int) else n)
    else none

/-- The digits after the point and what follows them. -/
def fraction? : List Char → Option (List Char × List Char)
  | '.' :: cs => do
    let ds ← digits? isAsciiDigit (cs.takeWhile fun c => isAsciiDigit c || c = '_')
    some (ds, cs.dropWhile fun c => isAsciiDigit c || c = '_')
  | cs => some ([], cs)

/-- The value of a number with a fraction or an exponent, or of one of the names
that stand for no number. -/
def decimal? (cs : List Char) : Option Data := do
  let (negative, cs) := splitSign cs
  if String.ofList cs ∈ ["inf", "nan"] then some .unusable
  else
    let whole ← wholeDigits? (cs.takeWhile fun c => isAsciiDigit c || c = '_')
    let rest := cs.dropWhile fun c => isAsciiDigit c || c = '_'
    let (fraction, rest) ← fraction? rest
    let exponent ← exponent? rest
    let d : Number.Decimal := ⟨negative, valueIn 10 (whole ++ fraction), exponent - fraction.length⟩
    if d.toBinary?.isSome then some (.decimal d)
    else if negative then some .unusable
    else none

/-- The value of exactly `n` digits at the start, and what follows them. -/
def fixed? (n : Nat) (cs : List Char) : Option (Nat × List Char) :=
  let ds := cs.take n
  if ds.length = n && ds.all isAsciiDigit then some (numeralValue ds, cs.drop n) else none

/-- What follows the mark `c`. -/
def mark? (c : Char) : List Char → Option (List Char)
  | d :: rest => if d = c then some rest else none
  | [] => none

/-- What follows a date at the start of a text. -/
def afterDate? (cs : List Char) : Option (List Char) := do
  let (year, cs) ← fixed? 4 cs
  let cs ← mark? '-' cs
  let (month, cs) ← fixed? 2 cs
  let cs ← mark? '-' cs
  let (day, cs) ← fixed? 2 cs
  if Time.Date.exists? ⟨year, month, day⟩ then some cs else none

/-- What follows a time of day at the start of a text. -/
def afterTime? (cs : List Char) : Option (List Char) := do
  let (hour, cs) ← fixed? 2 cs
  let cs ← mark? ':' cs
  let (minute, cs) ← fixed? 2 cs
  let cs ← mark? ':' cs
  let (second, cs) ← fixed? 2 cs
  if 23 < hour ∨ 59 < minute ∨ 60 < second then none
  match cs with
  | '.' :: cs =>
    let (ds, rest) := spanDigits cs
    if ds.isEmpty then none else some rest
  | _ => some cs

/-- Holds of the offsets of clocks, and of none at all. -/
def isOffset (cs : List Char) : Bool :=
  match cs with
  | [] => true
  | [c] => c = 'Z' || c = 'z'
  | sign :: cs =>
    (sign = '+' || sign = '-') &&
      match fixed? 2 cs with
      | some (hour, ':' :: cs) =>
        match fixed? 2 cs with
        | some (minute, []) => hour ≤ 23 && minute ≤ 59
        | _ => false
      | _ => false

/-- Holds of dates, of times of day, and of dates with a time of day and
possibly an offset. -/
def isMoment (cs : List Char) : Bool :=
  match afterDate? cs with
  | some [] => true
  | some (c :: rest) =>
    (c = 'T' || c = 't' || c = ' ') &&
      match afterTime? rest with
      | some offset => isOffset offset
      | none => false
  | none =>
    match afterTime? cs with
    | some [] => true
    | _ => false

/-- The value of a bare scalar. -/
def bare? (cs : List Char) : Option Data :=
  if String.ofList cs = "true" then some (.bool true)
  else if String.ofList cs = "false" then some (.bool false)
  else if isMoment cs then some (.record [("date-time", .text (String.ofList cs))])
  else (integer? cs).or (decimal? cs)

/-- Reads a bare scalar.  A space may stand between a date and a time. -/
def bare (cs : List Char) : Option (Data × List Char) := do
  let word := cs.takeWhile isWordChar
  let rest := cs.dropWhile isWordChar
  match rest with
  | ' ' :: c :: _ =>
    if afterDate? word = some [] && isAsciiDigit c then
      let time := (rest.drop 1).takeWhile isWordChar
      let d ← bare? (word ++ ' ' :: time)
      some (d, (rest.drop 1).dropWhile isWordChar)
    else do
      let d ← bare? word
      some (d, rest)
  | _ =>
    let d ← bare? word
    some (d, rest)

end TeamDigest.Toml
