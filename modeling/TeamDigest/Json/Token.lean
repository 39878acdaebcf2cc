import TeamDigest.Data.Basic
import TeamDigest.Number.Word
import TeamDigest.Text.Numeral

/-!
# The tokens of JSON

A scanner that goes over the characters once.  Between two characters it is in
one of a few states: between tokens, inside a word (a number or a name such as
`true`), or inside a string.

A string that escapes half of a surrogate pair denotes no text, and a number
beyond the doubles denotes no number.  Both are well formed all the same and
become `Data.unusable`.
-/

namespace TeamDigest.Json

open Text

/-- The tokens of JSON. -/
inductive Token where
  | openList
  | closeList
  | openRecord
  | closeRecord
  | colon
  | comma
  | scalar (value : Data)

/-- What a string holds so far, last character first. -/
structure Quoted where
  reversed : List Char := []
  /-- The first half of a surrogate pair whose second half has to follow. -/
  high : Option Nat := none
  /-- No half of a surrogate pair was left alone. -/
  whole : Bool := true

namespace Quoted

/-- A half of a surrogate pair that waits for its partner stays alone. -/
def settle (q : Quoted) : Quoted :=
  match q.high with
  | none => q
  | some _ => { q with high := none, whole := false }

/-- The string with one more character. -/
def push (q : Quoted) (c : Char) : Quoted :=
  let q := q.settle
  { q with reversed := c :: q.reversed }

/-- The string with one more unit of sixteen bits. -/
def pushUnit (q : Quoted) (unit : Nat) : Quoted :=
  if 0xD800 ≤ unit ∧ unit < 0xDC00 then { q.settle with high := some unit }
  else if 0xDC00 ≤ unit ∧ unit < 0xE000 then
    match q.high with
    | some high =>
      let c := Char.ofNat (0x10000 + (high - 0xD800) * 0x400 + (unit - 0xDC00))
      { q with reversed := c :: q.reversed, high := none }
    | none => { q with whole := false }
  else q.push (Char.ofNat unit)

/-- The scalar that the finished string denotes. -/
def scalar (q : Quoted) : Data :=
  let q := q.settle
  if q.whole then .text (String.ofList q.reversed.reverse) else .unusable

end Quoted

/-- Where the scanner stands. -/
inductive Scanner where
  | between
  | word (reversed : List Char)
  | quoted (q : Quoted)
  | escaped (q : Quoted)
  /-- Inside an escape with four digits, of which some have been read. -/
  | hexadecimal (q : Quoted) (read value : Nat)

/-- Splits digits off a number. -/
def digits? (cs : List Char) : Option (List Char × List Char) :=
  let (ds, rest) := spanDigits cs
  if ds.isEmpty then none else some (ds, rest)

/-- The exponent at the end of a number, zero if there is none. -/
def exponent? : List Char → Option Int
  | [] => some 0
  | e :: cs =>
    if e = 'e' ∨ e = 'E' then
      let (negative, cs) : Bool × List Char := match cs with
        | '-' :: rest => (true, rest)
        | '+' :: rest => (false, rest)
        | _ => (false, cs)
      match digits? cs with
      | some (ds, []) => some (if negative then -(numeralValue ds : Int) else numeralValue ds)
      | _ => none
    else none

/-- The scalar that a number denotes.  Integers of 64 bits, with or without a
sign, are exact; all other numbers are decimals. -/
def number? (cs : List Char) : Option Data := do
  let (negative, cs) : Bool × List Char := match cs with
    | '-' :: rest => (true, rest)
    | _ => (false, cs)
  let (whole, rest) ← digits? cs
  if 1 < whole.length ∧ whole.head? = some '0' then none
  let n := numeralValue whole
  let limit := if negative then Number.wordSize64 / 2 + 1 else Number.wordSize64
  if rest.isEmpty ∧ n < limit ∧ ¬ (negative ∧ n = 0) then
    some (.integer (if negative then -(n : Int) else n))
  else
    let (fraction, rest) ← match rest with
      | '.' :: rest => digits? rest
      | _ => some ([], rest)
    let exponent ← exponent? rest
    let d : Number.Decimal :=
      ⟨negative, numeralValue (whole ++ fraction), exponent - fraction.length⟩
    some (if d.toBinary?.isSome then .decimal d else .unusable)

/-- The scalar that a word denotes. -/
def word? (cs : List Char) : Option Data :=
  match String.ofList cs with
  | "null" => some .null
  | "true" => some (.bool true)
  | "false" => some (.bool false)
  | _ => number? cs

/-- Holds of the blanks of JSON. -/
def isSpace (c : Char) : Bool := c = ' ' || c = '\n' || c = '\t' || c = '\r'

/-- What the first character after a token begins. -/
def begin (c : Char) : Option Token × Scanner :=
  if isSpace c then (none, .between)
  else match c with
    | '[' => (some .openList, .between)
    | ']' => (some .closeList, .between)
    | '\x7b' => (some .openRecord, .between)
    | '\x7d' => (some .closeRecord, .between)
    | ':' => (some .colon, .between)
    | ',' => (some .comma, .between)
    | '"' => (none, .quoted {})
    | _ => (none, .word [c])

/-- Holds of the characters that end a word. -/
def endsWord (c : Char) : Bool :=
  isSpace c || c = '[' || c = ']' || c = '\x7b' || c = '\x7d' || c = ':' || c = ',' || c = '"'

/-- The character that a short escape stands for. -/
def shortEscape? : Char → Option Char
  | '"' => some '"'
  | '\\' => some '\\'
  | '/' => some '/'
  | 'b' => some '\x08'
  | 'f' => some '\x0c'
  | 'n' => some '\n'
  | 'r' => some '\r'
  | 't' => some '\t'
  | _ => none

/-- The tokens of the characters that follow, given where the scanner stands,
after the tokens found so far, which stand last one first. -/
def scan : Scanner → List Token → List Char → Option (List Token)
  | .between, found, [] => some found.reverse
  | .word w, found, [] => do
    let d ← word? w.reverse
    some (.scalar d :: found).reverse
  | _, _, [] => none
  | .between, found, c :: cs =>
    let (token, next) := begin c
    scan next (token.toList ++ found) cs
  | .word w, found, c :: cs =>
    if endsWord c then do
      let d ← word? w.reverse
      let (token, next) := begin c
      scan next (token.toList ++ .scalar d :: found) cs
    else scan (.word (c :: w)) found cs
  | .quoted q, found, c :: cs =>
    if c = '"' then scan .between (.scalar q.scalar :: found) cs
    else if c = '\\' then scan (.escaped q) found cs
    else if c.toNat < 0x20 then none
    else scan (.quoted (q.push c)) found cs
  | .escaped q, found, c :: cs =>
    if c = 'u' then scan (.hexadecimal q 0 0) found cs
    else do
      let d ← shortEscape? c
      scan (.quoted (q.push d)) found cs
  | .hexadecimal q read value, found, c :: cs => do
    let digit ← hexValue? c
    let value := value * 16 + digit
    if read = 3 then scan (.quoted (q.pushUnit value)) found cs
    else scan (.hexadecimal q (read + 1) value) found cs

/-- The tokens of a text. -/
def tokens? (cs : List Char) : Option (List Token) := scan .between [] cs

end TeamDigest.Json
