import TeamDigest.Data.Basic
import TeamDigest.Text.Numeral
import TeamDigest.Text.Pieces

/-!
# Writing JSON

Trees as compact JSON, without blanks between the tokens.  A number other than
a 64-bit integer is written with the fewest digits that denote the same double:
positionally from `0.00001` up to sixteen digits before the point, and with an
exponent outside of that.
-/

namespace TeamDigest.Json

open Text

/-- The escape of a character inside a string, or the character itself. -/
def escape (c : Char) : List Char :=
  match c with
  | '"' => ['\\', '"']
  | '\\' => ['\\', '\\']
  | '\x08' => ['\\', 'b']
  | '\x0c' => ['\\', 'f']
  | '\n' => ['\\', 'n']
  | '\r' => ['\\', 'r']
  | '\t' => ['\\', 't']
  | _ =>
    if c.toNat < 0x20 then
      let h := hexadecimal c.toNat
      ['\\', 'u'] ++ List.replicate (4 - h.length) '0' ++ h
    else [c]

/-- A text in quotation marks. -/
def quote (s : String) : String :=
  String.ofList ('"' :: (s.toList.flatMap escape ++ ['"']))

/-- A number that is no integer of 64 bits. -/
def decimalText (d : Number.Decimal) : String :=
  match d.toBinary? with
  | none => "null"
  | some b =>
    let (digits, place) := b.shortest
    let ds := numeral digits
    let count : Int := ds.length
    let point := count + place
    let body : List Char :=
      if digits = 0 then ['0', '.', '0']
      else if 0 ≤ place ∧ point ≤ 16 then
        ds ++ List.replicate place.toNat '0' ++ ['.', '0']
      else if 0 < point ∧ point ≤ 16 then
        ds.take point.toNat ++ ['.'] ++ ds.drop point.toNat
      else if -5 < point ∧ point ≤ 0 then
        ['0', '.'] ++ List.replicate (-point).toNat '0' ++ ds
      else
        let power := (signedDecimal (point - 1)).toList
        match ds with
        | [c] => [c, 'e'] ++ power
        | c :: cs => [c, '.'] ++ cs ++ ['e'] ++ power
        | [] => []
    String.ofList (if d.negative then '-' :: body else body)

mutual

/-- The compact text of a tree. -/
def write : Data → String
  | .null => "null"
  | .bool true => "true"
  | .bool false => "false"
  | .integer i => signedDecimal i
  | .decimal d => decimalText d
  | .text s => quote s
  | .list items => "[" ++ join "," (writeItems items) ++ "]"
  | .record fields => "\x7b" ++ join "," (writeFields fields) ++ "\x7d"
  | .unusable => "null"

/-- The compact texts of the items of a list. -/
def writeItems : List Data → List String
  | [] => []
  | d :: ds => write d :: writeItems ds

/-- The compact texts of the fields of a record. -/
def writeFields : List (String × Data) → List String
  | [] => []
  | (name, d) :: rest => (quote name ++ ":" ++ write d) :: writeFields rest

end

end TeamDigest.Json
