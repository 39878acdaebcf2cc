import TeamDigest.Json.Writer

/-!
# Writing TOML

Records become tables: first the fields that hold plain values, one to a line,
then the fields that hold records or lists of records, each under a header of
its own with a blank line before it.  Lists of several values stand with one
value to a line.

A text is written with the marks that need the fewest escapes: between double
ones if it can stand there as it is, else between single ones, else between
three double or three single ones, and with escapes if nothing else helps.
-/

namespace TeamDigest.Toml

open Text

/-! ## Texts -/

/-- Holds of control characters other than tab and line feed. -/
def needsEscape (c : Char) : Bool := (c.toNat < 0x20 && c ≠ '\t' && c ≠ '\n') || c.toNat = 0x7F

/-- The length of the longest run of a character, given the length of the run at
hand and of the longest one so far. -/
def longestRun (c : Char) : Nat → Nat → List Char → Nat
  | _, longest, [] => longest
  | run, longest, d :: ds =>
    if d = c then longestRun c (run + 1) (max longest (run + 1)) ds
    else longestRun c 0 longest ds

/-- A character between double marks. -/
def escaped (c : Char) : List Char :=
  match c with
  | '\x08' => ['\\', 'b']
  | '\t' => ['\\', 't']
  | '\x0c' => ['\\', 'f']
  | '\r' => ['\\', 'r']
  | '\\' => ['\\', '\\']
  | _ =>
    if c.toNat < 0x20 || c.toNat = 0x7F then
      let h := (hexadecimal c.toNat).map Char.toUpper
      ['\\', 'u'] ++ List.replicate (4 - h.length) '0' ++ h
    else [c]

/-- A character between single double marks. -/
def basicChar (c : Char) : List Char :=
  match c with
  | '\n' => ['\\', 'n']
  | '"' => ['\\', '"']
  | _ => escaped c

/-- The characters between three double marks; the third of several double
marks in a row is escaped. -/
def longBasicChars : Nat → List Char → List Char
  | _, [] => []
  | run, c :: cs =>
    if c = '"' then
      if run = 2 then ['\\', '"'] ++ longBasicChars 0 cs else '"' :: longBasicChars (run + 1) cs
    else (if c = '\n' then ['\n'] else escaped c) ++ longBasicChars 0 cs

/-- A text between one double mark on either side. -/
def basic (cs : List Char) : List Char := '"' :: (cs.flatMap basicChar ++ ['"'])

/-- What stands between the opening marks of a long string and its content. -/
def lead (cs : List Char) : List Char := if cs.contains '\n' then ['\n'] else []

/-- A text between three double marks. -/
def longBasic (cs : List Char) : List Char :=
  ['"', '"', '"'] ++ lead cs ++ longBasicChars 0 cs ++ ['"', '"', '"']

/-- A text between single marks. -/
def literal (cs : List Char) : List Char := '\x27' :: (cs ++ ['\x27'])

/-- A text between three single marks. -/
def longLiteral (cs : List Char) : List Char :=
  ['\x27', '\x27', '\x27'] ++ lead cs ++ cs ++ ['\x27', '\x27', '\x27']

/-- A text in the marks that suit it best. -/
def textChars (cs : List Char) : List Char :=
  let escapes := cs.any needsEscape
  let backslash := cs.contains '\\'
  let newline := cs.contains '\n'
  let doubles := longestRun '"' 0 0 cs
  let singles := longestRun '\x27' 0 0 cs
  if !escapes && !backslash && !newline && doubles = 0 then basic cs
  else if !escapes && !newline && singles = 0 then literal cs
  else if !escapes && !backslash && doubles ≤ 2 then longBasic cs
  else if !escapes && singles ≤ 2 then longLiteral cs
  else if newline then longBasic cs
  else basic cs

/-! ## Values -/

/-- Holds of bare keys. -/
def isBareKey (key : String) : Bool :=
  !key.isEmpty && key.toList.all fun c =>
    isAsciiDigit c || ('a' ≤ c && c ≤ 'z') || ('A' ≤ c && c ≤ 'Z') || c = '_' || c = '-'

/-- A key, with marks where it needs them. -/
def keyText (key : String) : String :=
  if isBareKey key then key else String.ofList (textChars key.toList)

/-- The items of a list; several stand one to a line. -/
def listText (items : List String) : String :=
  match items with
  | [] => "[]"
  | [s] => "[" ++ s ++ "]"
  | _ => "[" ++ String.join (items.map fun s => "\n    " ++ s ++ ",") ++ "\n]"

mutual

/-- A value on the right of an equality sign.  Nothing is written as a record
without fields. -/
def valueText : Data → String
  | .null => "\x7b\x7d"
  | .bool true => "true"
  | .bool false => "false"
  | .integer i => signedDecimal i
  | .decimal d => Json.decimalText d
  | .text s => String.ofList (textChars s.toList)
  | .list items => listText (valueTexts items)
  | .record fields =>
    match fieldTexts fields with
    | [] => "\x7b\x7d"
    | texts => "\x7b " ++ join ", " texts ++ " \x7d"
  | .unusable => "nan"

/-- Several values. -/
def valueTexts : List Data → List String
  | [] => []
  | d :: ds => valueText d :: valueTexts ds

/-- Several fields on one line. -/
def fieldTexts : List (String × Data) → List String
  | [] => []
  | (key, d) :: rest => (keyText key ++ " = " ++ valueText d) :: fieldTexts rest

end

/-! ## Tables -/

/-- Holds of records. -/
def isRecord : Data → Bool
  | .record _ => true
  | _ => false

/-- Holds of what gets headers of its own. -/
def isSection : Data → Bool
  | .record _ => true
  | .list (d :: ds) => (d :: ds).all isRecord
  | _ => false

/-- The fields of a table that are plain values, one to a line. -/
def plainLines (fields : List (String × Data)) : String :=
  String.join <| (fields.filter fun f => !isSection f.2).map fun f =>
    keyText f.1 ++ " = " ++ valueText f.2 ++ "\n"

mutual

/-- The sections under a table. -/
def sections (path : String) : List (String × Data) → String
  | [] => ""
  | (key, d) :: rest => sectionText (path ++ keyText key) d ++ sections path rest

/-- One section, or one for each record of a list.  The header of a record goes
without saying where all its fields are sections. -/
def sectionText (path : String) : Data → String
  | .record fields =>
    let lines := plainLines fields
    (if lines = "" && !fields.isEmpty then "" else "\n[" ++ path ++ "]\n" ++ lines) ++
      sections (path ++ ".") fields
  | .list (d :: ds) => if (d :: ds).all isRecord then itemTexts path (d :: ds) else ""
  | _ => ""

/-- One section for each record of a list. -/
def itemTexts (path : String) : List Data → String
  | [] => ""
  | .record fields :: ds =>
    "\n[[" ++ path ++ "]]\n" ++ plainLines fields ++ sections (path ++ ".") fields ++
      itemTexts path ds
  | _ :: ds => itemTexts path ds

end

/-- The document that holds a record.  No blank line stands at its start. -/
def write : Data → String
  | .record fields =>
    let lines := plainLines fields
    if lines = "" then String.ofList ((sections "" fields).toList.drop 1)
    else lines ++ sections "" fields
  | d => valueText d

end TeamDigest.Toml
