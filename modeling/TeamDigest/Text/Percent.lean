import TeamDigest.Text.Numeral

/-!
# Percent coding

Characters that must not stand in some part of an address are written as the
bytes of their UTF-8 form, each as a percent sign and two hexadecimal digits.
-/

namespace TeamDigest.Text

/-- A byte as two hexadecimal digits in upper case. -/
def hexByte (b : UInt8) : List Char :=
  let digits := (hexadecimal b.toNat).map Char.toUpper
  List.replicate (2 - digits.length) '0' ++ digits

/-- The bytes of a character, each with a percent sign. -/
def percentChar (c : Char) : List Char :=
  (String.singleton c).toUTF8.toList.flatMap fun b => '%' :: hexByte b

/-- Writes the characters outside of `keeps` with percent signs. -/
def percentEncode (keeps : Char → Bool) (cs : List Char) : List Char :=
  cs.flatMap fun c => if keeps c then [c] else percentChar c

/-- The characters that stand for themselves in a form. -/
def isFormChar (c : Char) : Bool :=
  isAsciiDigit c || ('a' ≤ c && c ≤ 'z') || ('A' ≤ c && c ≤ 'Z') ||
    c = '*' || c = '-' || c = '.' || c = '_'

/-- A text as it stands in a form; a space becomes a plus sign. -/
def formEncode (cs : List Char) : List Char :=
  cs.flatMap fun c =>
    if isFormChar c then [c] else if c = ' ' then ['+'] else percentChar c

/-- The bytes of a text in which percent signs with two digits stand for bytes. -/
def percentBytes : List Char → List UInt8
  | '%' :: h :: l :: rest =>
    match hexValue? h, hexValue? l with
    | some a, some b => UInt8.ofNat (a * 16 + b) :: percentBytes rest
    | _, _ => '%'.toUInt8 :: percentBytes (h :: l :: rest)
  | c :: rest => (String.singleton c).toUTF8.toList ++ percentBytes rest
  | [] => []

/-- The text that such bytes denote, if they denote any. -/
def percentDecode? (cs : List Char) : Option (List Char) :=
  (String.fromUTF8? ⟨(percentBytes cs).toArray⟩).map String.toList

end TeamDigest.Text
