import TeamDigest.Text.Blank
import TeamDigest.Text.Numeral
import TeamDigest.Text.Pieces

/-!
# Bullets

A rollup is a list of bullets.  Whatever marks a writer has put in front of the
items, hyphens, asterisks, dots or numbers, each item becomes one line with a
dot in front of it; lines that are no items are left out.  A text without any
item is kept as it is, less the blanks around it.
-/

namespace TeamDigest.Rollup

open Text

/-- The marks that may stand in front of an item, with the space after them. -/
def marks : List (List Char) := [['-', ' '], ['*', ' '], ['•', ' ']]

/-- What may follow the number of an item, with the space after it. -/
def numberMarks : List (List Char) := [['.', ' '], [')', ' ']]

/-- What follows the mark at the start of a line, if there is one. -/
def afterMark? (line : List Char) : Option (List Char) :=
  match marks.findSome? (afterStart? · line) with
  | some content => some content
  | none =>
    let (digits, rest) := spanDigits line
    if digits.isEmpty then none else numberMarks.findSome? (afterStart? · rest)

/-- The content of a line that is an item. -/
def item? (line : List Char) : Option (List Char) :=
  match afterMark? (trim line) with
  | some content => if (trim content).isEmpty then none else some (trim content)
  | none => none

/-- The contents of the items of a text. -/
def items (text : List Char) : List (List Char) :=
  (lines text).filterMap item?

/-- An item with the mark that all of them get. -/
def bullet (content : List Char) : String := "• " ++ String.ofList content

/-- The items of a text as bullets, or the text itself if there are none. -/
def normalize (text : String) : String :=
  match items text.toList with
  | [] => trimmed text
  | found => join "\n" (found.map bullet)

end TeamDigest.Rollup
