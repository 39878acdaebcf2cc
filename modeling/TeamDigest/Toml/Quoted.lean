import TeamDigest.Text.Numeral

/-!
# Strings of TOML

There are two kinds of quotation marks, and each of them may stand once or three
times.  Between double ones a backslash begins an escape; between single ones it
is a character like any other.  Only strings between three marks may hold line
feeds, and a line feed right after the opening marks does not belong to them.

Each reader gets what follows the opening marks and gives the content and what
follows the closing marks.
-/

namespace TeamDigest.Toml

open Text

/-- A reader of the first part of a text, which gives the rest too. -/
abbrev Reader (α : Type) := List Char → Option (α × List Char)

/-- Holds of the control characters that stand nowhere. -/
def isControl (c : Char) : Bool := (c.toNat < 0x20 && c ≠ '\t') || c.toNat = 0x7F

/-- The character with a number, if there is one. -/
def scalar? (digits : List Char) : Option Char := do
  let n ← digits.foldlM (fun n c => (hexValue? c).map (n * 16 + ·)) 0
  if n < 0xD800 ∨ (0xDFFF < n ∧ n < 0x110000) then some (Char.ofNat n) else none

/-- The character that a short escape stands for. -/
def shortEscape? : Char → Option Char
  | 'b' => some '\x08'
  | 't' => some '\t'
  | 'n' => some '\n'
  | 'f' => some '\x0c'
  | 'r' => some '\r'
  | '"' => some '"'
  | '\\' => some '\\'
  | _ => none

/-- Reads a string between double marks, with its characters so far, last one
first. -/
def basicFrom (done : List Char) : List Char → Option (String × List Char)
  | [] => none
  | '"' :: rest => some (String.ofList done.reverse, rest)
  | '\\' :: 'u' :: a :: b :: c :: d :: rest => do
    let e ← scalar? [a, b, c, d]
    basicFrom (e :: done) rest
  | '\\' :: 'U' :: a :: b :: c :: d :: e :: f :: g :: h :: rest => do
    let i ← scalar? [a, b, c, d, e, f, g, h]
    basicFrom (i :: done) rest
  | '\\' :: c :: rest => do
    let d ← shortEscape? c
    basicFrom (d :: done) rest
  | c :: rest => if isControl c || c = '\\' then none else basicFrom (c :: done) rest

/-- Reads a string between single marks, with its characters so far, last one
first. -/
def literalFrom (done : List Char) : List Char → Option (String × List Char)
  | [] => none
  | '\x27' :: rest => some (String.ofList done.reverse, rest)
  | c :: rest => if isControl c then none else literalFrom (c :: done) rest

/-- Holds when a backslash before the text folds the line. -/
def foldsLine (rest : List Char) : Bool :=
  match rest.dropWhile fun c => c = ' ' || c = '\t' with
  | '\n' :: _ => true
  | '\r' :: '\n' :: _ => true
  | _ => false

/-- Reads a string between three double marks, with its characters so far, last
one first.  A folded line goes on with the next character that is no blank. -/
def longBasicFrom (folding : Bool) (done : List Char) :
    List Char → Option (String × List Char)
  | [] => none
  | '"' :: '"' :: '"' :: '"' :: '"' :: rest =>
    some (String.ofList ('"' :: '"' :: done).reverse, rest)
  | '"' :: '"' :: '"' :: '"' :: rest => some (String.ofList ('"' :: done).reverse, rest)
  | '"' :: '"' :: '"' :: rest => some (String.ofList done.reverse, rest)
  | '\r' :: '\n' :: rest => longBasicFrom folding (if folding then done else '\n' :: done) rest
  | '\n' :: rest => longBasicFrom folding (if folding then done else '\n' :: done) rest
  | '\\' :: 'u' :: a :: b :: c :: d :: rest => do
    let e ← scalar? [a, b, c, d]
    longBasicFrom false (e :: done) rest
  | '\\' :: 'U' :: a :: b :: c :: d :: e :: f :: g :: h :: rest => do
    let i ← scalar? [a, b, c, d, e, f, g, h]
    longBasicFrom false (i :: done) rest
  | '\\' :: c :: rest =>
    if foldsLine (c :: rest) then longBasicFrom true done (c :: rest)
    else do
      let d ← shortEscape? c
      longBasicFrom false (d :: done) rest
  | c :: rest =>
    if isControl c || c = '\\' then none
    else if folding && (c = ' ' || c = '\t') then longBasicFrom true done rest
    else longBasicFrom false (c :: done) rest

/-- Reads a string between three single marks, with its characters so far, last
one first. -/
def longLiteralFrom (done : List Char) : List Char → Option (String × List Char)
  | [] => none
  | '\x27' :: '\x27' :: '\x27' :: '\x27' :: '\x27' :: rest =>
    some (String.ofList ('\x27' :: '\x27' :: done).reverse, rest)
  | '\x27' :: '\x27' :: '\x27' :: '\x27' :: rest =>
    some (String.ofList ('\x27' :: done).reverse, rest)
  | '\x27' :: '\x27' :: '\x27' :: rest => some (String.ofList done.reverse, rest)
  | '\r' :: '\n' :: rest => longLiteralFrom ('\n' :: done) rest
  | '\n' :: rest => longLiteralFrom ('\n' :: done) rest
  | c :: rest => if isControl c then none else longLiteralFrom (c :: done) rest

/-- A text without the line feed at its start. -/
def dropLineFeed : List Char → List Char
  | '\n' :: rest => rest
  | '\r' :: '\n' :: rest => rest
  | rest => rest

/-- Reads a string of any kind, from its opening marks on. -/
def quoted : Reader String
  | '"' :: '"' :: '"' :: rest => longBasicFrom false [] (dropLineFeed rest)
  | '"' :: rest => basicFrom [] rest
  | '\x27' :: '\x27' :: '\x27' :: rest => longLiteralFrom [] (dropLineFeed rest)
  | '\x27' :: rest => literalFrom [] rest
  | _ => none

end TeamDigest.Toml
