import TeamDigest.Toml.Quoted
import TeamDigest.Toml.Scalar
import TeamDigest.Toml.Table

/-!
# Reading TOML

A document is read line by line.  A line is empty, opens a table, or gives a
value to a key; a comment may stand at the end of each.
-/

namespace TeamDigest.Toml

open Text

/-- Without the spaces and tabs at the start. -/
def dropSpace (cs : List Char) : List Char := cs.dropWhile fun c => c = ' ' || c = '\t'

/-- What follows a comment: the end of the line, which belongs to it no more. -/
def afterComment? : List Char → Option (List Char)
  | [] => some []
  | '\n' :: rest => some ('\n' :: rest)
  | '\r' :: '\n' :: rest => some ('\r' :: '\n' :: rest)
  | c :: rest => if isControl c then none else afterComment? rest

/-- What follows the end of a line, before which a comment may stand. -/
def afterLine? (cs : List Char) : Option (List Char) := do
  let cs := dropSpace cs
  let cs ← match cs with
    | '#' :: rest => afterComment? rest
    | _ => some cs
  match cs with
  | [] => some []
  | '\n' :: rest => some rest
  | '\r' :: '\n' :: rest => some rest
  | _ => none

/-- What follows spaces, line ends and comments. -/
def afterBlank? (inComment : Bool) : List Char → Option (List Char)
  | [] => some []
  | '\r' :: '\n' :: rest => afterBlank? false rest
  | '\n' :: rest => afterBlank? false rest
  | c :: rest =>
    if inComment then (if isControl c then none else afterBlank? true rest)
    else if c = ' ' || c = '\t' then afterBlank? false rest
    else if c = '#' then afterBlank? true rest
    else some (c :: rest)

/-! ## Keys -/

/-- Holds of the characters of bare keys. -/
def isKeyChar (c : Char) : Bool :=
  isAsciiDigit c || ('a' ≤ c && c ≤ 'z') || ('A' ≤ c && c ≤ 'Z') || c = '_' || c = '-'

/-- Reads one part of a key. -/
def keyPart : Reader String
  | '"' :: rest => basicFrom [] rest
  | '\x27' :: rest => literalFrom [] rest
  | cs =>
    let key := cs.takeWhile isKeyChar
    if key.isEmpty then none else some (String.ofList key, cs.dropWhile isKeyChar)

/-- How many parts a key has at most, and how deep values are nested at most. -/
def depthLimit : Nat := 79

/-- Reads a key of at most `parts` parts, as the way to its last part and the
last part. -/
def keyPath : Nat → Reader (List String × String)
  | 0, _ => none
  | parts + 1, cs => do
    let (key, rest) ← keyPart (dropSpace cs)
    match dropSpace rest with
    | '.' :: rest => do
      let ((path, last), rest) ← keyPath parts rest
      some ((key :: path, last), rest)
    | rest => some (([], key), rest)

/-! ## Values -/

/-- Reads the items of a list and its closing bracket; there are no more items
than `bound`. -/
def listItems (item : Reader Data) : Nat → List Data → Reader (List Data)
  | bound, done, cs => do
    match ← afterBlank? false cs with
    | ']' :: rest => some (done.reverse, rest)
    | cs =>
      match bound with
      | 0 => none
      | bound + 1 => do
        let (d, rest) ← item cs
        match ← afterBlank? false rest with
        | ',' :: rest => listItems item bound (d :: done) rest
        | ']' :: rest => some ((d :: done).reverse, rest)
        | _ => none

/-- Reads a key, an equality sign and a value into a table. -/
def keyValue (item : Reader Data) (t : Table) : Reader Table := fun cs => do
  let ((path, key), rest) ← keyPath depthLimit cs
  match rest with
  | '=' :: rest =>
    let (d, rest) ← item (dropSpace rest)
    let t ← t.add path key d
    some (t, rest)
  | _ => none

/-- Reads the entries of a table in braces and its closing brace; there are no
more entries than `bound`. -/
def tableItems (item : Reader Data) : Nat → Table → Reader Table
  | 0, _, _ => none
  | bound + 1, t, cs => do
    let (t, rest) ← keyValue item t cs
    match dropSpace rest with
    | ',' :: rest => tableItems item bound t rest
    | '\x7d' :: rest => some (t, rest)
    | _ => none

/-- Reads a value in which lists and tables are nested at most `depth` deep. -/
def value : Nat → Reader Data
  | 0, cs =>
    match quoted cs with
    | some (s, rest) => some (.text s, rest)
    | none => bare cs
  | depth + 1, cs =>
    match cs with
    | '[' :: rest => do
      let (items, rest) ← listItems (value depth) rest.length [] rest
      some (.list items, rest)
    | '\x7b' :: rest =>
      match dropSpace rest with
      | '\x7d' :: rest => some (.record [], rest)
      | _ => do
        let (t, rest) ← tableItems (value depth) rest.length .root rest
        some (t.data, rest)
    | _ =>
      match quoted cs with
      | some (s, rest) => some (.text s, rest)
      | none => bare cs

/-! ## Documents -/

/-- The table of a document so far, with the way to the table that is open. -/
structure Draft where
  table : Table
  path : List String

/-- Reads a line that holds something. -/
def line (d : Draft) : Reader Draft
  | '[' :: '[' :: rest => do
    let ((path, key), rest) ← keyPath depthLimit rest
    let rest ← afterStart? [']', ']'] rest
    let t ← d.table.openItem path key
    some (⟨t, path ++ [key]⟩, rest)
  | '[' :: rest => do
    let ((path, key), rest) ← keyPath depthLimit rest
    let rest ← mark? ']' rest
    let t ← d.table.openTable path key
    some (⟨t, path ++ [key]⟩, rest)
  | cs => do
    let ((path, key), rest) ← keyPath depthLimit cs
    let rest ← mark? '=' rest
    let (v, rest) ← value depthLimit (dropSpace rest)
    let t ← d.table.descend .passage (Table.add path key v) d.path
    some (⟨t, d.path⟩, rest)

/-- Reads the lines of a document, of which there are at most `bound`. -/
def document : Nat → Draft → List Char → Option Table
  | bound, d, cs =>
    match dropSpace cs with
    | [] => some d.table
    | c :: rest =>
      match bound with
      | 0 => none
      | bound + 1 =>
        if c = '\n' || c = '\r' || c = '#' then do
          let rest ← afterLine? (c :: rest)
          document bound d rest
        else do
          let (d, rest) ← line d (c :: rest)
          let rest ← afterLine? rest
          document bound d rest

/-- The tree of a document.  A byte order mark at its start is no part of it. -/
def read? (s : String) : Option Data := do
  let cs := match s.toList with
    | '\uFEFF' :: rest => rest
    | cs => cs
  let t ← document cs.length ⟨.root, []⟩ cs
  some t.data

end TeamDigest.Toml
