import TeamDigest.Json.Token

/-!
# Reading JSON

The tokens of a text are put together with a stack of the lists and records
that are still open.  One pass over the tokens decides: `Json.read?` gives the
tree of a text that is one value and nothing else.
-/

namespace TeamDigest.Json

/-- A list or a record that is still open, last part first. -/
inductive Frame where
  | items (reversed : List Data)
  | fields (reversed : List (String × Data)) (name : String)

/-- What may come next, with the open lists and records, innermost first. -/
inductive Builder where
  /-- A value. -/
  | value (stack : List Frame)
  /-- A value, or the end of the list that has just begun. -/
  | firstItem (stack : List Frame)
  /-- A name. -/
  | fieldName (fields : List (String × Data)) (stack : List Frame)
  /-- A name, or the end of the record that has just begun. -/
  | firstField (stack : List Frame)
  /-- The colon after a name. -/
  | colon (fields : List (String × Data)) (name : String) (stack : List Frame)
  /-- A comma, or the end of the innermost list or record. -/
  | separator (frame : Frame) (stack : List Frame)
  /-- Nothing. -/
  | done (tree : Data)

namespace Builder

/-- A value is complete. -/
def complete (d : Data) : List Frame → Builder
  | [] => .done d
  | .items ds :: stack => .separator (.items (d :: ds)) stack
  | .fields fs name :: stack => .separator (.fields ((name, d) :: fs) name) stack

/-- The beginning of a value. -/
def open? (stack : List Frame) : Token → Option Builder
  | .scalar d => some (complete d stack)
  | .openList => some (.firstItem stack)
  | .openRecord => some (.firstField stack)
  | _ => none

/-- A name is a string, and one that denotes a text. -/
def name? (fields : List (String × Data)) (stack : List Frame) : Token → Option Builder
  | .scalar (.text name) => some (.colon fields name stack)
  | _ => none

/-- What may come after one more token. -/
def next? : Builder → Token → Option Builder
  | .value stack, t => open? stack t
  | .firstItem stack, .closeList => some (complete (.list []) stack)
  | .firstItem stack, t => open? (.items [] :: stack) t
  | .fieldName fields stack, t => name? fields stack t
  | .firstField stack, .closeRecord => some (complete (.record []) stack)
  | .firstField stack, t => name? [] stack t
  | .colon fields name stack, .colon => some (.value (.fields fields name :: stack))
  | .separator (.items ds) stack, .comma => some (.value (.items ds :: stack))
  | .separator (.items ds) stack, .closeList => some (complete (.list ds.reverse) stack)
  | .separator (.fields fs _) stack, .comma => some (.fieldName fs stack)
  | .separator (.fields fs _) stack, .closeRecord => some (complete (.record fs.reverse) stack)
  | _, _ => none

end Builder

/-- The tree of a text that is one JSON value. -/
def read? (cs : List Char) : Option Data := do
  let tokens ← tokens? cs
  match ← tokens.foldlM Builder.next? (.value []) with
  | .done d => some d
  | _ => none

/-- The tree of a text in which every scalar denotes a value, with the fields of
its records in the order of their names and the last value under each. -/
def readValue? (cs : List Char) : Option Data := do
  let d ← read? cs
  if d.isUsable then some d.canonical else none

end TeamDigest.Json
