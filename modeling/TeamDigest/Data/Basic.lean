import TeamDigest.Number.Binary

/-!
# Data trees

What a document holds once it has been read, whatever its notation: scalars,
lists and records.  A record keeps its fields in the order of the document, and
a name may stand in it more than once.

A document may hold a scalar that is well formed and denotes nothing, such as a
number beyond all limits.  It is kept as `Data.unusable`, so that it does harm
only where somebody asks for it.
-/

namespace TeamDigest

/-- A tree of scalars, lists and records. -/
inductive Data where
  | null
  | bool (value : Bool)
  | integer (value : Int)
  /-- A number with a fraction or an exponent, or beyond the 64-bit integers. -/
  | decimal (value : Number.Decimal)
  | text (value : String)
  | list (items : List Data)
  | record (fields : List (String × Data))
  /-- A scalar that denotes no value. -/
  | unusable
  deriving Inhabited

namespace Data

/-- The fields of a record under one name. -/
def named (name : String) (fields : List (String × Data)) : List Data :=
  (fields.filter fun f => f.1 == name).map (·.2)

/-- The value under a name in a record, the last one if there are several. -/
def field? (name : String) : Data → Option Data
  | .record fields => (named name fields).getLast?
  | _ => none

/-- Puts a field in the place that the order of names gives it, and lets it
take the place of one with the same name. -/
def placeField (name : String) (value : Data) : List (String × Data) → List (String × Data)
  | [] => [(name, value)]
  | f :: fs =>
    match compare name f.1 with
    | .lt => (name, value) :: f :: fs
    | .eq => (name, value) :: fs
    | .gt => f :: placeField name value fs

mutual

/-- The tree with the fields of every record in the order of their names, each
name once with the last of its values. -/
def canonical : Data → Data
  | .list items => .list (canonicalItems items)
  | .record fields => .record (canonicalFields fields [])
  | d => d

/-- The items of a list made canonical. -/
def canonicalItems : List Data → List Data
  | [] => []
  | d :: ds => canonical d :: canonicalItems ds

/-- The fields made canonical and put into `done`. -/
def canonicalFields : List (String × Data) → List (String × Data) → List (String × Data)
  | [], done => done
  | (name, d) :: rest, done => canonicalFields rest (placeField name (canonical d) done)

end

mutual

/-- Holds when no scalar of the tree is unusable. -/
def isUsable : Data → Bool
  | .unusable => false
  | .list items => areUsable items
  | .record fields => haveUsable fields
  | _ => true

/-- Holds when all trees of a list are usable. -/
def areUsable : List Data → Bool
  | [] => true
  | d :: ds => isUsable d && areUsable ds

/-- Holds when all fields of a record are usable. -/
def haveUsable : List (String × Data) → Bool
  | [] => true
  | (_, d) :: rest => isUsable d && haveUsable rest

end

mutual

/-- The tree without the fields that hold null. -/
def withoutNulls : Data → Data
  | .list items => .list (itemsWithoutNulls items)
  | .record fields => .record (fieldsWithoutNulls fields)
  | d => d

/-- The items of a list without the fields that hold null. -/
def itemsWithoutNulls : List Data → List Data
  | [] => []
  | d :: ds => withoutNulls d :: itemsWithoutNulls ds

/-- The fields that do not hold null, likewise. -/
def fieldsWithoutNulls : List (String × Data) → List (String × Data)
  | [] => []
  | (_, .null) :: rest => fieldsWithoutNulls rest
  | (name, d) :: rest => (name, withoutNulls d) :: fieldsWithoutNulls rest

end

/-- A text, or null where there is none. -/
def ofText? : Option String → Data
  | some s => .text s
  | none => .null

/-- A value by its own encoding, or null where there is none. -/
def ofOption {α : Type} (encode : α → Data) : Option α → Data
  | some a => encode a
  | none => .null

/-- A natural number. -/
def ofNat (n : Nat) : Data := .integer n

/-- A list of texts. -/
def ofTexts (xs : List String) : Data := .list (xs.map .text)

end Data

end TeamDigest
