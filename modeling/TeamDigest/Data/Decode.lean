import TeamDigest.Data.Basic
import TeamDigest.Number.Word
import TeamDigest.Time.Reader

/-!
# Decoding data trees

A decoder reads a value of one type from a data tree or refuses it.  Structures
are read field by field with the `Fields` monad, from a record by name or from
a list by position; the fields of a list stand in the order in which the
structure declares them.

There are three kinds of field:

* a *required* one has to be there;
* an *optional* one may be missing from a record or null;
* a *defaulted* one may be missing from a record, and from the end of a list,
  but is not null.

Fields with other names are ignored, and a known name may not stand twice.
-/

namespace TeamDigest

/-- A reader of values of one type. -/
abbrev Decode (α : Type) := Data → Option α

namespace Decode

/-- A text. -/
def text : Decode String
  | .text s => some s
  | _ => none

/-- A truth value. -/
def bool : Decode Bool
  | .bool b => some b
  | _ => none

/-- An integer from `low` to `high`. -/
def integerIn (low high : Int) : Decode Int
  | .integer i => if low ≤ i ∧ i ≤ high then some i else none
  | _ => none

/-- A natural number of 32 bits. -/
def nat32 : Decode Nat := fun d => (integerIn 0 (Number.wordSize32 - 1) d).map Int.toNat

/-- A natural number of 64 bits. -/
def nat64 : Decode Nat := fun d => (integerIn 0 (Number.wordSize64 - 1) d).map Int.toNat

/-- An integer of 64 bits. -/
def int64 : Decode Int := integerIn Number.signedLeast64 Number.signedGreatest64

/-- A number with the precision of a double, rounded to a whole number that
fits 32 bits; what lies below or above them is cut off. -/
def rounded32 : Decode Nat
  | .integer i => some (cap i.toNat)
  | .decimal d => do
    let b ← d.toBinary?
    some (if d.negative then 0 else cap b.rounded)
  | _ => none
where
  /-- The greatest number of 32 bits in place of greater ones. -/
  cap (n : Nat) : Nat := min n (Number.wordSize32 - 1)

/-- An instant in the lenient notation. -/
def instant : Decode Time.Instant
  | .text s => Time.Instant.read? s.toList
  | _ => none

/-- Null or a value. -/
def nullable {α : Type} (decode : Decode α) : Decode (Option α)
  | .null => some none
  | d => (decode d).map some

/-- The values of a list, all of them or none. -/
def list {α : Type} (decode : Decode α) : Decode (List α)
  | .list items => items.mapM decode
  | _ => none

/-- The values of a record under their names. -/
def table {α : Type} (decode : Decode α) : Decode (List (String × α))
  | .record fields => fields.mapM fun f => (decode f.2).map (f.1, ·)
  | _ => none

/-- One of finitely many values by its name; a record of that name alone, with
null under it, means the same. -/
def choice {α : Type} (names : List (String × α)) : Decode α
  | .text s => names.lookup s
  | .record [(s, .null)] => names.lookup s
  | _ => none

end Decode

/-- The fields of a structure that is being read. -/
inductive FieldSource where
  /-- All fields, under their names. -/
  | named (fields : List (String × Data))
  /-- The fields that are still to be read. -/
  | placed (items : List Data)

/-- Readers of some fields of a structure. -/
abbrev Fields (α : Type) := StateT FieldSource Option α

namespace Fields

/-- The data of one field, if there are any. -/
def take (name : String) : Fields (Option Data) := fun source =>
  match source with
  | .named fields =>
    match Data.named name fields with
    | [] => some (none, source)
    | [d] => some (some d, source)
    | _ => none
  | .placed [] => some (none, source)
  | .placed (d :: ds) => some (some d, .placed ds)

/-- A field that has to be there. -/
def required {α : Type} (name : String) (decode : Decode α) : Fields α := do
  match ← take name with
  | some d => decode d
  | none => failure

theorem bind_apply {α β : Type} (reader : Fields α) (next : α → Fields β) (source : FieldSource) :
    (reader >>= next) source = (reader source).bind fun p => next p.1 p.2 := rfl

/-- A field that stands in a record once is read there. -/
theorem required_named {α : Type} {name : String} {fields : List (String × Data)} {d : Data}
    (decode : Decode α) (h : Data.named name fields = [d]) :
    required name decode (.named fields) = (decode d).map fun a => (a, .named fields) := by
  have htake : take name (.named fields) = some (some d, .named fields) := by
    simp only [take, h]
  rw [required, bind_apply, htake, Option.bind_some]
  change Option.bind (decode d) _ = _
  cases decode d <;> rfl

/-- A field that may be missing from a record or null. -/
def optional {α : Type} (name : String) (decode : Decode α) : Fields (Option α) := do
  match ← take name, ← get with
  | some d, _ => Decode.nullable decode d
  | none, .named _ => pure none
  | none, .placed _ => failure

/-- A field with a value of its own for where it is missing. -/
def defaulted {α : Type} (name : String) (decode : Decode α) (otherwise : α) : Fields α := do
  match ← take name with
  | some d => decode d
  | none => pure otherwise

/-- A field that may be missing altogether or null. -/
def omittable {α : Type} (name : String) (decode : Decode α) : Fields (Option α) :=
  defaulted name (Decode.nullable decode) none

end Fields

/-- Reads a structure with the given fields. -/
def Decode.structure {α : Type} (fields : Fields α) : Decode α
  | .record entries => (fields (.named entries)).map (·.1)
  | .list items => do
    match ← fields (.placed items) with
    | (a, .placed []) => some a
    | _ => none
  | _ => none

end TeamDigest
