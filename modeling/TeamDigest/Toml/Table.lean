import TeamDigest.Data.Basic

/-!
# Tables of TOML

A document builds a tree of tables.  A table comes into being through its own
header, on the way to a header further down, or on the way to a dotted key; how
it came into being decides what may still be added to it, and no key is ever
given twice.
-/

namespace TeamDigest.Toml

/-- How a table came into being. -/
inductive Origin where
  /-- Through its own header. -/
  | header
  /-- On the way to a header further down. -/
  | passage
  /-- On the way to a dotted key. -/
  | dotted
  deriving DecidableEq

/-- What stands under a key. -/
inductive Node where
  | value (value : Data)
  | table (origin : Origin) (entries : List (String × Node))
  /-- A list of tables, the last one first. -/
  | tables (reversed : List (List (String × Node)))

/-- A table under construction. -/
structure Table where
  origin : Origin
  entries : List (String × Node)

namespace Table

/-- The table of a document. -/
def root : Table := ⟨.header, []⟩

/-- The table with a node under a key, in place of the one that stood there. -/
def put (t : Table) (key : String) (node : Node) : Table :=
  if (t.entries.lookup key).isSome then
    { t with entries := t.entries.map fun e => if e.1 = key then (key, node) else e }
  else { t with entries := t.entries ++ [(key, node)] }

/-- Changes the table at the end of a path.  Tables that are missing on the way
come into being; of a list of tables the last one is meant.  A dotted key does
not lead through a table with a header of its own. -/
def descend (missing : Origin) (change : Table → Option Table) :
    List String → Table → Option Table
  | [], t => change t
  | key :: path, t =>
    match t.entries.lookup key with
    | none => do
      let below ← descend missing change path ⟨missing, []⟩
      some (t.put key (.table below.origin below.entries))
    | some (.value _) => none
    | some (.table origin entries) =>
      if missing = .dotted ∧ origin = .header then none
      else do
        let below ← descend missing change path ⟨origin, entries⟩
        some (t.put key (.table below.origin below.entries))
    | some (.tables []) => none
    | some (.tables (last :: earlier)) => do
      let below ← descend missing change path ⟨.header, last⟩
      some (t.put key (.tables (below.entries :: earlier)))

/-- Adds a value under a dotted key, given as the way to it and its last part.
All tables on the way have to be those of dotted keys. -/
def add (path : List String) (key : String) (value : Data) : Table → Option Table :=
  descend .dotted
    (fun t =>
      if (t.origin = .dotted) = path.isEmpty then none
      else if (t.entries.lookup key).isSome then none
      else some (t.put key (.value value)))
    path

/-- Opens the table of a header, given as the way to it and its last part.  It
must not be there yet, unless it came into being on the way to another
header. -/
def openTable (path : List String) (key : String) : Table → Option Table :=
  descend .passage
    (fun t =>
      match t.entries.lookup key with
      | none => some (t.put key (.table .header []))
      | some (.table .passage entries) => some (t.put key (.table .header entries))
      | some _ => none)
    path

/-- Opens one more table in the list of a header. -/
def openItem (path : List String) (key : String) : Table → Option Table :=
  descend .passage
    (fun t =>
      match t.entries.lookup key with
      | none => some (t.put key (.tables [[]]))
      | some (.tables done) => some (t.put key (.tables ([] :: done)))
      | some _ => none)
    path

end Table

mutual

/-- The tree that a node holds. -/
def Node.data : Node → Data
  | .value d => d
  | .table _ entries => .record (entriesData entries)
  | .tables reversed => .list (tablesData reversed).reverse

/-- The fields that the entries of a table hold. -/
def entriesData : List (String × Node) → List (String × Data)
  | [] => []
  | (key, node) :: rest => (key, node.data) :: entriesData rest

/-- The records that some tables hold. -/
def tablesData : List (List (String × Node)) → List Data
  | [] => []
  | entries :: rest => .record (entriesData entries) :: tablesData rest

end

/-- The tree that a table holds. -/
def Table.data (t : Table) : Data := .record (entriesData t.entries)

end TeamDigest.Toml
