import TeamDigest.Error
import TeamDigest.Host.Path

/-!
# Trees of files

A tree of directories with files.  Operations on it name files by paths, which
start at a working directory, and are refused for the reasons for which a file
system refuses them.

The view of a tree is `FileTree.node?`; putting a node into it changes it at one
place (`node?_put`).
-/

namespace TeamDigest.Host

/-- What stands at a place. -/
inductive Node where
  | file (content : ByteArray)
  | directory

/-- The names on the way down from the root. -/
abbrev Place : Type := List String

/-- A tree of directories with files. -/
structure FileTree where
  nodes : List (Place × Node)

namespace FileTree

/-- The tree of the root alone. -/
def root : FileTree := ⟨[([], .directory)]⟩

/-- What stands at a place. -/
def node? (t : FileTree) (place : Place) : Option Node := t.nodes.lookup place

/-- The tree without what stands at a place. -/
def drop (t : FileTree) (place : Place) : FileTree := ⟨t.nodes.filter (·.1 != place)⟩

/-- The tree with something at a place. -/
def put (t : FileTree) (place : Place) (node : Node) : FileTree :=
  ⟨(place, node) :: (t.drop place).nodes⟩

private theorem lookup_filter {nodes : List (Place × Node)} {place other : Place}
    (h : other ≠ place) : (nodes.filter (·.1 != place)).lookup other = nodes.lookup other := by
  induction nodes with
  | nil => rfl
  | cons n nodes ih =>
    rcases n with ⟨p, node⟩
    by_cases hp : p = place
    · have hne : (other == p) = false := by simp [hp, h]
      rw [List.filter_cons_of_neg (by simp [hp]), List.lookup_cons, hne, ih]
    · rw [List.filter_cons_of_pos (by simp [hp]), List.lookup_cons, List.lookup_cons, ih]

/-- What is put stands at its place, and all else stays. -/
theorem node?_put (t : FileTree) (place other : Place) (node : Node) :
    (t.put place node).node? other = if other = place then some node else t.node? other := by
  by_cases h : other = place
  · simp [put, node?, h]
  · have hne : (other == place) = false := by simp [h]
    simp only [put, node?, drop, List.lookup_cons, hne, h, if_false]
    exact lookup_filter h

/-! ## Following a path -/

/-- The place to which steps lead. -/
def follow (t : FileTree) (at_ : Place) : List String → Except FileFault Place
  | [] => .ok at_
  | step :: rest =>
    match t.node? at_ with
    | none => .error .notFound
    | some (.file _) => .error .notDirectory
    | some .directory =>
      if Path.isIdle step then t.follow at_ rest
      else if step == ".." then t.follow at_.dropLast rest
      else if (t.node? (at_ ++ [step])).isSome then t.follow (at_ ++ [step]) rest
      else .error .notFound

/-- The place from which a path starts, and its steps. -/
def setOut (working : Place) (path : String) : Place × List String :=
  match Path.steps path with
  | "" :: rest => ([], rest)
  | all => (working, all)

/-- The place to which a path leads; an empty one leads nowhere. -/
def place (t : FileTree) (working : Place) (path : String) : Except FileFault Place :=
  if path.isEmpty then .error .notFound
  else
    let (start, steps) := setOut working path
    t.follow start steps

/-- Holds when a path leads to something. -/
def present (t : FileTree) (working : Place) (path : String) : Bool :=
  match t.place working path with
  | .ok _ => true
  | .error _ => false

/-- The content of a file. -/
def read (t : FileTree) (working : Place) (path : String) : Except FileFault ByteArray := do
  let place ← t.place working path
  match t.node? place with
  | some (.file content) => .ok content
  | some .directory => .error .isDirectory
  | none => .error .notFound

/-- The place at which a path puts a new file; one that ends with a slash asks
for a directory. -/
def newPlace (t : FileTree) (working : Place) (path : String) : Except FileFault Place :=
  if path.isEmpty then .error .notFound
  else do
    let (start, all) := setOut working path
    let steps := (all.reverse.dropWhile (· == "")).reverse
    let directory ← t.follow start steps.dropLast
    let name := steps.getLast?.getD ""
    match t.node? directory with
    | none => .error .notFound
    | some (.file _) => .error .notDirectory
    | some .directory =>
      if all.getLast? = some "" || Path.isIdle name || name == ".." then .error .isDirectory
      else .ok (directory ++ [name])

/-- The tree with a file of new content. -/
def write (t : FileTree) (working : Place) (path : String) (content : ByteArray) :
    Except FileFault FileTree := do
  let place ← t.newPlace working path
  match t.node? place with
  | some .directory => .error .isDirectory
  | _ => .ok (t.put place (.file content))

/-- The tree with directories on all steps from a place on. -/
def pave (t : FileTree) (at_ : Place) : List String → Except FileFault FileTree
  | [] => .ok t
  | step :: rest =>
    if Path.isIdle step then t.pave at_ rest
    else if step == ".." then t.pave at_.dropLast rest
    else
      match t.node? (at_ ++ [step]) with
      | some .directory => t.pave (at_ ++ [step]) rest
      | some (.file _) => .error (if rest.all Path.isIdle then .exists else .notDirectory)
      | none => (t.put (at_ ++ [step]) .directory).pave (at_ ++ [step]) rest

/-- The tree with a directory, and the directories that lead to it. -/
def makeDirectory (t : FileTree) (working : Place) (path : String) :
    Except FileFault FileTree :=
  let (start, steps) := setOut working path
  t.pave start steps

/-- The tree with a directory of some name in another directory, and the
directories that lead there. -/
def makeDirectoryIn (t : FileTree) (working : Place) (path name : String) :
    Except FileFault FileTree :=
  let (start, steps) := setOut working path
  t.pave start (steps ++ [name])

end FileTree

end TeamDigest.Host
