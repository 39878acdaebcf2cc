import TeamDigest.Host
import TeamDigest.Host.FileTree

/-!
# Machines in memory

A machine as a value: a tree of files, stores, variables, a clock, a network, and
what has been printed so far.  The program runs on it as on any other host.

How a store is laid out in files is a matter of the machine: `Desktop.layout`
names the files that stand in the directory of a store with some content.
-/

namespace TeamDigest.Host

/-- A machine as a value. -/
structure Desktop where
  files : FileTree
  /-- The directory from which paths start. -/
  working : Place
  /-- The stores, under the places of their directories. -/
  stores : List (Place × Store)
  /-- The files in the directory of a store, by name. -/
  layout : Store → List (String × ByteArray)
  environment : List (String × String)
  /-- The home directory of the user, by the user's account. -/
  account : Option String
  time : Time.Instant
  /-- What comes of a request. -/
  network : Http.Request → Except Error Http.Response
  /-- What has been printed to the standard output. -/
  output : String
  /-- What has been printed to the standard error. -/
  notes : String

namespace Desktop

/-- A change of files, unless it is refused. -/
def change (d : Desktop) (files : Except FileFault FileTree) :
    Except FileFault Unit × Desktop :=
  match files with
  | .ok files => (.ok (), { d with files })
  | .error fault => (.error fault, d)

/-- The machine with a store at a place, which is laid out there. -/
def keep (d : Desktop) (place : Place) (store : Store) : Desktop :=
  { d with
    files := (d.layout store).foldl
      (fun files (name, content) => files.put (place ++ [name]) (.file content)) d.files
    stores := (place, store) :: d.stores.filter (·.1 != place) }

/-- Opens the store in a directory.  There has to be a directory for large
contents in it. -/
def openStore (d : Desktop) (path : String) : Except FileFault Unit × Desktop :=
  match d.files.makeDirectoryIn d.working path "blobs" with
  | .error fault => (.error fault, d)
  | .ok files =>
    match files.place d.working path with
    | .error fault => (.error fault, { d with files })
    | .ok place =>
      (.ok (), Desktop.keep { d with files } place ((d.stores.lookup place).getD ∅))

/-- Operates on the store in a directory. -/
def operate (d : Desktop) (path : String) (operation : Store.Operation) :
    Except FileFault operation.Answer × Desktop :=
  match d.files.place d.working path with
  | .error fault => (.error fault, d)
  | .ok place =>
    match d.stores.lookup place with
    | none => (.error .notFound, d)
    | some store =>
      let (answer, store) := store.perform operation
      (.ok answer, d.keep place store)

/-- The answer to a question, and the machine after it. -/
def answer (d : Desktop) : (q : Question) → q.Answer × Desktop
  | .env name => (d.environment.lookup name, d)
  | .account => (d.account, d)
  | .now => (d.time, d)
  | .present path => (d.files.present d.working path, d)
  | .read path => (d.files.read d.working path, d)
  | .write path content => d.change (d.files.write d.working path content)
  | .makeDirectory path => d.change (d.files.makeDirectory d.working path)
  | .openStore path => d.openStore path
  | .store path operation => d.operate path operation
  | .exchange request => (d.network request, d)
  | .print text => ((), { d with output := d.output ++ text })
  | .note text => ((), { d with notes := d.notes ++ text })

/-- Machines in memory as a world. -/
def world : World machine Desktop := fun q d =>
  let (answer, d) := d.answer q
  (.ok answer, d)

end Desktop

end TeamDigest.Host
