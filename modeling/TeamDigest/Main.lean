import Std.Time.DateTime.Timestamp
import TeamDigest.Data.Decode
import TeamDigest.Run.Program

/-!
# The program on a real machine

The questions of the program are answered by the machine on which it runs.  It
has no way to any service, so every request finds the network unreachable.  A
store is kept in one file of its directory, as a record of lists of bytes.
-/

namespace TeamDigest.Host

/-- The reason for which the file system refuses. -/
def faultOf : IO.Error → FileFault
  | .noFileOrDirectory _ _ _ => .notFound
  | .alreadyExists _ _ _ => .exists
  | .permissionDenied _ _ _ => .denied
  | .inappropriateType _ code reason =>
    if code = 20 then .notDirectory else if code = 21 then .isDirectory else .other reason
  | e => .other e.toString

/-- What comes of an operation on files. -/
def tried {α : Type} (operation : IO α) : IO (Except FileFault α) := do
  match ← operation.toBaseIO with
  | .ok a => pure (.ok a)
  | .error e => pure (.error (faultOf e))

/-- Holds unless a path leads nowhere. -/
def leadsSomewhere (path : String) : IO Bool := do
  match ← tried (IO.FS.Handle.mk path .read) with
  | .error .notFound | .error .notDirectory => pure false
  | _ => pure true

/-- The time by the clock of the machine. -/
def clock : IO Time.Instant := do
  let nanos := (← Std.Time.Timestamp.now).toNanosecondsSinceUnixEpoch.val
  pure ⟨nanos / Time.giga, (nanos % Time.giga).toNat⟩

/-- The home directory of the user with a number, by the list of all accounts. -/
def homeOfUser? (user accounts : String) : Option String :=
  (accounts.splitOn "\n").findSome? fun line =>
    match line.splitOn ":" with
    | [_, _, number, _, _, home, _] => if number == user then some home else none
    | _ => none

/-- The number of the user of a process, by the status of the process. -/
def userOf? (status : String) : Option String :=
  (status.splitOn "\n").findSome? fun line =>
    match line.splitOn "\t" with
    | "Uid:" :: user :: _ => some user
    | _ => none

/-- The home directory of the user, by the user's account. -/
def accountHome : IO (Option String) := do
  match ← tried (IO.FS.readFile "/proc/self/status"), ← tried (IO.FS.readFile "/etc/passwd") with
  | .ok status, .ok accounts => pure ((userOf? status).bind (homeOfUser? · accounts))
  | _, _ => pure none

/-- The file in which the store of a directory is kept. -/
def storeFile (path : String) : String := Path.child path "db"

/-- Reads the store in a directory; before anything is written, it is empty. -/
def readStore (path : String) : IO Store := do
  match ← tried (IO.FS.readFile (storeFile path)) with
  | .ok text =>
    match (Json.read? text.toList).bind (Decode.table (Decode.list Decode.nat32)) with
    | some slots =>
      let bytesOf (numbers : List Nat) : ByteArray := ⟨(numbers.map UInt8.ofNat).toArray⟩
      pure (slots.foldl (fun store (key, numbers) => store.insert key (bytesOf numbers)) ∅)
    | none => throw (.userError "the store cannot be read")
  | .error .notFound => pure ∅
  | .error fault => throw (.userError fault.message)

/-- Writes the store in a directory. -/
def writeStore (path : String) (store : Store) : IO Unit :=
  let slots := store.slots.map fun (key, bytes) =>
    (key, Data.list (bytes.toList.map fun byte => .ofNat byte.toNat))
  IO.FS.writeFile (storeFile path) (Json.write (.record slots))

/-- The answer of the machine to a question. -/
def respond : (q : Question) → IO q.Answer
  | .env name => IO.getEnv name
  | .account => accountHome
  | .now => clock
  | .present path => leadsSomewhere path
  | .read path => tried (IO.FS.readBinFile path)
  | .write path content => tried (IO.FS.writeBinFile path content)
  | .makeDirectory path => tried (IO.FS.createDirAll path)
  | .openStore path => tried (IO.FS.createDirAll path)
  | .store path operation => tried do
    let (answer, store) := (← readStore path).perform operation
    writeStore path store
    pure answer
  | .exchange request => pure (Http.unreachable request ()).1
  | .print text => do (← IO.getStdout).putStr text
  | .note text => do (← IO.getStderr).putStr text

/-- Carries out a job on the machine. -/
def carryOut {α : Type} : Job α → IO (Except Error α)
  | .done a => pure (.ok a)
  | .fail e => pure (.error e)
  | .ask q next => do carryOut (next (← respond q))

end TeamDigest.Host

/-- One call of the program. -/
def main (arguments : List String) : IO UInt32 := do
  match ← TeamDigest.Host.carryOut (TeamDigest.Run.program arguments) with
  | .ok code => pure code.toUInt32
  | .error _ => pure 1
