import TeamDigest.Host
import TeamDigest.Host.Path
import TeamDigest.Rollup.Recall

/-!
# Stores of a machine

An archive is a store that the machine keeps in a directory.  The plans for
rollups are carried out on it move by move, and what the machine refuses ends
them.
-/

namespace TeamDigest.Rollup

open Host

/-- A store that a machine keeps in a directory. -/
structure Archive where
  path : String
  deriving DecidableEq

namespace Archive

/-- Opens the archive under a directory. -/
def openUnder (directory : String) : Job Archive := do
  Job.settled .file (← Job.makeDirectory directory)
  let path := Path.child directory "rollups.sled"
  Job.settled .store (← Job.openStore path)
  pure ⟨path⟩

/-- Makes a move on the store; `writer` sums up texts. -/
def move (a : Archive) (writer : String → Job String) : (m : Move) → Job m.Answer
  | .store operation => do Job.settled .store (← Job.store a.path operation)
  | .now => Job.now
  | .write text => writer text

/-- Carries out a plan on the store; `writer` sums up texts. -/
def carryOut {α : Type} (a : Archive) (writer : String → Job String) (plan : Plan moves α) :
    Job α :=
  plan.serve (a.move writer)

/-- Carries out a plan that has no use for a writer. -/
def tend {α : Type} (a : Archive) (plan : Plan moves α) : Job α :=
  a.carryOut (fun _ => .fail .json) plan

end Archive

end TeamDigest.Rollup
