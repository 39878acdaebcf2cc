import TeamDigest.Gather.Scope
import TeamDigest.Report.Tally

/-!
# Gathering tallies
-/

namespace TeamDigest.Gather

open Team Report

/-- How many pull requests of a person were merged, where the login is known. -/
def Scope.pullRequestCount (scope : Scope) (user : User) : Task (Option Nat) :=
  match user.githubId with
  | none => pure none
  | some login => do
    let found ← Task.mergedBy login scope.orgs scope.window
    pure (some found.length)

/-- What one person has completed. -/
def Scope.tally (scope : Scope) (user : User) : Task Tally := do
  let resolved ← Task.resolvedCount user.lookupId scope.window
  let pullRequests ← scope.pullRequestCount user
  pure { user, resolved, pullRequests }

/-- Tallies in the order of names; those of one name keep their order. -/
def sortByName (tallies : List Tally) : List Tally :=
  tallies.mergeSort fun a b => (compare a.user.name b.user.name).isLE

/-- What everybody has completed. -/
def Scope.tallies (scope : Scope) : Task (List Tally) := do
  let found ← Task.gather (scope.users.map scope.tally)
  pure (sortByName found)

end TeamDigest.Gather
