import TeamDigest.Team.User
import TeamDigest.Text.Pieces
import TeamDigest.Window

/-!
# Tallies

How much each person has completed inside a window.
-/

namespace TeamDigest.Report

open Team Text

/-- What a person has completed. -/
structure Tally where
  user : User
  resolved : Nat
  /-- Merged pull requests; `none` where the person has no login. -/
  pullRequests : Option Nat
  deriving DecidableEq

namespace Tally

/-- The line on one person. -/
def line (t : Tally) : String :=
  let pullRequests := (t.pullRequests.map decimal).getD "n/a"
  "\n• " ++ t.user.name ++ ": " ++ decimal t.resolved ++ " issues resolved, " ++
    pullRequests ++ " PRs merged"

/-- The text on several people under one headline. -/
def markup (title : String) (window : Window) (tallies : List Tally) : String :=
  "*" ++ title ++ "* " ++ window.caption ++ String.join (tallies.map line)

end Tally

end TeamDigest.Report
