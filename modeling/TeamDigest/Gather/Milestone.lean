import TeamDigest.Gather.Scope
import TeamDigest.Report.ProjectReport
import TeamDigest.Text.Blank

/-!
# Gathering a milestone
-/

namespace TeamDigest.Gather

open Work Team Report

/-- How many comments are asked for. -/
def commentLimit : Nat := 5

/-- The person in charge of a container: the one named like its assignee, else
the lead of the project. -/
def Scope.owner? (scope : Scope) (project : Project) (anchor : Issue) : Option User :=
  let assignee := anchor.assigneeName.bind fun name => scope.users.find? (·.name == name)
  let lead := project.leadUserId.bind fun email => scope.users.find? (·.email == email)
  assignee.or lead

/-- The comments on an issue; one without a key has none. -/
def recentComments (key : String) : Task (List Comment) :=
  if Text.isBlankText key then pure [] else Task.comments key commentLimit

/-- The milestone that an issue stands for. -/
def Scope.milestone (scope : Scope) (project : Project) (anchor : Issue) : Task Milestone := do
  let below ← Task.children anchor.key
  let comments ← recentComments anchor.key
  let children : IssueSet := .ofList (below.filter Issue.isWork)
  pure
    { owner := scope.owner? project anchor
      anchor, children, comments
      changed := children.filter (·.changedWithin scope.window)
      pullRequests := ∅ }

end TeamDigest.Gather
