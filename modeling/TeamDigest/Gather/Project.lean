import TeamDigest.Gather.Milestone
import TeamDigest.Rollup.Prompt

/-!
# Gathering the report on a project

The keys of a project name either the issues under which its work stands or, in
a flat project, the work itself.  The rollup, the search for pull requests and
the report all start from the same set: the work items resolved inside the
window.
-/

namespace TeamDigest.Gather

open Work Team Report

/-- The issues named by the keys of a project. -/
def roots (project : Project) : Task (List Issue) :=
  if project.issueKeys.isEmpty then pure [] else Task.issues project.issueKeys

/-- The issues below those that are named by the keys of a project. -/
def Scope.below (scope : Scope) (project : Project) : Task (List Issue) :=
  if project.issueKeys.isEmpty then pure []
  else do
    let found ← descendants Task.children scope.patience project.issueKeys
    pure found.toList

/-- The work items of a list that were resolved inside the window. -/
def resolvedWork (window : Window) (issues : List Issue) : IssueSet :=
  .ofList (issues.filter fun i => i.completedWithin window && i.isWork)

/-- The resolved work in a few bullets; of no work there is nothing to ask. -/
def rollupOf (window : Window) (resolved : IssueSet) : Task String :=
  if resolved.isEmpty then pure window.noUpdates
  else Task.rollup (Rollup.issueText resolved)

/-- The pull requests that mention resolved work, together with those that are
known already. -/
def Scope.relatedPullRequests (scope : Scope) (resolved : IssueSet) (known : PullRequestSet) :
    Task PullRequestSet := do
  let found ← Task.gather <| resolved.toList.map fun i =>
    Task.mentioning i.key scope.orgs scope.window
  pure (known.insertAll found.flatten)

/-- The containers of work among some issues. -/
def anchors (issues : List Issue) : IssueSet := .ofList (issues.filter Issue.isMilestone)

/-- Milestones in the order of their anchors. -/
def sortByAnchor (milestones : List Milestone) : List Milestone :=
  milestones.mergeSort fun a b => (compare a.anchor b.anchor).isLE

/-- The milestones that some issues stand for. -/
def Scope.milestones (scope : Scope) (project : Project) (anchors : IssueSet) :
    Task (List Milestone) := do
  let found ← Task.gather (anchors.toList.map (scope.milestone project))
  pure (sortByAnchor found)

/-- The report on a project, with pull requests that are known already.  The
keys of a flat project name its work items. -/
def Scope.report (scope : Scope) (project : Project) (known : PullRequestSet) (flat : Bool) :
    Task ProjectReport := do
  let roots ← roots project
  let below ← if flat then pure roots else scope.below project
  let resolved := resolvedWork scope.window below
  let rollup ← rollupOf scope.window resolved
  let pullRequests ← scope.relatedPullRequests resolved known
  let milestones ←
    if flat then pure [] else scope.milestones project (anchors (roots ++ below))
  let issues : IssueSet := .ofList (below.filter Issue.isWork)
  pure
    { project, rollup, issues
      changed := issues.filter (·.changedWithin scope.window)
      pullRequests, milestones
      tagOwners := project.tagMilestoneOwners
      window := scope.window }

end TeamDigest.Gather
