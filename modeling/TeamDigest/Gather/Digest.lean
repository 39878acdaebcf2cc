import TeamDigest.Gather.Project
import TeamDigest.Report.Digest

/-!
# Gathering a digest

The projects of a digest are gathered side by side, together with the work of
people of whom everything is of interest.  What a project accounts for is then
taken out of that work, and the rest becomes a project of its own, which stands
after all others.
-/

namespace TeamDigest.Gather

open Work Team Report

/-- What a digest is to cover. -/
structure Brief where
  name : String
  projects : List Project
  /-- The people of whom untracked work is of interest too. -/
  people : List User
  /-- There is a project of untracked work. -/
  includeMisc : Bool
  /-- The services of which incidents are reported; `none` when no incident
  service is in use. -/
  services : Option (List String)

/-- What one task brings home. -/
inductive Finding where
  | report (report : ProjectReport)
  | issues (issues : List Issue)
  | pullRequests (pullRequests : List PullRequest)

namespace Finding

/-- The reports among the findings. -/
def reports (findings : List Finding) : List ProjectReport :=
  findings.filterMap fun
    | report r => some r
    | _ => none

/-- All issues among the findings. -/
def allIssues (findings : List Finding) : List Issue :=
  findings.flatMap fun
    | issues is => is
    | _ => []

/-- All pull requests among the findings. -/
def allPullRequests (findings : List Finding) : List PullRequest :=
  findings.flatMap fun
    | pullRequests ps => ps
    | _ => []

end Finding

/-- The tasks that gather all work of one person.  Pull requests are found by
the login of the person, where that is known. -/
def Scope.personTasks (scope : Scope) (user : User) : List (Task Finding) :=
  (Finding.issues <$> Task.resolved user.lookupId scope.window) ::
    (user.githubId.map fun login =>
      Finding.pullRequests <$> Task.mergedBy login scope.orgs scope.window).toList

/-- The tasks of a digest that go on side by side. -/
def Scope.tasks (scope : Scope) (brief : Brief) : List (Task Finding) :=
  brief.projects.map (fun p => Finding.report <$> scope.report p ∅ false) ++
    if brief.includeMisc then brief.people.flatMap scope.personTasks else []

/-- The issues that some projects account for. -/
def trackedIssues (reports : List ProjectReport) : List Issue :=
  reports.flatMap fun r =>
    r.issues.toList ++ r.milestones.flatMap fun m => m.anchor :: m.children.toList

/-- The pull requests that some projects account for. -/
def trackedPullRequests (reports : List ProjectReport) : List PullRequest :=
  reports.flatMap fun r => r.pullRequests.toList

/-- The issues that no project accounts for. -/
def untrackedIssues (findings : List Finding) : IssueSet :=
  (ValueSet.ofList (Finding.allIssues findings)).without
    (trackedIssues (Finding.reports findings))

/-- The pull requests that no project accounts for. -/
def untrackedPullRequests (findings : List Finding) : PullRequestSet :=
  (ValueSet.ofList (Finding.allPullRequests findings)).without
    (trackedPullRequests (Finding.reports findings))

/-- The project of untracked work. -/
def miscProject (untracked : IssueSet) : Project :=
  { id := Project.miscId
    title := "📋 Other (Misc)"
    parentId := none
    links := []
    leadUserId := none
    tagMilestoneOwners := false
    issueKeys := untracked.toList.map Issue.key }

/-- The report on untracked work. -/
def Scope.miscReport (scope : Scope) (findings : List Finding) : Task ProjectReport :=
  scope.report (miscProject (untrackedIssues findings)) (untrackedPullRequests findings) true

/-- Reports in the order of the titles; those of one title keep their order. -/
def sortByTitle (reports : List ProjectReport) : List ProjectReport :=
  reports.mergeSort fun a b => (compare a.project.sortTitle b.project.sortTitle).isLE

/-- The incidents of all services, one service after the other; `none` when
there is no service. -/
def allIncidents (window : Window) : Option (List String) → Task (Option (List Incident))
  | none => pure none
  | some [] => pure none
  | some services => do
    let found ← Plan.all (services.map fun s => Task.incidents s window)
    pure (some found.flatten)

/-- The digest that a brief asks for. -/
def Scope.digest (scope : Scope) (brief : Brief) : Task Digest := do
  let findings ← Task.gather (scope.tasks brief)
  let reports := sortByTitle (Finding.reports findings)
  let misc ←
    if brief.includeMisc then do
      let report ← scope.miscReport findings
      pure [report]
    else pure []
  let incidents ← allIncidents scope.window brief.services
  pure { window := scope.window, name := brief.name, projects := reports ++ misc, incidents }

end TeamDigest.Gather
