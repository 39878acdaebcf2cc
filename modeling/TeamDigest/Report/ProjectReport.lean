import TeamDigest.Report.Milestone
import TeamDigest.Team.Project

/-!
# Reports on projects

All that is known about one project for one window.
-/

namespace TeamDigest.Report

open Work Team

/-- What is reported about a project. -/
structure ProjectReport where
  project : Project
  /-- The resolved work in a few sentences. -/
  rollup : String
  /-- All work items of the project. -/
  issues : IssueSet
  /-- The work items completed or created inside the window. -/
  changed : IssueSet
  pullRequests : PullRequestSet
  milestones : List Milestone
  /-- Owners are mentioned and not just named. -/
  tagOwners : Bool
  window : Window

namespace ProjectReport

/-- The work items resolved inside the window. -/
def resolved (r : ProjectReport) : List Issue :=
  r.changed.toList.filter (·.completedWithin r.window)

/-- The work items opened inside the window. -/
def opened (r : ProjectReport) : List Issue :=
  r.changed.toList.filter (·.createdWithin r.window)

/-- Reads a report. -/
def decode : Decode ProjectReport := .structure do
  let project ← .required "project" Project.decode
  let rollup ← .defaulted "duration_progress_summary" Decode.text ""
  let issues ← .defaulted "issues" (Decode.list Issue.decode) []
  let changed ← .defaulted "duration_issues" (Decode.list Issue.decode) []
  let pullRequests ← .defaulted "merged_prs" (Decode.list PullRequest.decode) []
  let milestones ← .defaulted "milestones" (Decode.list Milestone.decode) []
  let tagOwners ← .defaulted "tag_owners" Decode.bool false
  let window ← .required "window" Window.decode
  pure { project, rollup, issues := .ofList issues, changed := .ofList changed,
         pullRequests := .ofList pullRequests, milestones, tagOwners, window }

/-- Writes a report. -/
def encode (r : ProjectReport) : Data :=
  .record
    [("project", r.project.encode), ("duration_progress_summary", .text r.rollup),
     ("issues", .list (r.issues.toList.map Issue.encode)),
     ("duration_issues", .list (r.changed.toList.map Issue.encode)),
     ("merged_prs", .list (r.pullRequests.toList.map PullRequest.encode)),
     ("milestones", .list (r.milestones.map Milestone.encode)),
     ("tag_owners", .bool r.tagOwners), ("window", r.window.encode)]

end ProjectReport

end TeamDigest.Report
