import TeamDigest.Report.ProjectReport
import TeamDigest.Report.Progress
import TeamDigest.Text.Pieces

/-!
# Reports as chat markup

A project is shown in one of three degrees of detail.  *Terse* is its title and
its progress; *full* adds the rollup, the links and the milestones completed
lately; *verbose* adds a quoted block for every other milestone.
-/

namespace TeamDigest.Report

open Time Work Team Text

/-- How much is shown of each project. -/
inductive Detail where
  | terse
  | full
  | verbose
  deriving DecidableEq

/-- The links to issues, with commas between them. -/
def issueLinks (issues : List Issue) : String :=
  join ", " (issues.map Issue.link)

/-- The links to pull requests, with commas between them. -/
def pullRequestLinks (prs : PullRequestSet) : String :=
  join ", " (prs.toList.map PullRequest.link)

/-- A line that lists issues, unless there are none. -/
def issueListing (caption : String) (issues : List Issue) : List String :=
  if issues.isEmpty then [] else [caption ++ " " ++ issueLinks issues]

/-- A line that lists pull requests, unless there are none. -/
def pullRequestListing (prs : PullRequestSet) : List String :=
  if prs.isEmpty then [] else ["*PRs:* " ++ pullRequestLinks prs]

namespace Activity

/-- The sign of life in words. -/
def describe : Activity → String
  | .comment c =>
    "Most recent activity: comment from " ++ c.authorName.getD "someone" ++ " on " ++
      c.createdAt.monthDay
  | .resolution i t => "Most recent activity: " ++ i.link ++ " resolved on " ++ t.monthDay

end Activity

namespace Milestone

/-- A person, mentioned or just named. -/
def person (tagOwners : Bool) (u : User) : String :=
  if tagOwners then u.mention else u.name

/-- The owner in brackets, where there is one. -/
def ownerSuffix (m : Milestone) (tagOwners : Bool) : String :=
  match m.owner with
  | some u => " (" ++ person tagOwners u ++ ")"
  | none => ""

/-- A link to the container that shows its title. -/
def titleLink (m : Milestone) : String :=
  "<" ++ m.anchor.url ++ "|" ++ m.anchor.title ++ ">"

/-- Holds when the tracker names an assignee. -/
def hasAssignee (m : Milestone) : Bool :=
  m.anchor.assigneeId.isSome || m.anchor.assigneeName.isSome

/-- Whom to ask: the owner, else the assignee, else whoever feels addressed. -/
def addressee (m : Milestone) (tagOwners : Bool) : String :=
  match m.owner with
  | some u => person tagOwners u
  | none => m.anchor.assigneeName.getD "Owner"

/-- The reminder at a milestone that has no due date, or that is stale with its
due date near. -/
def reminder? (m : Milestone) (stale : Bool) (w : Window) (tagOwners : Bool) : Option String :=
  match m.anchor.dueAt with
  | none =>
    if m.hasAssignee then
      some ("⚠️ _This milestone has no due date. " ++ m.addressee tagOwners ++
        ", please add one._")
    else some "⚠️ _This milestone has no due date or assignee. Please add them._"
  | some due =>
    if stale && isDueSoon w due then
      some ("⚠️ _Due " ++ due.monthDay ++ " with no recent activity. " ++
        m.addressee tagOwners ++ ", please post an update._")
    else none

/-- The mark of what is out of date. -/
def staleMark (stale : Bool) : String := if stale then " ⚠️" else ""

/-- The line on what was resolved in the window, else on the latest sign of
life. -/
def activityLine (m : Milestone) (w : Window) : String :=
  if (m.resolved w).isEmpty then
    let text := match m.latestActivity with
      | some a => a.describe
      | none => "_No recent activity_"
    text ++ staleMark (m.isStale w)
  else "*Resolved:* " ++ issueLinks (m.resolved w)

/-- The lines of the block, without their quotation marks. -/
def blockLines (m : Milestone) (w : Window) (tagOwners : Bool) : List String :=
  ["*" ++ m.titleLink ++ "*" ++ m.ownerSuffix tagOwners,
   (Progress.ofIssues m.children m.changed w).line,
   m.activityLine w] ++
  (m.reminder? (m.isStale w) w tagOwners).toList ++
  issueListing "*Opened:*" (m.opened w) ++
  pullRequestListing m.pullRequests

/-- The quoted block on a milestone. -/
def block (m : Milestone) (w : Window) (tagOwners : Bool) : String :=
  join "\n" ((m.blockLines w tagOwners).map ("> " ++ ·))

end Milestone

namespace ProjectReport

/-- The title with the links next to it. -/
def titleLine (r : ProjectReport) : String :=
  r.project.links.foldl (fun line l => line ++ " | <" ++ l.url ++ "|" ++ l.name ++ ">")
    ("*" ++ r.project.title ++ "*")

/-- The counts behind the line of progress. -/
def progress (r : ProjectReport) : Progress := .ofIssues r.issues r.changed r.window

/-- The milestones completed lately. -/
def completedMilestones (r : ProjectReport) : List Milestone :=
  r.milestones.filter (·.isRecentlyCompleted r.window)

/-- All other milestones. -/
def otherMilestones (r : ProjectReport) : List Milestone :=
  r.milestones.filter fun m => !m.isRecentlyCompleted r.window

/-- The lines on the milestones completed lately, if there are any. -/
def completedListing (r : ProjectReport) : List String :=
  if r.completedMilestones.isEmpty then []
  else
    "*Milestones completed:*" ::
      r.completedMilestones.map fun m => "• " ++ m.titleLink ++ m.ownerSuffix r.tagOwners

/-- Title and progress. -/
def terse (r : ProjectReport) : String :=
  r.titleLine ++ "\n" ++ r.progress.line

/-- Title, progress, rollup, links and the milestones completed lately. -/
def full (r : ProjectReport) : String :=
  join "\n" ([r.titleLine, r.progress.line, r.rollup] ++
    issueListing "*Resolved:*" r.resolved ++
    issueListing "*Opened:*" r.opened ++
    pullRequestListing r.pullRequests ++
    r.completedListing)

/-- The full text and a block for every other milestone. -/
def verbose (r : ProjectReport) : String :=
  join "\n\n" (r.full :: r.otherMilestones.map fun m => m.block r.window r.tagOwners)

/-- The text in some degree of detail. -/
def markup (r : ProjectReport) : Detail → String
  | .terse => r.terse
  | .full => r.full
  | .verbose => r.verbose

end ProjectReport

end TeamDigest.Report
