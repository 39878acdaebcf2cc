import TeamDigest.Team.User
import TeamDigest.Work.Comment
import TeamDigest.Work.Issue
import TeamDigest.Work.PullRequest

/-!
# Milestones

A container of work with the work that stands directly under it, and the
latest sign of life on it: the newest comment or the child resolved last.
A milestone is stale when nothing was resolved in the window and the latest
sign of life is more than two weeks old.
-/

namespace TeamDigest.Report

open Time Work Team

/-- A container of work and the work directly under it. -/
structure Milestone where
  /-- The person in charge, where known. -/
  owner : Option User
  /-- The container itself. -/
  anchor : Issue
  /-- The work items directly under it. -/
  children : IssueSet
  /-- Recent comments on the container. -/
  comments : List Comment
  /-- The children completed or created inside the window. -/
  changed : IssueSet
  /-- Pull requests of its own; those found for a project stand with the project. -/
  pullRequests : PullRequestSet

/-- A sign of life. -/
inductive Activity where
  | comment (comment : Comment)
  | resolution (issue : Issue) (time : Instant)
  deriving DecidableEq

/-- The time of the sign. -/
def Activity.time : Activity → Instant
  | .comment c => c.createdAt
  | .resolution _ t => t

/-- The member with the latest time; of several the last one in the list. -/
def latestBy {α : Type} (time : α → Instant) : List α → Option α
  | [] => none
  | a :: as =>
    match latestBy time as with
    | none => some a
    | some b => if time a ≤ time b then some b else some a

namespace Milestone

/-- The completed children with the times of their completion. -/
def completions (m : Milestone) : List (Issue × Instant) :=
  m.children.toList.filterMap fun i => i.completedAt.map fun t => (i, t)

/-- The latest sign of life; a comment wins over a resolution of the same
time. -/
def latestActivity (m : Milestone) : Option Activity :=
  match latestBy Comment.createdAt m.comments, latestBy Prod.snd m.completions with
  | some c, some (i, t) => if t ≤ c.createdAt then some (.comment c) else some (.resolution i t)
  | some c, none => some (.comment c)
  | none, some (i, t) => some (.resolution i t)
  | none, none => none

/-- The days after which a sign of life is out of date. -/
def staleAfterDays : Nat := 14

/-- The days for which a completed milestone is listed as such. -/
def recentlyCompletedDays : Nat := 14

/-- How many days ahead a due date draws attention. -/
def dueSoonDays : Nat := 90

/-- The children resolved inside the window. -/
def resolved (m : Milestone) (w : Window) : List Issue :=
  m.changed.toList.filter (·.completedWithin w)

/-- The children created inside the window. -/
def opened (m : Milestone) (w : Window) : List Issue :=
  m.changed.toList.filter (·.createdWithin w)

/-- Holds when a sign of life is out of date at the end of the window; a
missing one is. -/
def isOutOfDate (w : Window) : Option Activity → Bool
  | some a => Instant.ofDays staleAfterDays < Instant.elapsed a.time w.stop
  | none => true

/-- Holds when nothing was resolved in the window and the latest sign of life
is out of date. -/
def isStale (m : Milestone) (w : Window) : Bool :=
  (m.resolved w).isEmpty && isOutOfDate w m.latestActivity

/-- Holds when the milestone was completed in the two weeks before the end of
the window. -/
def isRecentlyCompleted (m : Milestone) (w : Window) : Bool :=
  match m.anchor.completedAt with
  | some t => t ≤ w.stop && Instant.elapsed t w.stop ≤ Instant.ofDays recentlyCompletedDays
  | none => false

/-- Holds when the due date is near at the end of the window, or over. -/
def isDueSoon (w : Window) (due : Instant) : Bool :=
  Instant.elapsed w.stop due ≤ Instant.ofDays dueSoonDays

/-- Reads a milestone. -/
def decode : Decode Milestone := .structure do
  let owner ← .omittable "owner" User.decode
  let anchor ← .required "issue" Issue.decode
  let children ← .defaulted "child_issues" (Decode.list Issue.decode) []
  let comments ← .defaulted "recent_comments" (Decode.list Comment.decode) []
  let changed ← .defaulted "duration_issues" (Decode.list Issue.decode) []
  let pullRequests ← .defaulted "merged_prs" (Decode.list PullRequest.decode) []
  pure { owner, anchor, children := .ofList children, comments, changed := .ofList changed,
         pullRequests := .ofList pullRequests }

/-- Writes a milestone. -/
def encode (m : Milestone) : Data :=
  .record
    [("owner", .ofOption User.encode m.owner), ("issue", m.anchor.encode),
     ("child_issues", .list (m.children.toList.map Issue.encode)),
     ("recent_comments", .list (m.comments.map Comment.encode)),
     ("duration_issues", .list (m.changed.toList.map Issue.encode)),
     ("merged_prs", .list (m.pullRequests.toList.map PullRequest.encode))]

end Milestone

end TeamDigest.Report
