import TeamDigest.Text.Blank
import TeamDigest.Text.Fold

/-!
# Kinds of issues

Trackers name the types of their issues freely.  A type names a container of
work, a unit of work, or something unknown; blanks around it and the case of
its letters do not matter.
-/

namespace TeamDigest.Work

/-- What an issue is, judged by its type. -/
inductive IssueKind where
  /-- A container of work. -/
  | milestone
  /-- A unit of work. -/
  | workItem
  /-- A type that is neither. -/
  | unknown
  deriving DecidableEq

namespace IssueKind

/-- The types of containers. -/
def milestoneTypes : List String := ["epic", "milestone"]

/-- The types of units of work. -/
def workItemTypes : List String :=
  ["bug", "story", "task", "sub-task", "subtask", "improvement", "new feature", "feature",
    "spike", "chore", "issue"]

/-- The kind of the issues of a type. -/
def classify (typeName : String) : IssueKind :=
  let name := String.ofList (Text.fold (Text.trim typeName.toList))
  if name ∈ milestoneTypes then .milestone
  else if name ∈ workItemTypes then .workItem
  else .unknown

/-- The name of the kind. -/
def name : IssueKind → String
  | .milestone => "Milestone"
  | .workItem => "WorkItem"
  | .unknown => "Unknown"

end IssueKind

end TeamDigest.Work
