import TeamDigest.ValueSet
import TeamDigest.Window
import TeamDigest.Work.Kind

/-!
# Issues

An issue of a tracker.  Issues are equal when all their fields are, and they
are ordered field by field in the order of the declaration; a missing value
stands before all others.  So an issue that two answers describe differently is
two issues.
-/

namespace TeamDigest.Work

open Time

/-- How far an issue has come, whatever the tracker calls it. -/
inductive Progression where
  | todo
  | inProgress
  | done
  deriving DecidableEq

namespace Progression

/-- The place among the stages. -/
def stage : Progression → Nat
  | .todo => 0
  | .inProgress => 1
  | .done => 2

instance : Ord Progression where
  compare := compareOn stage

instance : Std.TransOrd Progression :=
  inferInstanceAs (Std.TransCmp (compareOn stage))

instance : Std.LawfulEqOrd Progression where
  eq_of_compare {a b} h := by
    revert h
    cases a <;> cases b <;> decide

/-- The stages by name. -/
def names : List (String × Progression) :=
  [("TODO", .todo), ("IN_PROGRESS", .inProgress), ("DONE", .done)]

/-- The name of a stage. -/
def name : Progression → String
  | .todo => "TODO"
  | .inProgress => "IN_PROGRESS"
  | .done => "DONE"

end Progression

/-- An issue of a tracker. -/
structure Issue where
  id : String
  /-- The key by which people name the issue. -/
  key : String
  url : String
  title : String
  description : Option String
  /-- The status in the tracker's own words. -/
  status : String
  progression : Progression
  /-- The type in the tracker's own words. -/
  typeName : String
  priority : Option String
  estimate : Option Nat
  assigneeId : Option String
  assigneeName : Option String
  creatorId : Option String
  creatorName : Option String
  parentKey : Option String
  createdAt : Instant
  updatedAt : Instant
  completedAt : Option Instant
  dueAt : Option Instant
  deriving DecidableEq

namespace Issue

/-- The order of issues: by the first field in which they differ. -/
def order : Issue → Issue → Ordering :=
  compareLex (compareOn id) <| compareLex (compareOn key) <| compareLex (compareOn url) <|
  compareLex (compareOn title) <| compareLex (compareOn description) <|
  compareLex (compareOn status) <| compareLex (compareOn progression) <|
  compareLex (compareOn typeName) <| compareLex (compareOn priority) <|
  compareLex (compareOn estimate) <| compareLex (compareOn assigneeId) <|
  compareLex (compareOn assigneeName) <| compareLex (compareOn creatorId) <|
  compareLex (compareOn creatorName) <| compareLex (compareOn parentKey) <|
  compareLex (compareOn createdAt) <| compareLex (compareOn updatedAt) <|
  compareLex (compareOn completedAt) (compareOn dueAt)

instance : Ord Issue := ⟨order⟩

instance : Std.TransOrd Issue := by
  show Std.TransCmp order
  unfold order
  infer_instance

instance : Std.LawfulEqOrd Issue where
  eq_of_compare {a b} h := by
    have h : order a b = .eq := h
    simp only [order, compareLex, compareOn, Ordering.then_eq_eq, Std.compare_eq_iff_eq] at h
    cases a
    cases b
    simp_all

/-- The kind of the issue. -/
def kind (i : Issue) : IssueKind := .classify i.typeName

/-- Holds of issues that have been completed at any time. -/
def isCompleted (i : Issue) : Bool := i.completedAt.isSome

/-- Holds of containers of work. -/
def isMilestone (i : Issue) : Bool := i.kind == .milestone

/-- Holds of what counts as work: everything but containers, unknown types
included. -/
def isWork (i : Issue) : Bool :=
  match i.kind with
  | .milestone => false
  | .workItem => true
  | .unknown => true

/-- Holds when the issue was completed inside the window. -/
def completedWithin (i : Issue) (w : Window) : Bool :=
  match i.completedAt with
  | some t => w.contains t
  | none => false

/-- Holds when the issue was created inside the window. -/
def createdWithin (i : Issue) (w : Window) : Bool := w.contains i.createdAt

/-- Holds when the issue was completed or created inside the window. -/
def changedWithin (i : Issue) (w : Window) : Bool :=
  i.completedWithin w || i.createdWithin w

/-- A link to the issue that shows its key. -/
def link (i : Issue) : String := "<" ++ i.url ++ "|" ++ i.key ++ ">"

/-- An issue counts as work exactly when it is no container. -/
theorem isWork_eq_not_isMilestone (i : Issue) : i.isWork = !i.isMilestone := by
  unfold isWork isMilestone
  cases i.kind <;> rfl

/-- Reads an issue. -/
def decode : Decode Issue := .structure do
  let id ← .required "id" Decode.text
  let key ← .required "key" Decode.text
  let url ← .required "url" Decode.text
  let title ← .required "title" Decode.text
  let description ← .optional "description" Decode.text
  let status ← .required "status" Decode.text
  let progression ← .required "status_category" (Decode.choice Progression.names)
  let typeName ← .required "issue_type" Decode.text
  let priority ← .optional "priority" Decode.text
  let estimate ← .optional "estimate" Decode.nat32
  let assigneeId ← .optional "assignee_id" Decode.text
  let assigneeName ← .optional "assignee_name" Decode.text
  let creatorId ← .optional "creator_id" Decode.text
  let creatorName ← .optional "creator_name" Decode.text
  let parentKey ← .optional "parent_key" Decode.text
  let createdAt ← .required "created_at" Decode.instant
  let updatedAt ← .required "updated_at" Decode.instant
  let completedAt ← .optional "completed_at" Decode.instant
  let dueAt ← .optional "due_date" Decode.instant
  pure { id, key, url, title, description, status, progression, typeName, priority, estimate,
         assigneeId, assigneeName, creatorId, creatorName, parentKey, createdAt, updatedAt,
         completedAt, dueAt }

/-- Writes an issue. -/
def encode (i : Issue) : Data :=
  .record
    [("id", .text i.id), ("key", .text i.key), ("url", .text i.url), ("title", .text i.title),
     ("description", .ofText? i.description), ("status", .text i.status),
     ("status_category", .text i.progression.name), ("issue_type", .text i.typeName),
     ("priority", .ofText? i.priority), ("estimate", .ofOption .ofNat i.estimate),
     ("assignee_id", .ofText? i.assigneeId), ("assignee_name", .ofText? i.assigneeName),
     ("creator_id", .ofText? i.creatorId), ("creator_name", .ofText? i.creatorName),
     ("parent_key", .ofText? i.parentKey), ("created_at", .text i.createdAt.toText),
     ("updated_at", .text i.updatedAt.toText),
     ("completed_at", .ofOption (fun t => .text t.toText) i.completedAt),
     ("due_date", .ofOption (fun t => .text t.toText) i.dueAt)]

end Issue

/-- A set of issues in their order. -/
abbrev IssueSet := ValueSet Issue

end TeamDigest.Work
