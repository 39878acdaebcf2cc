import TeamDigest.Error
import TeamDigest.Time.Reader
import TeamDigest.Work.Comment
import TeamDigest.Work.Issue

/-!
# Records of Linear

Issues and comments as Linear writes them, and what they mean.  Linear knows no
types of issues; a label that names a known type stands for one, and an issue
with others under it counts as a milestone.
-/

namespace TeamDigest.Service.Linear

open Time Work

/-- Some records of a list, with the place from which it goes on. -/
structure Connection (α : Type) where
  nodes : List α
  /-- The place from which the list goes on, if it does. -/
  next : Option String
  deriving DecidableEq

/-- Reads where a list goes on. -/
def pageInfo : Decode (Option String) := .structure do
  let more ← .required "hasNextPage" Decode.bool
  let cursor ← .optional "endCursor" Decode.text
  pure (if more then cursor else none)

/-- Reads some records of a list. -/
def Connection.decode {α : Type} (node : Decode α) : Decode (Connection α) := .structure do
  let nodes ← .required "nodes" (Decode.list node)
  let info ← .omittable "pageInfo" pageInfo
  pure { nodes, next := info.join }

/-- A person. -/
structure Person where
  id : String
  name : String
  deriving DecidableEq

/-- Reads a person. -/
def Person.decode : Decode Person := .structure do
  let id ← .required "id" Decode.text
  let name ← .required "name" Decode.text
  pure { id, name }

/-- The state of an issue, with the kind of the state. -/
structure State where
  name : String
  kind : String
  deriving DecidableEq

/-- Reads a state. -/
def State.decode : Decode State := .structure do
  let name ← .required "name" Decode.text
  let kind ← .required "type" Decode.text
  pure { name, kind }

/-- The progression that a kind of state means. -/
def progression (kind : String) : Progression :=
  match kind with
  | "completed" => .done
  | "canceled" => .done
  | "started" => .inProgress
  | _ => .todo

/-- An issue as it is written. -/
structure Record where
  id : String
  key : String
  url : String
  title : String
  description : Option String
  priority : Option String
  estimate : Option Nat
  state : State
  labels : Connection String
  assignee : Option Person
  creator : Option Person
  parentKey : Option String
  /-- The ids of issues under this one, one at most. -/
  children : Connection String
  createdAt : Instant
  updatedAt : Instant
  completedAt : Option Instant
  due : Option String
  deriving DecidableEq

/-- Reads an issue as it is written. -/
def Record.decode : Decode Record := .structure do
  let id ← .required "id" Decode.text
  let key ← .required "identifier" Decode.text
  let url ← .required "url" Decode.text
  let title ← .required "title" Decode.text
  let description ← .optional "description" Decode.text
  let priority ← .optional "priorityLabel" Decode.text
  let estimate ← .optional "estimate" Decode.rounded32
  let state ← .required "state" State.decode
  let labels ← .required "labels" (Connection.decode (.structure (.required "name" Decode.text)))
  let assignee ← .optional "assignee" Person.decode
  let creator ← .optional "creator" Person.decode
  let parentKey ← .optional "parent" (.structure (.required "identifier" Decode.text))
  let children ← .required "children" (Connection.decode (.structure (.required "id" Decode.text)))
  let createdAt ← .required "createdAt" Decode.instant
  let updatedAt ← .required "updatedAt" Decode.instant
  let completedAt ← .optional "completedAt" Decode.instant
  let due ← .optional "dueDate" Decode.text
  pure { id, key, url, title, description, priority, estimate, state, labels, assignee, creator,
         parentKey, children, createdAt, updatedAt, completedAt, due }

/-- The type of an issue: the first label that names a known one, else that of a
milestone if there are issues under it. -/
def Record.typeName (r : Record) : String :=
  match r.labels.nodes.find? fun label => IssueKind.classify label != .unknown with
  | some label => label
  | none => if r.children.nodes.isEmpty then "Issue" else "Milestone"

/-- The day that a text means, as the instant at which it begins. -/
def dayOf : Option String → Except Error (Option Instant)
  | none => .ok none
  | some text =>
    match Instant.readDate? text.toList with
    | some t => .ok (some t)
    | none => .error .time

/-- The issue that a record means. -/
def Record.issue (r : Record) : Except Error Issue := do
  let dueAt ← dayOf r.due
  pure
    { id := r.id
      key := r.key
      url := r.url
      title := r.title
      description := r.description
      status := r.state.name
      progression := progression r.state.kind
      typeName := r.typeName
      priority := r.priority
      estimate := r.estimate
      assigneeId := r.assignee.map Person.id
      assigneeName := r.assignee.map Person.name
      creatorId := r.creator.map Person.id
      creatorName := r.creator.map Person.name
      parentKey := r.parentKey
      createdAt := r.createdAt
      updatedAt := r.updatedAt
      completedAt := r.completedAt
      dueAt }

/-- Reads a comment. -/
def comment : Decode Comment := .structure do
  let id ← .required "id" Decode.text
  let body ← .required "body" Decode.text
  let user ← .optional "user" Person.decode
  let createdAt ← .required "createdAt" Decode.instant
  let updatedAt ← .required "updatedAt" Decode.instant
  pure
    { id, body, authorId := user.map Person.id, authorName := user.map Person.name,
      createdAt, updatedAt }

end TeamDigest.Service.Linear
