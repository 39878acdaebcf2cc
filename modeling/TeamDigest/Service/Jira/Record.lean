import TeamDigest.Error
import TeamDigest.Number.Word
import TeamDigest.Time.Reader
import TeamDigest.Work.Comment
import TeamDigest.Work.Issue

/-!
# Records of Jira

Issues and comments as Jira writes them, and what they mean.
-/

namespace TeamDigest.Service.Jira

open Time Work

/-- Something that is known by its name. -/
def named : Decode String := .structure (.required "name" Decode.text)

/-- A person. -/
structure Person where
  id : Option String
  name : String
  deriving DecidableEq

/-- Reads a person. -/
def Person.decode : Decode Person := .structure do
  let id ← .optional "accountId" Decode.text
  let name ← .required "displayName" Decode.text
  pure { id, name }

/-- A status with the key of its category. -/
structure Status where
  name : String
  category : String
  deriving DecidableEq

/-- Reads a status. -/
def Status.decode : Decode Status := .structure do
  let name ← .required "name" Decode.text
  let category ← .required "statusCategory" (.structure (.required "key" Decode.text))
  pure { name, category }

/-- The progression that a category means. -/
def progression (category : String) : Progression :=
  match category with
  | "done" => .done
  | "indeterminate" => .inProgress
  | _ => .todo

/-- The fields of an issue. -/
structure Fields where
  summary : String
  description : Option String
  status : Status
  typeName : String
  priority : Option String
  /-- The estimate in seconds. -/
  estimate : Option Nat
  assignee : Option Person
  creator : Option Person
  parentKey : Option String
  created : String
  updated : String
  resolved : Option String
  due : Option String
  deriving DecidableEq

/-- Reads the fields of an issue. -/
def Fields.decode : Decode Fields := .structure do
  let summary ← .required "summary" Decode.text
  let description ← .optional "description" Decode.text
  let status ← .required "status" Status.decode
  let typeName ← .required "issuetype" named
  let priority ← .optional "priority" named
  let estimate ← .optional "timeoriginalestimate" Decode.nat64
  let assignee ← .optional "assignee" Person.decode
  let creator ← .optional "creator" Person.decode
  let parentKey ← .optional "parent" (.structure (.required "key" Decode.text))
  let created ← .required "created" Decode.text
  let updated ← .required "updated" Decode.text
  let resolved ← .optional "resolutiondate" Decode.text
  let due ← .optional "duedate" Decode.text
  pure { summary, description, status, typeName, priority, estimate, assignee, creator,
         parentKey, created, updated, resolved, due }

/-- An issue as it is written. -/
structure Record where
  id : String
  key : String
  fields : Fields
  deriving DecidableEq

/-- Reads an issue as it is written. -/
def Record.decode : Decode Record := .structure do
  let id ← .required "id" Decode.text
  let key ← .required "key" Decode.text
  let fields ← .required "fields" Fields.decode
  pure { id, key, fields }

/-- The time that a text means. -/
def timeOf (text : String) : Except Error Instant :=
  match Instant.readTracker? text.toList with
  | some t => .ok t
  | none => .error .time

/-- The day that a text means, as the instant at which it begins. -/
def dayOf (text : String) : Except Error Instant :=
  match Instant.readDate? text.toList with
  | some t => .ok t
  | none => .error .time

/-- What a text means, if there is one. -/
def optionally (meaning : String → Except Error Instant) :
    Option String → Except Error (Option Instant)
  | none => .ok none
  | some text => (meaning text).map some

/-- An estimate in whole hours, as a word of 32 bits. -/
def hours (seconds : Nat) : Nat := seconds / 3600 % Number.wordSize32

/-- The issue that a record means, on the site at an address. -/
def Record.issue (site : String) (r : Record) : Except Error Issue := do
  let f := r.fields
  let createdAt ← timeOf f.created
  let updatedAt ← timeOf f.updated
  let completedAt ← optionally timeOf f.resolved
  let dueAt ← optionally dayOf f.due
  pure
    { id := r.id
      key := r.key
      url := site ++ "/browse/" ++ r.key
      title := f.summary
      description := f.description
      status := f.status.name
      progression := progression f.status.category
      typeName := f.typeName
      priority := f.priority
      estimate := f.estimate.map hours
      assigneeId := f.assignee.bind Person.id
      assigneeName := f.assignee.map Person.name
      creatorId := f.creator.bind Person.id
      creatorName := f.creator.map Person.name
      parentKey := f.parentKey
      createdAt, updatedAt, completedAt, dueAt }

/-- A comment as it is written. -/
structure CommentRecord where
  id : String
  body : String
  author : Option Person
  created : String
  updated : String
  deriving DecidableEq

/-- Reads a comment as it is written. -/
def CommentRecord.decode : Decode CommentRecord := .structure do
  let id ← .required "id" Decode.text
  let body ← .required "body" Decode.text
  let author ← .optional "author" Person.decode
  let created ← .required "created" Decode.text
  let updated ← .required "updated" Decode.text
  pure { id, body, author, created, updated }

/-- The comment that a record means. -/
def CommentRecord.comment (r : CommentRecord) : Except Error Comment := do
  let createdAt ← timeOf r.created
  let updatedAt ← timeOf r.updated
  pure
    { id := r.id
      body := r.body
      authorId := r.author.bind Person.id
      authorName := r.author.map Person.name
      createdAt, updatedAt }

end TeamDigest.Service.Jira
