import TeamDigest.Http.Exchange
import TeamDigest.Service.Linear.Record

/-!
# Linear

Everything is asked for by queries over one address.  Lists come in pages; each
page but the last names the place from which the list goes on, and an empty
page ends the list in any case.  Since places are free texts, nothing bounds
the number of pages; an account has a patience instead.
-/

namespace TeamDigest.Service.Linear

open Http Text Time Work

/-- The name of the service in errors. -/
def serviceName : String := "Linear"

/-- The address of the service. -/
def address : String := "http://api.linear.app/graphql"

/-- How many records a page holds at most. -/
def pageSize : Nat := 250

/-- An account at the service. -/
structure Account where
  token : String
  /-- How many pages of one list are asked for at most. -/
  patience : Nat

/-! ## Queries -/

/-- A selection in braces. -/
def braces (selection : String) : String := "\x7b " ++ selection ++ " \x7d"

/-- What is selected of issues. -/
def issueFragment : String :=
  "\nfragment IssueFields on Issue \x7b\n" ++
  "    id identifier url title description\n" ++
  "    priorityLabel estimate\n" ++
  "    state " ++ braces "name type" ++ "\n" ++
  "    labels " ++ braces ("nodes " ++ braces "name") ++ "\n" ++
  "    assignee " ++ braces "id name" ++ "\n" ++
  "    creator " ++ braces "id name" ++ "\n" ++
  "    parent " ++ braces "identifier" ++ "\n" ++
  "    children(first: 1) " ++ braces ("nodes " ++ braces "id") ++ "\n" ++
  "    createdAt updatedAt completedAt dueDate\n\x7d"

/-- A page of issues with the place from which the list goes on. -/
def issuePage : String :=
  braces ("nodes " ++ braces "...IssueFields" ++ " pageInfo " ++ braces "hasNextPage endCursor")

/-- The query for one issue. -/
def issueQuery : String :=
  "query($id: String!) " ++ braces ("issue(id: $id) " ++ braces "...IssueFields") ++ issueFragment

/-- The query for the issues directly under one. -/
def childrenQuery : String :=
  "query($id: String!, $first: Int!, $after: String) " ++
  braces ("issue(id: $id) " ++ braces ("children(first: $first, after: $after) " ++ issuePage)) ++
  issueFragment

/-- The query for the issues completed by a person in some time. -/
def resolvedQuery : String :=
  let assignee := "assignee: " ++ braces ("id: " ++ braces "eq: $user")
  let completion := "completedAt: " ++ braces "gte: $start, lt: $end"
  "query($user: ID!, $start: DateTimeOrDuration!, $end: DateTimeOrDuration!, " ++
  "$first: Int!, $after: String) " ++
  braces ("issues(first: $first, after: $after, filter: " ++
    braces (assignee ++ ", " ++ completion) ++ ") " ++ issuePage) ++
  issueFragment

/-- The query for the comments on an issue. -/
def commentsQuery : String :=
  "query($id: String!, $first: Int!) " ++
  braces ("issue(id: $id) " ++ braces ("comments(first: $first, orderBy: createdAt) " ++
    braces ("nodes " ++ braces ("id body createdAt updatedAt user " ++ braces "id name"))))

/-! ## Answers -/

/-- The data in the body of an answer. -/
def dataOf (body : String) : Client Data :=
  match Json.readValue? body.toList with
  | none => .fail (.transport .undecodable)
  | some d =>
    match d.field? "errors", d.field? "data" with
    | some errors, _ => .fail (.service serviceName (.query (Json.write errors)))
    | none, some found => pure found
    | none, none => .fail (.service serviceName .noData)

/-- Reads the value of one field, null where it is missing. -/
def only {α : Type} (name : String) (decode : Decode α) : Decode (Option α) :=
  .structure (.optional name decode)

/-- Follows the pages of a list from one to the next. -/
def collect {α : Type} (patience : Nat) (page : Option String → Client (Connection α))
    (after : Option String) : Client (List α) :=
  match patience with
  | 0 => .fail .abandoned
  | patience + 1 => do
    let found ← page after
    match found.next with
    | some cursor =>
      if found.nodes.isEmpty then pure []
      else do
        let rest ← collect patience page (some cursor)
        pure (found.nodes ++ rest)
    | none => pure found.nodes

/-- The newest comments first; those of one time keep their order. -/
def newestFirst (comments : List Comment) : List Comment :=
  comments.mergeSort fun a b => b.createdAt ≤ a.createdAt

namespace Account

/-- Puts a query and decodes what is found. -/
def ask {α : Type} (a : Account) (query : String) (bindings : List (String × Data))
    (decode : Decode α) : Client α := do
  let body := Data.record [("query", .text query), ("variables", .record bindings)]
  let answer ← Client.exchange serviceName <|
    Http.request .post address []
      [("authorization", a.token), ("content-type", "application/json")] (some body)
  let found ← dataOf answer
  .ofOption .json (decode found)

/-- The issue with a key, if there is one. -/
def issue? (a : Account) (key : String) : Client (Option Issue) := do
  match ← a.ask issueQuery [("id", .text key)] (only "issue" Record.decode) with
  | some record => .ofExcept (record.issue.map some)
  | none => pure none

/-- The issues with the given keys, as far as there are any. -/
def issues (a : Account) (keys : List String) : Client (List Issue) := do
  let found ← Plan.all (keys.map a.issue?)
  pure (found.filterMap id)

/-- One page of the issues directly under one. -/
def childPage (a : Account) (key : String) (after : Option String) :
    Client (Connection Record) := do
  let node : Decode (Connection Record) :=
    .structure (.required "children" (Connection.decode Record.decode))
  let found ← a.ask childrenQuery
    [("after", .ofText? after), ("first", .ofNat pageSize), ("id", .text key)]
    (only "issue" node)
  pure (found.getD ⟨[], none⟩)

/-- The issues directly under one. -/
def children (a : Account) (key : String) : Client (List Issue) := do
  let records ← collect a.patience (a.childPage key) none
  .ofExcept (records.mapM Record.issue)

/-- The newest comments on an issue. -/
def comments (a : Account) (key : String) (limit : Nat) : Client (List Comment) := do
  let node : Decode (Connection Comment) :=
    .structure (.required "comments" (Connection.decode comment))
  let found ← a.ask commentsQuery [("first", .ofNat pageSize), ("id", .text key)]
    (only "issue" node)
  let all := (found.map Connection.nodes).getD []
  pure ((newestFirst all).take limit)

/-- One page of the issues completed by a person from `start` on and before
`stop`. -/
def resolvedPage (a : Account) (person : String) (start stop : Instant)
    (after : Option String) : Client (Connection Record) :=
  a.ask resolvedQuery
    [("after", .ofText? after), ("end", .text stop.toOffsetText), ("first", .ofNat pageSize),
     ("start", .text start.toOffsetText), ("user", .text person)]
    (.structure (.required "issues" (Connection.decode Record.decode)))

/-- The issues completed by a person from `start` on and before `stop`. -/
def resolved (a : Account) (person : String) (start stop : Instant) : Client (List Issue) := do
  let records ← collect a.patience (a.resolvedPage person start stop) none
  .ofExcept (records.mapM Record.issue)

end Account

end TeamDigest.Service.Linear
