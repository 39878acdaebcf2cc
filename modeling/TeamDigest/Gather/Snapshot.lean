import TeamDigest.Gather.Sources
import TeamDigest.Data.Decode
import TeamDigest.Text.Pieces

/-!
# Snapshots of the sources

A snapshot holds answers that were taken down beforehand, so that a digest can
be gathered again without any service.  Each question is a call with a name; a
call that is down is not answered.
-/

namespace TeamDigest.Gather

open Work Text

/-- Answers that were taken down beforehand. -/
structure Snapshot where
  issues : List Issue
  /-- The issues directly under one, by its key. -/
  children : List (String × List Issue)
  /-- The comments on an issue, by its key. -/
  comments : List (String × List Comment)
  /-- The issues that a person completed, by the id of the person. -/
  resolved : List (String × List Issue)
  /-- The pull requests that mention a text, by the text. -/
  byText : List (String × List PullRequest)
  /-- The pull requests of a person, by login. -/
  byLogin : List (String × List PullRequest)
  /-- The incidents of a service, by its id. -/
  incidents : List (String × List Incident)
  orgs : List String
  /-- What the writer answers to any text. -/
  reply : String
  /-- The names of the calls that are down. -/
  down : List String

namespace Question

/-- The bounds of a window as a part of a line. -/
def span (w : Window) : String :=
  signedDecimal w.start.second ++ ".." ++ signedDecimal w.stop.second

/-- Organisations as a part of a line. -/
def orgList (orgs : List String) : String := "[" ++ join "," orgs ++ "]"

/-- The name of the call that puts the question to a service. -/
def call? : Question → Option String
  | issues _ => some "get_issues"
  | children key => some ("children:" ++ key)
  | comments key _ => some ("comments:" ++ key)
  | resolved person _ => some ("resolved:" ++ person)
  | resolvedCount person _ => some ("resolved_count:" ++ person)
  | mergedBy login _ _ => some ("user:" ++ login)
  | mentioning text _ _ => some ("text:" ++ text)
  | incidents service _ => some ("incidents:" ++ service)
  | rollup _ => some "summarize"
  | turns _ => none

/-- What follows the name of the call on the line that records the question. -/
def details : Question → List String
  | issues keys => [join "," keys]
  | children _ => []
  | comments _ limit => [decimal limit]
  | resolved _ w => [span w]
  | resolvedCount _ w => [span w]
  | mergedBy _ orgs w => [orgList orgs, span w]
  | mentioning _ orgs w => [orgList orgs, span w]
  | incidents _ w => [span w]
  | rollup text => [text]
  | turns _ => []

/-- The line that records the question. -/
def line? (q : Question) : Option String :=
  q.call?.map fun call => join " " (call :: q.details)

end Question

namespace Snapshot

/-- What stands under a key in a table. -/
def under {α : Type} (key : String) (table : List (String × List α)) : List α :=
  (table.lookup key).getD []

/-- The answer to a question when no call is down. -/
def answer (s : Snapshot) : (q : Question) → q.Answer
  | .issues keys => keys.filterMap fun key => s.issues.find? (·.key == key)
  | .children key => under key s.children
  | .comments key limit => (under key s.comments).take limit
  | .resolved person _ => under person s.resolved
  | .resolvedCount person _ => (under person s.resolved).length
  | .mergedBy login _ _ => under login s.byLogin
  | .mentioning text _ _ => under text s.byText
  | .incidents service _ => under service s.incidents
  | .rollup _ => s.reply
  | .turns n => Turns.inOrder n

/-- What comes of a question whose call is down. -/
def outage (call : String) : Question → Error
  | .rollup _ => .writer .unavailable
  | _ => .service "Fake" (.down call)

/-- The answer to a question, unless its call is down. -/
def answer? (s : Snapshot) (q : Question) : Except Error q.Answer :=
  match q.call? with
  | some call => if call ∈ s.down then .error (outage call q) else .ok (s.answer q)
  | none => .ok (s.answer q)

/-- The result of a task and the lines that record its questions, in order. -/
def run {α : Type} (s : Snapshot) (task : Task α) : Except Error α × List String :=
  let (result, asked) := Plan.run (Plan.recording s.answer?) task []
  (result, asked.reverse.filterMap Question.line?)

/-- Reads a snapshot; what is missing is empty. -/
def decode : Decode Snapshot := .structure do
  let table {α : Type} (name : String) (decode : Decode α) : Fields (List (String × List α)) :=
    .defaulted name (Decode.table (Decode.list decode)) []
  let issues ← .defaulted "issues" (Decode.list Issue.decode) []
  let children ← table "children" Issue.decode
  let comments ← table "comments" Comment.decode
  let resolved ← table "resolved" Issue.decode
  let byText ← table "prs_by_text" PullRequest.decode
  let byLogin ← table "prs_by_user" PullRequest.decode
  let incidents ← table "incidents" Incident.decode
  let orgs ← .defaulted "orgs" (Decode.list Decode.text) []
  let reply ← .defaulted "reply" Decode.text "• summarized"
  let down ← .defaulted "fail" (Decode.list Decode.text) []
  pure { issues, children, comments, resolved, byText, byLogin, incidents, orgs, reply, down }

end Snapshot

end TeamDigest.Gather
