import TeamDigest.Plan
import TeamDigest.Plan.Turns
import TeamDigest.Work.Comment
import TeamDigest.Work.Incident
import TeamDigest.Work.Issue
import TeamDigest.Work.PullRequest

/-!
# The sources of a digest

What a digest is gathered from: an issue tracker, a code host, an incident
service and a writer of rollups.  The questions to them form one interface.

Work that may go on side by side is gathered with `gather`: the tasks are
started in the order given, and their results come in the order in which the
tasks end.  That order is a question too, so that whatever is said of all
worlds is said of all orders.
-/

namespace TeamDigest.Gather

open Work

/-- What may be asked of the sources. -/
inductive Question where
  /-- The issues with the given keys. -/
  | issues (keys : List String)
  /-- The issues directly under one. -/
  | children (key : String)
  /-- The newest comments on an issue, at most `limit` of them. -/
  | comments (key : String) (limit : Nat)
  /-- The issues that a person completed inside a window. -/
  | resolved (person : String) (window : Window)
  /-- How many issues a person completed inside a window. -/
  | resolvedCount (person : String) (window : Window)
  /-- The pull requests of a person that were merged inside a window. -/
  | mergedBy (login : String) (orgs : List String) (window : Window)
  /-- The pull requests that mention a text and were merged inside a window. -/
  | mentioning (text : String) (orgs : List String) (window : Window)
  /-- The incidents of a service inside a window. -/
  | incidents (service : String) (window : Window)
  /-- A text in a few bullets. -/
  | rollup (text : String)
  /-- The order in which tasks end that run side by side. -/
  | turns (tasks : Nat)
  deriving DecidableEq

/-- The types of the answers. -/
@[reducible] def Question.Answer : Question → Type
  | .issues _ => List Issue
  | .children _ => List Issue
  | .comments _ _ => List Comment
  | .resolved _ _ => List Issue
  | .resolvedCount _ _ => Nat
  | .mergedBy _ _ _ => List PullRequest
  | .mentioning _ _ _ => List PullRequest
  | .incidents _ _ => List Incident
  | .rollup _ => String
  | .turns n => Turns n

/-- The sources of a digest. -/
abbrev sources : Interface := ⟨Question, Question.Answer⟩

/-- A computation that asks the sources. -/
abbrev Task (α : Type) : Type := Plan sources α

namespace Task

/-- Asks for the issues with the given keys. -/
def issues (keys : List String) : Task (List Issue) := .ask (Question.issues keys) .done

/-- Asks for the issues directly under one. -/
def children (key : String) : Task (List Issue) := .ask (Question.children key) .done

/-- Asks for the newest comments on an issue. -/
def comments (key : String) (limit : Nat) : Task (List Comment) :=
  .ask (Question.comments key limit) .done

/-- Asks for the issues that a person completed. -/
def resolved (person : String) (window : Window) : Task (List Issue) :=
  .ask (Question.resolved person window) .done

/-- Asks how many issues a person completed. -/
def resolvedCount (person : String) (window : Window) : Task Nat :=
  .ask (Question.resolvedCount person window) .done

/-- Asks for the merged pull requests of a person. -/
def mergedBy (login : String) (orgs : List String) (window : Window) :
    Task (List PullRequest) :=
  .ask (Question.mergedBy login orgs window) .done

/-- Asks for the merged pull requests that mention a text. -/
def mentioning (text : String) (orgs : List String) (window : Window) :
    Task (List PullRequest) :=
  .ask (Question.mentioning text orgs window) .done

/-- Asks for the incidents of a service. -/
def incidents (service : String) (window : Window) : Task (List Incident) :=
  .ask (Question.incidents service window) .done

/-- Asks for a text in a few bullets. -/
def rollup (text : String) : Task String := .ask (Question.rollup text) .done

/-- Carries out tasks side by side; the results stand in the order in which the
tasks end. -/
def gather {α : Type} (tasks : List (Task α)) : Task (List α) := do
  let results ← Plan.all tasks
  .ask (Question.turns results.length) fun turns => .done (Turns.arrange results turns)

end Task

end TeamDigest.Gather
