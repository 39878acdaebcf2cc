import TeamDigest.Text.Blank
import TeamDigest.Work.Issue

/-!
# What is asked of the writer of rollups

The resolved issues as titled paragraphs, and the request that goes around
them.
-/

namespace TeamDigest.Rollup

open Text Work

/-- The line with the description, unless that is blank. -/
def descriptionLine : Option String → String
  | some d => if isBlankText d then "" else trimmed d ++ "\n"
  | none => ""

/-- The paragraph on one issue. -/
def issueParagraph (i : Issue) : String :=
  "### " ++ i.title ++ "\n" ++
  "Assignee: " ++ i.assigneeName.getD "Unassigned" ++ "\n" ++
  descriptionLine i.description ++ "\n"

/-- The paragraphs on a set of issues. -/
def issueText (issues : IssueSet) : String :=
  String.join (issues.toList.map issueParagraph)

/-- The request for a rollup of a text. -/
def request (text : String) : String :=
  "You are writing a weekly engineering status update for Slack.\n\n" ++
  "Below are the issues the team resolved this period. Each issue has a " ++
  "title, an assignee and an optional description.\n\n" ++
  "---\n" ++
  trimmed text ++
  "\n---\n\n" ++
  "Summarize the work in 1-5 short bullet points:\n" ++
  "- Group related issues into one bullet\n" ++
  "- Focus on user-visible outcomes, not implementation details\n" ++
  "- Do not mention issue keys or assignees\n" ++
  "- Reply with the bullets only, one per line, each starting with \"- \"\n"

/-- What the writer is told about its task in general. -/
def instruction : String :=
  "You summarize engineering work for a team status channel. " ++
  "Be concise and concrete. Never invent work that is not in the input."

end TeamDigest.Rollup
