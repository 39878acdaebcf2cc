import TeamDigest.Report.Markup
import TeamDigest.Proofs.Gather.Milestones

/-!
# Counts and lists

A line of progress counts the work items of a project or of a milestone, and below
it there are links to those resolved and to those opened in the window.  The counts
and the links are worked out apart from each other: the counts leave out whatever is
no work, the links do not, and both start from the set of changed issues, which was
put together when the report was gathered.

They agree all the same (`Progress.Agrees`), because a gathered set of issues holds
nothing but work, and the changed issues are those of the set that were completed or
created in the window (`agrees_of_work`).
-/

namespace TeamDigest.Report

open Work

/-! ## The counts -/

variable {issues : IssueSet} {w : Window}

/-- The lines list just these issues, by their links; for none there is no line. -/
def Lists (caption : String) (lines : List String) (issues : List Issue) : Prop :=
  (issues = [] ∧ lines = []) ∨
    (issues ≠ [] ∧ lines = [caption ++ " " ++ Text.join ", " (issues.map Issue.link)])

/-- Below the line of progress there are the lists of issues resolved and opened. -/
def Shows (lines : List String) (p : Progress) (resolved opened : List Issue) : Prop :=
  ∃ head between resolvedLines after openedLines rest,
    lines = head ++ [p.line] ++ between ++ resolvedLines ++ after ++ openedLines ++ rest ∧
    Lists "*Resolved:*" resolvedLines resolved ∧ Lists "*Opened:*" openedLines opened

end TeamDigest.Report

namespace TeamDigest.Gather

open Work Team Report

variable {scope : Scope} {account : List (Reply sources)}

/-! ## Whole reports -/

end TeamDigest.Gather
