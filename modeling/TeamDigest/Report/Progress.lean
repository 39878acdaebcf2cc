import TeamDigest.Number.Word
import TeamDigest.Work.Issue

/-!
# Progress

The counts behind one line of progress, and the line itself: a bar of ten
cells, the share of closed work in percent, and the balance of opened against
resolved work.

Counts are words of 64 bits, and so are their products and their difference.
-/

namespace TeamDigest.Report

open Work

/-- The counts behind a line of progress. -/
structure Progress where
  /-- All work items. -/
  total : Nat
  /-- Those that have been completed at any time. -/
  closed : Nat
  /-- Those completed inside the window. -/
  resolved : Nat
  /-- Those created inside the window. -/
  opened : Nat
  deriving DecidableEq

namespace Progress

/-- The number of cells of a bar. -/
def width : Nat := 10

/-- A product of counts, as a word. -/
def times (a b : Nat) : Nat := a * b % Number.wordSize64

/-- Counts the work items of a set, and those of the part of it that changed
inside the window. -/
def ofIssues (issues changed : IssueSet) (w : Window) : Progress :=
  let work := issues.toList.filter Issue.isWork
  let recent := changed.toList.filter Issue.isWork
  { total := work.length
    closed := (work.filter Issue.isCompleted).length
    resolved := (recent.filter (·.completedWithin w)).length
    opened := (recent.filter (·.createdWithin w)).length }

/-- The closed share in percent, rounded down. -/
def percent (p : Progress) : Nat :=
  if p.total = 0 then 0 else times p.closed 100 / p.total

/-- Opened less resolved work. -/
def net (p : Progress) : Int :=
  Int.bmod ((p.opened : Int) - p.resolved) Number.wordSize64

/-- The cells that stand for closed work. -/
def closedCells (p : Progress) : Nat :=
  if p.total = 0 then 0 else min (times p.closed width / p.total) width

/-- Those of the closed cells that stand for work resolved inside the window. -/
def windowCells (p : Progress) : Nat :=
  if p.total = 0 then 0 else min (times p.resolved width / p.total) p.closedCells

/-- The cells of a bar. -/
inductive Cell where
  /-- Closed before the window. -/
  | closed
  /-- Resolved inside the window. -/
  | recent
  /-- Open. -/
  | remaining
  deriving DecidableEq

/-- How a cell is shown. -/
def Cell.sign : Cell → Char
  | .closed => '🟦'
  | .recent => '🟨'
  | .remaining => '⬜'

/-- The bar, cell by cell. -/
def cells (p : Progress) : List Cell :=
  List.replicate (p.closedCells - p.windowCells) .closed ++
    (List.replicate p.windowCells .recent ++
      List.replicate (width - p.closedCells) .remaining)

/-- The bar as text. -/
def bar (p : Progress) : String := String.ofList (p.cells.map Cell.sign)

/-- The balance with its sign; more opened than resolved work is no good news. -/
def netLabel (p : Progress) : String :=
  if p.net = 0 then "⚖️ 0"
  else if 0 < p.net then "📉 +" ++ Text.signedDecimal p.net
  else "📈 " ++ Text.signedDecimal p.net

/-- The line of progress. -/
def line (p : Progress) : String :=
  p.bar ++ " " ++ Text.decimal p.percent ++ "% | " ++ p.netLabel ++ " net issues"

theorem windowCells_le (p : Progress) : p.windowCells ≤ p.closedCells := by
  unfold windowCells
  split
  · exact Nat.zero_le _
  · exact Nat.min_le_right _ _

theorem closedCells_le (p : Progress) : p.closedCells ≤ width := by
  unfold closedCells
  split
  · exact Nat.zero_le _
  · exact Nat.min_le_right _ _

/-- Every bar has ten cells. -/
theorem length_cells (p : Progress) : p.cells.length = width := by
  have h₁ := p.windowCells_le
  have h₂ := p.closedCells_le
  simp only [cells, List.length_append, List.length_replicate]
  omega

end Progress

end TeamDigest.Report
