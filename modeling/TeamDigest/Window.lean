import TeamDigest.Data.Decode
import TeamDigest.Time.Writer

/-!
# Reporting windows

A report covers the time from the start of a window to its end, both included.
-/

namespace TeamDigest

open Time

/-- The time that a report covers. -/
structure Window where
  /-- The first instant covered. -/
  start : Instant
  /-- The last instant covered. -/
  stop : Instant
  deriving DecidableEq, Inhabited

namespace Window

/-- The window of `days` days that ends at `stop`; `none` when it would begin
before the calendar does. -/
def endingAt? (stop : Instant) (days : Nat) : Option Window :=
  (stop.addDays? (-(days : Int))).map fun start => ⟨start, stop⟩

/-- Holds of the instants that the window covers. -/
def contains (w : Window) (t : Instant) : Bool :=
  w.start ≤ t && t ≤ w.stop

/-- The whole days that the window covers; negative when it ends before it
starts. -/
def days (w : Window) : Int :=
  Int.tdiv (Instant.elapsed w.start w.stop) (Instant.ofDays 1)

/-- What stands in a report in which nothing was resolved. -/
def noUpdates (w : Window) : String :=
  "* No updates in the last " ++ Text.signedDecimal w.days ++ " days*"

/-- The window in a headline, such as `(Jun 07 - Jun 14, 2024)`. -/
def caption (w : Window) : String :=
  "(" ++ w.start.monthDay ++ " - " ++ w.stop.monthDayYear ++ ")"

@[simp] theorem contains_iff {w : Window} {t : Instant} :
    w.contains t = true ↔ w.start ≤ t ∧ t ≤ w.stop := by
  simp [contains]

/-- Reads a window. -/
def decode : Decode Window := .structure do
  let start ← .required "start" Decode.instant
  let stop ← .required "end" Decode.instant
  pure ⟨start, stop⟩

/-- Writes a window. -/
def encode (w : Window) : Data :=
  .record [("start", .text w.start.toText), ("end", .text w.stop.toText)]

end Window

end TeamDigest
