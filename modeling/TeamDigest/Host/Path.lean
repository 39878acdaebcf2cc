import TeamDigest.Text.Pieces

/-!
# Paths

A path names the steps to a file: into a directory by its name, up by two dots,
or nowhere by one dot or nothing.  A path that begins with a slash starts at the
root.
-/

namespace TeamDigest.Host.Path

open Text

/-- The steps of a path. -/
def steps (path : String) : List String := (cut '/' path.toList).map String.ofList

/-- Holds of steps that lead nowhere. -/
def isIdle (step : String) : Bool := step == "" || step == "."

/-- The path of something in a directory. -/
def child (directory name : String) : String :=
  if directory.toList.getLast? = some '/' then directory ++ name else directory ++ "/" ++ name

/-- The directory in which a path ends; empty for the one from which it
starts. -/
def directory (path : String) : String :=
  join "/" ((steps path).reverse.dropWhile isIdle).tail.reverse

end TeamDigest.Host.Path
