import TeamDigest.Report.Markup

/-!
# Command lines

What a user asks for in one call of the program.  Without a command, a digest is
asked for.
-/

namespace TeamDigest

open Report

/-- How a digest is to be made. -/
structure DigestOptions where
  /-- The days that it covers, if not as many as usual. -/
  days : Option Nat
  detail : Detail
  /-- There is no project of untracked work, whatever the configuration says. -/
  noMisc : Bool
  /-- The file in which it is written. -/
  output : Option String
  publish : Bool
  deriving DecidableEq

/-- How a digest is made where nothing is said about it. -/
def DigestOptions.usual : DigestOptions :=
  { days := none, detail := .full, noMisc := false, output := none, publish := false }

/-- How tallies are to be made. -/
structure TallyOptions where
  days : Option Nat
  publish : Bool
  deriving DecidableEq

/-- What the program can do. -/
inductive Command where
  | summary (options : DigestOptions)
  | metrics (options : TallyOptions)
  /-- Writes a standard configuration, over an old one if `force` is set. -/
  | init (force : Bool)
  /-- Shows the configuration. -/
  | config
  /-- Removes all stored rollups. -/
  | clearStore
  /-- Tells how many rollups are stored. -/
  | storeStats
  deriving DecidableEq

/-- One call of the program. -/
structure CommandLine where
  /-- The path of the configuration, if it is not in the usual place. -/
  config : Option String
  /-- Rollups are not stored, whatever the configuration says. -/
  noStore : Bool
  verbosity : Nat
  command : Option Command
  deriving DecidableEq

namespace CommandLine

/-- The days that a command is to cover. -/
def days (line : CommandLine) : Option Nat :=
  match line.command with
  | some (.summary options) => options.days
  | some (.metrics options) => options.days
  | _ => none

/-- What is wrong with a command line: no report covers no days. -/
def fault? (line : CommandLine) : Option String :=
  if line.days = some 0 then some "--days must be greater than 0" else none

end CommandLine

end TeamDigest
