import TeamDigest.CommandLine.Arguments
import TeamDigest.Number.ByteSize
import TeamDigest.Run.Report

/-!
# The program

One call of the program, from its arguments to its exit code.
-/

namespace TeamDigest.Run

open Text

/-- The code with which a run ends, from 0 for success. -/
abbrev ExitCode : Type := Nat

/-- Writes a standard configuration. -/
def initialise (line : CommandLine) (force : Bool) : Job ExitCode := do
  let path ← configPath line
  if (← Job.present path) && !force then
    Job.note ("Config file already exists at: " ++ path ++ "\nUse --force to overwrite\n")
    pure 1
  else
    createConfig path
    Job.print ("✓ Created config file at: " ++ path ++ "\n" ++
      "\nNext steps:\n" ++
      "  1. Add [[projects]] and [[users]] entries\n" ++
      "  2. Set ANTHROPIC_AUTH_TOKEN and JIRA_API_TOKEN (or LINEAR_API_KEY)\n" ++
      "  3. Optionally set GITHUB_TOKEN, PAGERDUTY_TOKEN and SLACK_WEBHOOK_URL\n")
    pure 0

/-- Shows the configuration. -/
def showConfig (line : CommandLine) : Job Unit := do
  let c ← loadConfig line
  Job.print ("Current configuration:\n\n" ++ c.toText ++ "\n")

/-- Removes all stored rollups. -/
def clearStore : Job Unit := do
  let directory ← storeDirectory
  if ← Job.present directory then
    let archive ← (Rollup.Archive.openUnder directory).during "could not open rollup cache"
    let removed ← archive.tend Rollup.clear
    Job.print ("✓ Cleared " ++ decimal removed ++ " cached rollups from " ++ directory ++ "\n")
  else Job.print "Cache directory does not exist\n"

/-- Tells how many rollups are stored, and how much room they take as far as that
is known. -/
def showStore : Job Unit := do
  let directory ← storeDirectory
  if ← Job.present directory then
    Job.print ("Cache directory: " ++ directory ++ "\n")
    match ← (Rollup.Archive.openUnder directory).attempt with
    | .ok archive =>
      let size : Nat ← archive.tend (Rollup.operate .count)
      let extent : Except Error Nat ← (archive.tend (Rollup.operate .extent)).attempt
      Job.print ("Total entries: " ++ decimal size ++ "\n" ++
        "Database size: " ++ Number.byteSize (extent.toOption.getD 0) ++ "\n")
    | .error e => Job.print ("Could not open cache database: " ++ e.message ++ "\n")
  else Job.print "Cache directory does not exist\n"

/-- Does what a command line asks for. -/
def perform (line : CommandLine) : Job ExitCode :=
  match line.command.getD (.summary .usual) with
  | .summary options => do digest line options; pure 0
  | .metrics options => do tally line options; pure 0
  | .init force => initialise line force
  | .config => do showConfig line; pure 0
  | .clearStore => do clearStore; pure 0
  | .storeStats => do showStore; pure 0

/-- The name and the version of the program. -/
def version : String := "eng-digest 0.1.0\n"

/-- How the program is used. -/
def usage : String :=
  "Usage: eng-digest [OPTIONS] [COMMAND]\n\n" ++
  "Commands:\n" ++
  "  summary      Build the multi-project summary\n" ++
  "  metrics      Per-user resolved issue and merged PR counts\n" ++
  "  init         Initialize configuration file\n" ++
  "  config       Show current configuration\n" ++
  "  clear-cache  Clear the cache\n" ++
  "  cache-stats  Show cache statistics\n" ++
  "  help         Print this message\n"

/-- What is wrong with arguments, in words. -/
def complaint : CommandLine.Stop → String
  | .unknown argument => "unexpected argument '" ++ argument ++ "' found"
  | .unknownCommand name => "unrecognized subcommand '" ++ name ++ "'"
  | .badValue value => "invalid value '" ++ value ++ "' for an option"
  | .badNumber value => "invalid value '" ++ value ++ "' for '--days <DAYS>'"
  | .repeated => "an argument cannot be used multiple times"
  | .surplusValue value => "unexpected value '" ++ value ++ "' found; no more were expected"
  | .help | .version => ""

/-- Ends a run in which the arguments are not read to their end. -/
def endEarly : CommandLine.Stop → Job ExitCode
  | .help => do Job.print usage; pure 0
  | .version => do Job.print version; pure 0
  | stop => do
    Job.note ("error: " ++ complaint stop ++ "\n\nFor more information, try '--help'.\n")
    pure 2

/-- Ends a run that an error has come up in.  A date outside the calendar is
the one that nothing is prepared for. -/
def endBadly : Error → Job ExitCode
  | .outOfCalendar => do
    Job.note (Error.outOfCalendar.message ++ "\n")
    pure 101
  | e => do
    Job.note (e.account ++ "\n")
    pure 1

/-- One call of the program. -/
def program (arguments : List String) : Job ExitCode :=
  match CommandLine.read arguments with
  | .error stop => endEarly stop
  | .ok line =>
    match line.fault? with
    | some fault => do
      Job.note ("Error: " ++ fault ++ "\n")
      pure 1
    | none => do
      match ← (perform line).attempt with
      | .ok code => pure code
      | .error e => endBadly e

end TeamDigest.Run
