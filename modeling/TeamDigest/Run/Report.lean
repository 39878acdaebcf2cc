import TeamDigest.Gather.Digest
import TeamDigest.Gather.Tally
import TeamDigest.Run.Services
import TeamDigest.Service.Slack

/-!
# Making reports

A report is gathered, written to a file or printed, and published last of all.
So whatever fails before leaves nothing behind, and what is published is what
was written.
-/

namespace TeamDigest.Run

open Gather Report

/-- The window of a number of days up to now. -/
def windowOf (days : Nat) : Job Window := do
  .ofOption .outOfCalendar (Window.endingAt? (← Job.now) days)

/-- What the gathering of a report works with. -/
def scopeOf (c : Config) (window : Window) : Scope :=
  { users := c.users, orgs := c.githubOrgs, window, patience }

/-- What a digest is to cover. -/
def briefOf (c : Config) (env : Environment) (options : DigestOptions) : Brief :=
  { name := c.summaryName
    projects := c.projects
    people := c.miscUsers
    includeMisc := c.includeMisc && !options.noMisc
    services := (c.incidentSecret? env).map Prod.snd }

/-- Writes a report to a file or prints it. -/
def deliver (text : String) : Option String → Job Unit
  | some path => do
    Job.settled (.unwritable path) (← Job.write path text.toUTF8)
    Job.note ("✓ Wrote summary to " ++ path ++ "\n")
  | none => Job.print (text ++ "\n")

/-- Publishes a report. -/
def publish (c : Config) (env : Environment) (text : String) : Job Unit := do
  let webhook ← .ofOption .noWebhook (c.slackSecret? env)
  (Job.online (Service.Slack.publish webhook text)).during "could not publish to Slack"
  Job.note "✓ Published to Slack\n"

/-- Brings a report to its readers. -/
def emit (c : Config) (env : Environment) (text : String) (output : Option String)
    (isPublished : Bool) : Job Unit := do
  deliver text output
  if isPublished then publish c env text

/-- Makes a digest. -/
def digest (line : CommandLine) (options : DigestOptions) : Job Unit := do
  let c ← loadConfig line
  let env ← environment
  let services ← openServices c env
  let window ← windowOf (options.days.getD c.timespanDays)
  let task := (scopeOf c window).digest (briefOf c env options)
  let digest ← (services.carryOut task).during "summary run failed"
  emit c env (digest.markup options.detail) options.output options.publish

/-- Makes tallies. -/
def tally (line : CommandLine) (options : TallyOptions) : Job Unit := do
  let c ← loadConfig line
  let env ← environment
  let services ← openServices c env
  let window ← windowOf (options.days.getD c.timespanDays)
  let tallies ← (services.carryOut (scopeOf c window).tallies).during "metrics run failed"
  emit c env (Tally.markup (c.summaryName ++ " metrics") window tallies) none options.publish

end TeamDigest.Run
