import TeamDigest.Gather.Sources
import TeamDigest.Number.Word
import TeamDigest.Rollup.Archive
import TeamDigest.Run.Setup
import TeamDigest.Service.Claude
import TeamDigest.Service.GitHub
import TeamDigest.Service.PagerDuty
import TeamDigest.Service.Tracker

/-!
# The services of a run

The accounts at services that a configuration and the secrets lead to, and how
they answer the questions from which reports are gathered.  Rollups come from
the store where it is in use.
-/

namespace TeamDigest.Run

open Service Gather

/-- How long a list or a hierarchy may be before the search in it is given up. -/
def patience : Nat := Number.wordSize64

/-- The services of a run. -/
structure Services where
  tracker : Tracker
  github : GitHub.Account
  writer : Claude.Account
  /-- The store of rollups and their lifetime, if rollups are stored. -/
  store : Option (Rollup.Archive × Nat)
  /-- The incident service, if there is one. -/
  incidents : Option PagerDuty.Account

/-- The account at the tracker of a configuration. -/
def trackerOf (config : TrackerConfig) (token : String) : Tracker :=
  match config with
  | .jira baseUrl email _ => .jira (.of baseUrl email token)
  | .linear _ => .linear { token, patience }

/-- Opens the store of rollups and removes what has expired; that this fails
does no harm. -/
def openStore (lifetime : Nat) : Job Rollup.Archive := do
  let archive ← Rollup.Archive.openUnder (← storeDirectory)
  discard (archive.tend (Rollup.cleanup lifetime)).attempt
  pure archive

/-- The services of a configuration. -/
def openServices (c : Config) (env : Environment) : Job Services := do
  let trackerToken ← .ofExcept (c.trackerSecret env)
  let key ← .ofExcept (c.claudeSecret env)
  let store ←
    if c.storeEnabled then do
      let archive ← (openStore c.storeLifetime).during "could not open rollup cache"
      pure (some (archive, c.storeLifetime))
    else pure none
  pure
    { tracker := trackerOf c.tracker trackerToken
      github := { token := c.githubSecret? env }
      writer := .of key c.claudeModel c.claudeMaxTokens
      store
      incidents := (c.incidentSecret? env).map fun (token, _) => { token } }

namespace Services

/-- The rollup of a text. -/
def rollup (s : Services) (text : String) : Job String :=
  let write (text : String) : Job String := Job.online (s.writer.rollup text)
  match s.store with
  | some (archive, lifetime) => archive.carryOut write (Rollup.rollup lifetime text)
  | none => write text

/-- The answer to a question.  Work that may go on side by side is done one
after the other here. -/
def answer (s : Services) : (q : Gather.Question) → Job q.Answer
  | .issues keys => Job.online (s.tracker.issues keys)
  | .children key => Job.online (s.tracker.children key)
  | .comments key limit => Job.online (s.tracker.comments key limit)
  | .resolved person w => Job.online (s.tracker.resolved person w.start w.stop)
  | .resolvedCount person w => Job.online (s.tracker.resolvedCount person w.start w.stop)
  | .mergedBy login orgs w => Job.online (s.github.mergedBy login orgs w.start w.stop)
  | .mentioning text orgs w => Job.online (s.github.mentioning text orgs w.start w.stop)
  | .incidents service w =>
    match s.incidents with
    | some account => Job.online (account.incidents service w.start w.stop)
    | none => .done ([] : List Work.Incident)
  | .rollup text => s.rollup text
  | .turns n => .done (Turns.inOrder n)

/-- Carries out a gathering. -/
def carryOut {α : Type} (s : Services) (task : Gather.Task α) : Job α := task.serve s.answer

end Services

end TeamDigest.Run
