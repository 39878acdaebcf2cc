import TeamDigest.CommandLine
import TeamDigest.Config.Secrets
import TeamDigest.Config.Validity
import TeamDigest.Host
import TeamDigest.Host.Path

/-!
# Setting up a run

Where the program finds its files, its configuration and its secrets.
-/

namespace TeamDigest.Run

/-- The variables with secrets. -/
def secretNames : List String :=
  ["ANTHROPIC_AUTH_TOKEN", "JIRA_API_TOKEN", "LINEAR_API_KEY", "GITHUB_TOKEN",
   "PAGERDUTY_TOKEN", "SLACK_WEBHOOK_URL"]

/-- The variables of the host that may hold secrets. -/
def environment : Job Environment := do
  let values ← Plan.all (secretNames.map Job.env)
  pure fun name => (List.lookup name (secretNames.zip values)).join

/-- The home directory of the user: the one that the environment names, or else
the one of the user's account. -/
def home? : Job (Option String) := do
  match (← Job.env "HOME").filter (!·.isEmpty) with
  | some home => pure (some home)
  | none => pure ((← Job.account).filter (!·.isEmpty))

/-- A path under the home directory of the user. -/
def homePath (names : List String) : Job String := do
  match ← home? with
  | some home => pure (names.foldl Host.Path.child home)
  | none => .fail (.config .noHome)

/-- The usual path of the configuration. -/
def usualConfigPath : Job String := homePath [".config", "eng-digest", "config.toml"]

/-- The directory in which rollups are stored. -/
def storeDirectory : Job String := homePath [".cache", "eng-digest"]

/-- The path of the configuration that a command line asks for. -/
def configPath (line : CommandLine) : Job String :=
  match line.config with
  | some path => pure path
  | none => usualConfigPath

/-- The text of a file. -/
def readText (path : String) : Job String := do
  let bytes ← Job.settled .file (← Job.read path)
  .ofOption (.file .notText) (String.fromUTF8? bytes)

/-- The configuration in a file, if it is a valid one. -/
def readConfig (path : String) : Job Config := do
  if ← Job.present path then
    let text ← readText path
    .ofExcept (Config.ofText text)
  else .fail (.config (.fileMissing path))

/-- The configuration that a command line asks for. -/
def loadConfig (line : CommandLine) : Job Config := do
  let path ← configPath line
  let c ← (readConfig path).during
    ("could not load " ++ path ++ " (run `eng-digest init` to create one)")
  pure (if line.noStore then { c with storeEnabled := false } else c)

/-- Writes the standard configuration to a file; the directory for it is made
where it is missing. -/
def createConfig (path : String) : Job Unit := do
  let directory := Host.Path.directory path
  if !directory.isEmpty then Job.settled .file (← Job.makeDirectory directory)
  Job.settled .file (← Job.write path Config.standard.toText.toUTF8)

end TeamDigest.Run
