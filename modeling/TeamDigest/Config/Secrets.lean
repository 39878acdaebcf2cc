import TeamDigest.Config
import TeamDigest.Error
import TeamDigest.Text.Blank

/-!
# Secrets

Keys and tokens are taken from the environment or else from the configuration;
a blank one counts as not set.
-/

namespace TeamDigest

/-- The variables of the environment. -/
abbrev Environment := String → Option String

namespace Environment

/-- The secret in a variable or else in a setting. -/
def secret? (env : Environment) (place : String) (setting : Option String) : Option String :=
  let isSet (value : String) : Bool := !Text.isBlankText value
  ((env place).filter isSet).or (setting.filter isSet)

end Environment

/-- The variable with the token for the tracker, and the setting. -/
def TrackerConfig.secretPlaces : TrackerConfig → String × Option String
  | .jira _ _ token => ("JIRA_API_TOKEN", token)
  | .linear token => ("LINEAR_API_KEY", token)

namespace Config

/-- The key to the writer of rollups. -/
def claudeSecret (c : Config) (env : Environment) : Except Error String :=
  match env.secret? "ANTHROPIC_AUTH_TOKEN" c.claudeKey with
  | some key => .ok key
  | none => .error (.missing "claude_api_key (or ANTHROPIC_AUTH_TOKEN) is required")

/-- The token for the code host. -/
def githubSecret? (c : Config) (env : Environment) : Option String :=
  env.secret? "GITHUB_TOKEN" c.githubToken

/-- The address to which reports are published. -/
def slackSecret? (c : Config) (env : Environment) : Option String :=
  env.secret? "SLACK_WEBHOOK_URL" c.slackWebhook

/-- The token for the tracker. -/
def trackerSecret (c : Config) (env : Environment) : Except Error String :=
  let (place, setting) := c.tracker.secretPlaces
  match env.secret? place setting with
  | some token => .ok token
  | none => .error (.missing ("project-management token (or " ++ place ++ ") is required"))

/-- The token for the incident service and the services of interest, where there
is an incident service and a token. -/
def incidentSecret? (c : Config) (env : Environment) : Option (String × List String) := do
  let settings ← c.incidents
  let token ← env.secret? "PAGERDUTY_TOKEN" settings.token
  some (token, settings.services)

end Config

end TeamDigest
