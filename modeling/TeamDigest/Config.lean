import TeamDigest.Team.Project
import TeamDigest.Team.User
import TeamDigest.Toml.Reader
import TeamDigest.Toml.Writer

/-!
# Configurations

What a team sets once: the services it uses, its people and its projects.  A
configuration is a record in which most fields may be missing; a missing field
has the value of the standard configuration.  In a file it is a TOML document,
in which settings that are not set are left out.
-/

namespace TeamDigest

open Team

/-- The issue tracker of a team. -/
inductive TrackerConfig where
  | jira (baseUrl email : String) (token : Option String)
  | linear (token : Option String)
  deriving DecidableEq

/-- The incident service of a team. -/
structure IncidentConfig where
  token : Option String
  services : List String
  deriving DecidableEq

/-- What a team sets once. -/
structure Config where
  /-- The name of the digest. -/
  summaryName : String
  /-- The days that a digest covers where nothing else is asked for. -/
  timespanDays : Nat
  /-- Work that belongs to no project is reported too. -/
  includeMisc : Bool
  claudeKey : Option String
  claudeModel : Option String
  claudeMaxTokens : Option Nat
  /-- Rollups are stored. -/
  storeEnabled : Bool
  /-- The hours for which a stored rollup is recalled. -/
  storeLifetime : Nat
  githubToken : Option String
  githubOrgs : List String
  slackWebhook : Option String
  tracker : TrackerConfig
  incidents : Option IncidentConfig
  users : List User
  projects : List Project
  deriving DecidableEq

namespace TrackerConfig

/-- Reads the settings of the tracker with a name. -/
def decodeNamed (name : String) : Decode TrackerConfig :=
  match name with
  | "jira" => .structure do
    let baseUrl ← .required "base_url" Decode.text
    let email ← .required "email" Decode.text
    let token ← .omittable "api_token" Decode.text
    pure (jira baseUrl email token)
  | "linear" => .structure do
    let token ← .omittable "api_key" Decode.text
    pure (linear token)
  | _ => fun _ => none

/-- Reads the settings of a tracker, among which its name tells what else is to
be read. -/
def decode : Decode TrackerConfig
  | .record fields =>
    match Data.named "backend" fields with
    | [.text name] => decodeNamed name (.record (fields.filter fun f => f.1 != "backend"))
    | _ => none
  | .list (.text name :: items) => decodeNamed name (.list items)
  | _ => none

/-- Writes the settings of a tracker. -/
def encode : TrackerConfig → Data
  | jira baseUrl email token =>
    .record
      [("backend", .text "jira"), ("base_url", .text baseUrl), ("email", .text email),
       ("api_token", .ofText? token)]
  | linear token => .record [("backend", .text "linear"), ("api_key", .ofText? token)]

end TrackerConfig

namespace IncidentConfig

/-- Reads the settings of an incident service. -/
def decode : Decode IncidentConfig := .structure do
  let token ← .omittable "api_token" Decode.text
  let services ← .defaulted "service_ids" (Decode.list Decode.text) []
  pure { token, services }

/-- Writes the settings of an incident service. -/
def encode (c : IncidentConfig) : Data :=
  .record [("api_token", .ofText? c.token), ("service_ids", .ofTexts c.services)]

end IncidentConfig

namespace Config

/-- The configuration that a new file holds. -/
def standard : Config :=
  { summaryName := "Weekly Engineering Summary"
    timespanDays := 7
    includeMisc := true
    claudeKey := none
    claudeModel := none
    claudeMaxTokens := none
    storeEnabled := true
    storeLifetime := 24
    githubToken := none
    githubOrgs := []
    slackWebhook := none
    tracker := .jira "https://your-site.atlassian.net" "you@example.com" none
    incidents := none
    users := []
    projects := [] }

/-- Reads a configuration. -/
def decode : Decode Config := .structure do
  let summaryName ← .defaulted "summary_name" Decode.text standard.summaryName
  let timespanDays ← .defaulted "default_timespan_days" Decode.nat32 standard.timespanDays
  let includeMisc ← .defaulted "include_misc" Decode.bool standard.includeMisc
  let claudeKey ← .omittable "claude_api_key" Decode.text
  let claudeModel ← .omittable "claude_model" Decode.text
  let claudeMaxTokens ← .omittable "claude_max_tokens" Decode.nat32
  let storeEnabled ← .defaulted "cache_enabled" Decode.bool standard.storeEnabled
  let storeLifetime ← .defaulted "cache_ttl_hours" Decode.nat32 standard.storeLifetime
  let githubToken ← .omittable "github_token" Decode.text
  let githubOrgs ← .defaulted "github_orgs" (Decode.list Decode.text) []
  let slackWebhook ← .omittable "slack_webhook_url" Decode.text
  let tracker ← .required "project_management" TrackerConfig.decode
  let incidents ← .omittable "pagerduty" IncidentConfig.decode
  let users ← .defaulted "users" (Decode.list User.decode) []
  let projects ← .defaulted "projects" (Decode.list Project.decode) []
  pure { summaryName, timespanDays, includeMisc, claudeKey, claudeModel, claudeMaxTokens,
         storeEnabled, storeLifetime, githubToken, githubOrgs, slackWebhook, tracker, incidents,
         users, projects }

/-- Writes a configuration. -/
def encode (c : Config) : Data :=
  .record
    [("summary_name", .text c.summaryName), ("default_timespan_days", .ofNat c.timespanDays),
     ("include_misc", .bool c.includeMisc), ("claude_api_key", .ofText? c.claudeKey),
     ("claude_model", .ofText? c.claudeModel),
     ("claude_max_tokens", .ofOption .ofNat c.claudeMaxTokens),
     ("cache_enabled", .bool c.storeEnabled), ("cache_ttl_hours", .ofNat c.storeLifetime),
     ("github_token", .ofText? c.githubToken), ("github_orgs", .ofTexts c.githubOrgs),
     ("slack_webhook_url", .ofText? c.slackWebhook), ("project_management", c.tracker.encode),
     ("pagerduty", .ofOption IncidentConfig.encode c.incidents),
     ("users", .list (c.users.map User.encode)),
     ("projects", .list (c.projects.map Project.encode))]

/-- The text of a configuration file. -/
def toText (c : Config) : String := Toml.write c.encode.withoutNulls

/-- The people of whom untracked work is of interest. -/
def miscUsers (c : Config) : List User := c.users.filter (·.misc)

end Config

end TeamDigest
