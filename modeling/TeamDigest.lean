import TeamDigest.CommandLine
import TeamDigest.CommandLine.Arguments
import TeamDigest.CommandLine.Options
import TeamDigest.Config
import TeamDigest.Config.Secrets
import TeamDigest.Config.Validity
import TeamDigest.Data.Basic
import TeamDigest.Data.Decode
import TeamDigest.Error
import TeamDigest.Gather.Digest
import TeamDigest.Gather.Milestone
import TeamDigest.Gather.Project
import TeamDigest.Gather.Scope
import TeamDigest.Gather.Snapshot
import TeamDigest.Gather.Sources
import TeamDigest.Gather.Tally
import TeamDigest.Hash.Sip
import TeamDigest.Host
import TeamDigest.Host.Desktop
import TeamDigest.Host.FileTree
import TeamDigest.Host.Path
import TeamDigest.Http.Exchange
import TeamDigest.Http.Status
import TeamDigest.Http.Url
import TeamDigest.Json.Reader
import TeamDigest.Json.Token
import TeamDigest.Json.Writer
import TeamDigest.Main
import TeamDigest.Number.Binary
import TeamDigest.Number.ByteSize
import TeamDigest.Number.Rounding
import TeamDigest.Number.Word
import TeamDigest.Plan
import TeamDigest.Plan.Turns
import TeamDigest.Proofs.Time.Stamps
import TeamDigest.Report.Digest
import TeamDigest.Report.Markup
import TeamDigest.Report.Milestone
import TeamDigest.Report.Progress
import TeamDigest.Report.ProjectReport
import TeamDigest.Report.Tally
import TeamDigest.Rollup.Archive
import TeamDigest.Rollup.Bullets
import TeamDigest.Rollup.Entry
import TeamDigest.Rollup.History
import TeamDigest.Rollup.Key
import TeamDigest.Rollup.Prompt
import TeamDigest.Rollup.Recall
import TeamDigest.Run.Program
import TeamDigest.Run.Report
import TeamDigest.Run.Services
import TeamDigest.Run.Setup
import TeamDigest.Service.Claude
import TeamDigest.Service.GitHub
import TeamDigest.Service.GitHub.Record
import TeamDigest.Service.Jira
import TeamDigest.Service.Jira.Record
import TeamDigest.Service.Linear
import TeamDigest.Service.Linear.Record
import TeamDigest.Service.PagerDuty
import TeamDigest.Service.Slack
import TeamDigest.Service.Tracker
import TeamDigest.Store
import TeamDigest.Team.Project
import TeamDigest.Team.User
import TeamDigest.Text.Alphanumeric
import TeamDigest.Text.Base64
import TeamDigest.Text.Blank
import TeamDigest.Text.DecimalDigit
import TeamDigest.Text.Fold
import TeamDigest.Text.Numeral
import TeamDigest.Text.Percent
import TeamDigest.Text.Pieces
import TeamDigest.Time.Calendar
import TeamDigest.Time.Instant
import TeamDigest.Time.Reader
import TeamDigest.Time.Writer
import TeamDigest.Toml.Quoted
import TeamDigest.Toml.Reader
import TeamDigest.Toml.Scalar
import TeamDigest.Toml.Table
import TeamDigest.Toml.Writer
import TeamDigest.ValueSet
import TeamDigest.Window
import TeamDigest.Work.Comment
import TeamDigest.Work.Incident
import TeamDigest.Work.Issue
import TeamDigest.Work.Kind
import TeamDigest.Work.PullRequest
import TeamDigest.Proofs.Gather.Hierarchy
import TeamDigest.Proofs.Gather.Discovery
import TeamDigest.Proofs.Gather.Accounts
import TeamDigest.Proofs.Gather.Untracked
import TeamDigest.Proofs.Gather.Sequential
import TeamDigest.Proofs.Gather.Outages
import TeamDigest.Proofs.Gather.Resolved
import TeamDigest.Proofs.Gather.Milestones
import TeamDigest.Proofs.Gather.AskedTwice
import TeamDigest.Proofs.Gather.TopLevel
import TeamDigest.Proofs.Gather.Counts
import TeamDigest.Proofs.Rollup.Plans
import TeamDigest.Proofs.Rollup.Timeline
import TeamDigest.Proofs.Rollup.Sharing
import TeamDigest.Proofs.Rollup.InTurn
import TeamDigest.Proofs.Config.Loaded
import TeamDigest.Proofs.Run.Errand
import TeamDigest.Proofs.Run.Published
import TeamDigest.Proofs.Run.Reach
import TeamDigest.Proofs.Run.Recalls
import TeamDigest.Proofs.Rollup.Unreadable
import TeamDigest.Proofs.Service.Pages
import TeamDigest.Proofs.Service.JiraSearch
import TeamDigest.Proofs.Service.IncidentPages
import TeamDigest.Proofs.Service.ResolvedSearch
import TeamDigest.Proofs.Time.Midnight
import TeamDigest.Proofs.Report.Bar
import TeamDigest.Proofs.Time.Days
import TeamDigest.Proofs.Report.Activity
import TeamDigest.Proofs.Report.Staleness
import TeamDigest.Proofs.Service.SearchPages
import TeamDigest.Proofs.Data.Mapped
import TeamDigest.Proofs.Service.CursorPages
import TeamDigest.Proofs.Rollup.Bullets
import TeamDigest.Proofs.Service.Addresses
import TeamDigest.Proofs.Gather.Tallies
import TeamDigest.Proofs.Config.ProjectIds
