import TeamDigest.Report.Markup
import TeamDigest.Work.Incident

/-!
# Digests

The reports on all projects of one run, under one headline, with the incidents
of the services at the end.  Without an incident service nothing is said of
incidents; with one, their absence is good news.
-/

namespace TeamDigest.Report

open Time Work Text

/-- The reports of one run. -/
structure Digest where
  window : Window
  name : String
  projects : List ProjectReport
  /-- `none` when no incident service is in use. -/
  incidents : Option (List Incident)

/-- The line on one incident, with service and urgency where they are known. -/
def incidentLine (i : Incident) : String :=
  let details := i.service.toList ++ i.urgency.toList
  "\n• <" ++ i.url ++ "|#" ++ decimal i.number ++ " " ++ i.title ++ ">" ++
    if details.isEmpty then "" else " (" ++ join ", " details ++ ")"

/-- The section on incidents; terse, it is their number. -/
def incidentSection (incidents : List Incident) (detail : Detail) : String :=
  if incidents.isEmpty then "*PagerDuty:* No incidents 🎉"
  else
    let count := "*PagerDuty incidents:* " ++ decimal incidents.length
    if detail = .terse then count else incidents.foldl (fun s i => s ++ incidentLine i) count

namespace Digest

/-- The headline. -/
def header (d : Digest) : String :=
  "*" ++ d.name ++ "* " ++ d.window.caption

/-- The sections of the text. -/
def sections (d : Digest) (detail : Detail) : List String :=
  d.header :: (d.projects.map (·.markup detail) ++
    (d.incidents.map (incidentSection · detail)).toList)

/-- The text of the digest. -/
def markup (d : Digest) (detail : Detail) : String :=
  join "\n\n" (d.sections detail)

/-- Reads a digest. -/
def decode : Decode Digest := .structure do
  let start ← .required "start" Decode.instant
  let stop ← .required "end" Decode.instant
  let name ← .required "summary_name" Decode.text
  let projects ← .defaulted "project_summaries" (Decode.list ProjectReport.decode) []
  let incidents ← .omittable "pager_duty_alerts" (Decode.list Incident.decode)
  pure { window := ⟨start, stop⟩, name, projects, incidents }

/-- Writes a digest. -/
def encode (d : Digest) : Data :=
  .record
    [("start", .text d.window.start.toText), ("end", .text d.window.stop.toText),
     ("summary_name", .text d.name),
     ("project_summaries", .list (d.projects.map ProjectReport.encode)),
     ("pager_duty_alerts",
       .ofOption (fun is => .list (is.map Incident.encode)) d.incidents)]

end Digest

end TeamDigest.Report
