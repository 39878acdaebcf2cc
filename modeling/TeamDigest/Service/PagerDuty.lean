import TeamDigest.Http.Exchange
import TeamDigest.Number.Word
import TeamDigest.Work.Incident

/-!
# PagerDuty

The incidents of a service come in pages; each page tells whether there are
more.  The next one is asked for from where the last one ended.  Incidents that
began outside of the time asked for are left out.
-/

namespace TeamDigest.Service.PagerDuty

open Http Text Time Work

/-- The name of the service in errors. -/
def serviceName : String := "PagerDuty"

/-- How many incidents a page holds at most. -/
def pageSize : Nat := 100

/-- Reads an incident as the service writes it. -/
def incident : Decode Incident := .structure do
  let id ← .required "id" Decode.text
  let number ← .required "incident_number" Decode.nat64
  let title ← .required "title" Decode.text
  let url ← .required "html_url" Decode.text
  let status ← .required "status" Decode.text
  let urgency ← .optional "urgency" Decode.text
  let createdAt ← .required "created_at" Decode.instant
  let service ← .optional "service" (.structure (.optional "summary" Decode.text))
  pure { id, number, title, url, service := service.join, status, urgency, createdAt }

/-- One page of incidents. -/
structure Page where
  incidents : List Incident
  /-- There are more of them. -/
  more : Bool

/-- Reads a page of incidents. -/
def Page.decode : Decode Page := .structure do
  let incidents ← .defaulted "incidents" (Decode.list incident) []
  let more ← .defaulted "more" Decode.bool false
  pure { incidents, more }

/-- The incidents that began from `start` on and before `stop`. -/
def between (start stop : Instant) (incidents : List Incident) : List Incident :=
  incidents.filter fun i => start ≤ i.createdAt && i.createdAt < stop

/-- An account at the service. -/
structure Account where
  token : String

namespace Account

/-- The page of the incidents of a service that begins at a position. -/
def page (a : Account) (service : String) (start stop : Instant) (position : Nat) :
    Client Page :=
  Client.fetch serviceName
    (Http.request .get "http://api.pagerduty.com/incidents"
      [("service_ids[]", service), ("since", start.toOffsetText), ("until", stop.toOffsetText),
       ("limit", decimal pageSize), ("offset", decimal position)]
      [("authorization", "Token token=" ++ a.token),
       ("accept", "application/vnd.pagerduty+json;version=2")] none)
    Page.decode

/-- The incidents of a service from a position on.  Positions are words of 64
bits. -/
def incidentsFrom (a : Account) (service : String) (start stop : Instant) (position : Nat) :
    Client (List Incident) := do
  let page ← a.page service start stop position
  let found := between start stop page.incidents
  let next := position + page.incidents.length
  if page.more = false ∨ page.incidents.length = 0 then pure found
  else if Number.wordSize64 ≤ next then .fail .abandoned
  else do
    let rest ← a.incidentsFrom service start stop next
    pure (found ++ rest)
termination_by Number.wordSize64 - position
decreasing_by omega

/-- The incidents of a service that began from `start` on and before `stop`. -/
def incidents (a : Account) (service : String) (start stop : Instant) :
    Client (List Incident) :=
  a.incidentsFrom service start stop 0

end Account

end TeamDigest.Service.PagerDuty
