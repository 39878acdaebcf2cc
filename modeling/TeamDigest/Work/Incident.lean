import TeamDigest.Data.Decode
import TeamDigest.Time.Writer

/-!
# Incidents
-/

namespace TeamDigest.Work

open Time

/-- An incident of a service. -/
structure Incident where
  id : String
  number : Nat
  title : String
  url : String
  service : Option String
  status : String
  urgency : Option String
  createdAt : Instant
  deriving DecidableEq

namespace Incident

/-- Reads an incident. -/
def decode : Decode Incident := .structure do
  let id ← .required "id" Decode.text
  let number ← .required "number" Decode.nat64
  let title ← .required "title" Decode.text
  let url ← .required "url" Decode.text
  let service ← .optional "service" Decode.text
  let status ← .required "status" Decode.text
  let urgency ← .optional "urgency" Decode.text
  let createdAt ← .required "created_at" Decode.instant
  pure { id, number, title, url, service, status, urgency, createdAt }

/-- Writes an incident. -/
def encode (i : Incident) : Data :=
  .record
    [("id", .text i.id), ("number", .ofNat i.number), ("title", .text i.title),
     ("url", .text i.url), ("service", .ofText? i.service), ("status", .text i.status),
     ("urgency", .ofText? i.urgency), ("created_at", .text i.createdAt.toText)]

end Incident

end TeamDigest.Work
