import TeamDigest.Data.Decode

/-!
# Users

People as the tracker, the code host and the chat know them.
-/

namespace TeamDigest.Team

/-- A person whose work is reported. -/
structure User where
  id : String
  /-- The name that is shown, and by which assignees are recognised. -/
  name : String
  email : String
  /-- The id in the tracker, where it differs from `id`. -/
  trackerId : Option String
  /-- The login at the code host. -/
  githubId : Option String
  /-- The member id in the chat. -/
  slackId : Option String
  /-- Work of this person that belongs to no project is reported too. -/
  misc : Bool
  deriving DecidableEq

namespace User

/-- The id by which the tracker knows the person. -/
def lookupId (u : User) : String := u.trackerId.getD u.id

/-- A mention in the chat where the member id is known, and the name elsewhere. -/
def mention (u : User) : String :=
  match u.slackId with
  | some id => "<@" ++ id ++ ">"
  | none => u.name

/-- Reads a user. -/
def decode : Decode User := .structure do
  let id ← .required "id" Decode.text
  let name ← .required "name" Decode.text
  let email ← .required "email" Decode.text
  let trackerId ← .omittable "pm_id" Decode.text
  let githubId ← .omittable "github_id" Decode.text
  let slackId ← .omittable "slack_id" Decode.text
  let misc ← .defaulted "misc" Decode.bool false
  pure { id, name, email, trackerId, githubId, slackId, misc }

/-- Writes a user. -/
def encode (u : User) : Data :=
  .record
    [("id", .text u.id), ("name", .text u.name), ("email", .text u.email),
     ("pm_id", .ofText? u.trackerId), ("github_id", .ofText? u.githubId),
     ("slack_id", .ofText? u.slackId), ("misc", .bool u.misc)]

end User

end TeamDigest.Team
