import TeamDigest.Data.Decode
import TeamDigest.Text.Alphanumeric

/-!
# Projects

A project names the top-level issues under which its work stands.  Projects are
sorted by title without the ornaments that a title may begin with.
-/

namespace TeamDigest.Team

/-- A link that stands next to a title. -/
structure Link where
  name : String
  url : String
  deriving DecidableEq

/-- A project whose work is reported. -/
structure Project where
  id : Int
  title : String
  parentId : Option Int
  links : List Link
  /-- The lead, by e-mail address. -/
  leadUserId : Option String
  /-- Owners of milestones are mentioned and not just named. -/
  tagMilestoneOwners : Bool
  /-- The keys of the top-level issues. -/
  issueKeys : List String
  deriving DecidableEq

namespace Link

/-- Reads a link. -/
def decode : Decode Link := .structure do
  let name ← .required "name" Decode.text
  let url ← .required "url" Decode.text
  pure { name, url }

/-- Writes a link. -/
def encode (l : Link) : Data := .record [("name", .text l.name), ("url", .text l.url)]

end Link

namespace Project

/-- The id of the project of untracked work, which no other project may have. -/
def miscId : Int := 999999

/-- The title from its first letter or number on. -/
def sortTitle (p : Project) : String :=
  String.ofList (p.title.toList.dropWhile fun c => !Text.isAlphanumeric c)

/-- Reads a project. -/
def decode : Decode Project := .structure do
  let id ← .required "id" Decode.int64
  let title ← .required "title" Decode.text
  let parentId ← .omittable "parent_id" Decode.int64
  let links ← .defaulted "links" (Decode.list Link.decode) []
  let leadUserId ← .omittable "lead_user_id" Decode.text
  let tagMilestoneOwners ← .defaulted "tag_milestone_owners" Decode.bool false
  let issueKeys ← .defaulted "issue_keys" (Decode.list Decode.text) []
  pure { id, title, parentId, links, leadUserId, tagMilestoneOwners, issueKeys }

/-- Writes a project. -/
def encode (p : Project) : Data :=
  .record
    [("id", .integer p.id), ("title", .text p.title), ("parent_id", .ofOption .integer p.parentId),
     ("links", .list (p.links.map Link.encode)), ("lead_user_id", .ofText? p.leadUserId),
     ("tag_milestone_owners", .bool p.tagMilestoneOwners),
     ("issue_keys", .ofTexts p.issueKeys)]

end Project

end TeamDigest.Team
