import TeamDigest.Data.Decode
import TeamDigest.Time.Writer

/-!
# Comments on issues
-/

namespace TeamDigest.Work

open Time

/-- A comment on an issue. -/
structure Comment where
  id : String
  body : String
  authorId : Option String
  authorName : Option String
  createdAt : Instant
  updatedAt : Instant
  deriving DecidableEq

namespace Comment

/-- Reads a comment. -/
def decode : Decode Comment := .structure do
  let id ← .required "id" Decode.text
  let body ← .required "body" Decode.text
  let authorId ← .optional "author_id" Decode.text
  let authorName ← .optional "author_name" Decode.text
  let createdAt ← .required "created_at" Decode.instant
  let updatedAt ← .required "updated_at" Decode.instant
  pure { id, body, authorId, authorName, createdAt, updatedAt }

/-- Writes a comment. -/
def encode (c : Comment) : Data :=
  .record
    [("id", .text c.id), ("body", .text c.body), ("author_id", .ofText? c.authorId),
     ("author_name", .ofText? c.authorName), ("created_at", .text c.createdAt.toText),
     ("updated_at", .text c.updatedAt.toText)]

end Comment

end TeamDigest.Work
