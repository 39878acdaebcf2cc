import TeamDigest.Data.Decode
import TeamDigest.Json.Reader
import TeamDigest.Json.Writer
import TeamDigest.Time.Writer

/-!
# Stored rollups

A rollup is stored with the time at which that happened.  An entry expires when
more time has passed since than the lifetime of the store allows.

What stands in a slot of the store is bytes.  They denote an entry when they are
its JSON text, whoever has put them there.
-/

namespace TeamDigest.Rollup

open Time

/-- A rollup and the time at which it was stored. -/
structure Entry where
  rollup : String
  storedAt : Instant
  deriving DecidableEq

namespace Entry

/-- Holds when more time than `lifetime` hours has passed since the entry was
stored. -/
def isExpired (e : Entry) (lifetime : Nat) (now : Instant) : Bool :=
  Instant.ofHours lifetime < Instant.elapsed e.storedAt now

/-- Reads an entry. -/
def decode : Decode Entry := .structure do
  let rollup ← .required "rollup" Decode.text
  let storedAt ← .required "cached_at" Decode.instant
  pure { rollup, storedAt }

/-- Writes an entry. -/
def encode (e : Entry) : Data :=
  .record [("rollup", .text e.rollup), ("cached_at", .text e.storedAt.toText)]

/-- The entry whose JSON text the bytes are. -/
def read? (bytes : ByteArray) : Option Entry := do
  let text ← String.fromUTF8? bytes
  let d ← Json.read? text.toList
  decode d

/-- The JSON text of an entry. -/
def write (e : Entry) : ByteArray := (Json.write e.encode).toUTF8

end Entry

end TeamDigest.Rollup
