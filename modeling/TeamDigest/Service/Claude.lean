import TeamDigest.Http.Exchange
import TeamDigest.Rollup.Bullets
import TeamDigest.Rollup.Prompt

/-!
# Claude

The writer of rollups.  A prompt is answered with blocks of several types; the
first block of text is the answer.
-/

namespace TeamDigest.Service.Claude

open Http Text

/-- The name of the service in errors. -/
def serviceName : String := "Claude"

/-- An account at the service, with the model that is asked for and a bound on
the length of its answers. -/
structure Account where
  token : String
  model : String
  maxTokens : Nat

/-- An account with the usual model and bound where none are given. -/
def Account.of (token : String) (model : Option String) (maxTokens : Option Nat) : Account :=
  { token
    model := model.getD "claude-3-5-sonnet-20241022"
    maxTokens := maxTokens.getD 1024 }

/-- A block of an answer. -/
structure Block where
  type : String
  text : String
  deriving DecidableEq

/-- Reads a block of an answer. -/
def Block.decode : Decode Block := .structure do
  let type ← .required "type" Decode.text
  let text ← .defaulted "text" Decode.text ""
  pure { type, text }

/-- Reads the account of the tokens that were used, which nobody looks at. -/
def usage : Decode Unit := .structure do
  discard (.required "input_tokens" Decode.nat32)
  discard (.required "output_tokens" Decode.nat32)

/-- Reads the blocks of an answer. -/
def blocks : Decode (List Block) := .structure do
  let content ← .required "content" (Decode.list Block.decode)
  discard (.omittable "stop_reason" Decode.text)
  discard (.omittable "usage" usage)
  pure content

/-- The first text among some blocks. -/
def firstText? (blocks : List Block) : Option String :=
  (blocks.find? (·.type == "text")).map Block.text

namespace Account

/-- The body of a request. -/
def body (a : Account) (instruction : Option String) (prompt : String) : Data :=
  let message := Data.record [("role", .text "user"), ("content", .text prompt)]
  .record
    ([("model", .text a.model), ("max_tokens", .ofNat a.maxTokens)] ++
      (instruction.map fun s => ("system", Data.text s)).toList ++
      [("messages", .list [message])])

/-- The answer to a prompt, under an instruction if there is one. -/
def complete (a : Account) (instruction : Option String) (prompt : String) :
    Client String := do
  let found ← Client.fetch serviceName
    (Http.request .post "http://api.anthropic.com/v1/messages" []
      [("x-api-key", a.token), ("anthropic-version", "2023-06-01")]
      (some (a.body instruction prompt)))
    blocks
  .ofOption (.writer .noText) (firstText? found)

/-- A text in a few bullets. -/
def rollup (a : Account) (text : String) : Client String := do
  let answer ← a.complete (some Rollup.instruction) (Rollup.request text)
  pure (Rollup.normalize answer)

end Account

end TeamDigest.Service.Claude
