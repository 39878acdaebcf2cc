import TeamDigest.Number.Word
import TeamDigest.Text.Blank
import TeamDigest.Text.DecimalDigit
import TeamDigest.Text.Pieces
import TeamDigest.Work.PullRequest

/-!
# Records of GitHub

Search results as GitHub writes them.  The repository and the number of a pull
request are taken from its address: the first place at which a text reads
`github.com/`, an owner, a repository, `pull` and digits, with slashes between.
-/

namespace TeamDigest.Service.GitHub

open Text Time Work

/-- A part of a path: some characters other than slashes, and the slash that
ends them. -/
def pathPart? (cs : List Char) : Option (List Char × List Char) :=
  match splitAtFirst '/' cs with
  | some (c :: part, rest) => some (c :: part, rest)
  | _ => none

/-- The repository and the digits of the number, where a text begins with the
address of a pull request. -/
def addressAt? (cs : List Char) : Option (String × List Char) := do
  let cs ← afterStart? "github.com/".toList cs
  let (owner, cs) ← pathPart? cs
  let (name, cs) ← pathPart? cs
  let cs ← afterStart? "pull/".toList cs
  let digits := cs.takeWhile isDecimalDigit
  if digits.isEmpty then none
  else some (String.ofList owner ++ "/" ++ String.ofList name, digits)

/-- The first address of a pull request in a text. -/
def firstAddress? : List Char → Option (String × List Char)
  | [] => none
  | c :: cs =>
    match addressAt? (c :: cs) with
    | some found => some found
    | none => firstAddress? cs

/-- The repository and the number of the pull request at an address.  The
number has to be in ASCII digits and to fit 64 bits. -/
def pullRequestAt? (address : String) : Option (String × Nat) := do
  let (repository, digits) ← firstAddress? (trim address.toList)
  if digits.all isAsciiDigit && numeralValue digits < Number.wordSize64 then
    some (repository, numeralValue digits)
  else none

/-- A search result as it is written. -/
structure Record where
  title : String
  url : String
  createdAt : Instant
  author : Option String
  /-- When the pull request was merged; `none` inside when it was not. -/
  merged : Option (Option Instant)
  deriving DecidableEq

/-- Reads a search result as it is written. -/
def Record.decode : Decode Record := .structure do
  let title ← .required "title" Decode.text
  let url ← .required "html_url" Decode.text
  let createdAt ← .required "created_at" Decode.instant
  let author ← .optional "user" (.structure (.required "login" Decode.text))
  let merged ← .optional "pull_request" (.structure (.optional "merged_at" Decode.instant))
  pure { title, url, createdAt, author, merged }

/-- The pull request that a result means, if its address is that of one. -/
def Record.pullRequest? (r : Record) : Option PullRequest := do
  let (repository, number) ← pullRequestAt? r.url
  some
    { repository, number
      title := r.title
      url := r.url
      author := r.author
      createdAt := r.createdAt
      mergedAt := r.merged.join }

end TeamDigest.Service.GitHub
