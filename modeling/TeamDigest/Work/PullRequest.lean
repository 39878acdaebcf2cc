import TeamDigest.Data.Decode
import TeamDigest.Time.Writer
import TeamDigest.ValueSet

/-!
# Pull requests

A merged pull request.  Like issues, pull requests are equal when all their
fields are, and are ordered by the first field in which they differ.
-/

namespace TeamDigest.Work

open Time

/-- A merged pull request. -/
structure PullRequest where
  /-- Owner and name of the repository, with a slash between them. -/
  repository : String
  number : Nat
  title : String
  url : String
  author : Option String
  createdAt : Instant
  mergedAt : Option Instant
  deriving DecidableEq

namespace PullRequest

/-- The order of pull requests: by the first field in which they differ. -/
def order : PullRequest → PullRequest → Ordering :=
  compareLex (compareOn repository) <| compareLex (compareOn number) <|
  compareLex (compareOn title) <| compareLex (compareOn url) <| compareLex (compareOn author) <|
  compareLex (compareOn createdAt) (compareOn mergedAt)

instance : Ord PullRequest := ⟨order⟩

instance : Std.TransOrd PullRequest := by
  show Std.TransCmp order
  unfold order
  infer_instance

instance : Std.LawfulEqOrd PullRequest where
  eq_of_compare {a b} h := by
    have h : order a b = .eq := h
    simp only [order, compareLex, compareOn, Ordering.then_eq_eq, Std.compare_eq_iff_eq] at h
    cases a
    cases b
    simp_all

/-- The repository and the number, such as `acme/web#12`. -/
def shortRef (p : PullRequest) : String := p.repository ++ "#" ++ Text.decimal p.number

/-- A link to the pull request that shows its short reference. -/
def link (p : PullRequest) : String := "<" ++ p.url ++ "|" ++ p.shortRef ++ ">"

/-- Reads a pull request. -/
def decode : Decode PullRequest := .structure do
  let repository ← .required "repository" Decode.text
  let number ← .required "number" Decode.nat64
  let title ← .required "title" Decode.text
  let url ← .required "url" Decode.text
  let author ← .optional "author" Decode.text
  let createdAt ← .required "created_at" Decode.instant
  let mergedAt ← .optional "merged_at" Decode.instant
  pure { repository, number, title, url, author, createdAt, mergedAt }

/-- Writes a pull request. -/
def encode (p : PullRequest) : Data :=
  .record
    [("repository", .text p.repository), ("number", .ofNat p.number), ("title", .text p.title),
     ("url", .text p.url), ("author", .ofText? p.author),
     ("created_at", .text p.createdAt.toText),
     ("merged_at", .ofOption (fun t => .text t.toText) p.mergedAt)]

end PullRequest

/-- A set of pull requests in their order. -/
abbrev PullRequestSet := ValueSet PullRequest

end TeamDigest.Work
