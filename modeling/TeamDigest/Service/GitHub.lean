import TeamDigest.Http.Exchange
import TeamDigest.Service.GitHub.Record

/-!
# GitHub

Merged pull requests are found by searches, whose results come in numbered
pages.  A page that is not full is the last one, and there are never more than
ten.  Results whose address is not that of a pull request are left out.
-/

namespace TeamDigest.Service.GitHub

open Http Text Time Work

/-- The name of the service in errors. -/
def serviceName : String := "GitHub"

/-- How many results a full page holds. -/
def pageSize : Nat := 100

/-- The numbers of the pages that there may be. -/
def pageNumbers : List Nat := [1, 2, 3, 4, 5, 6, 7, 8, 9, 10]

/-- The name under which requests are sent. -/
def agent : String := "eng-digest/0.1.0"

/-- An account at the service; without a token, requests are anonymous. -/
structure Account where
  token : Option String

/-- The search for pull requests of some organisations that were merged from
`start` to `stop`. -/
def mergedSearch (term : String) (orgs : List String) (start stop : Instant) : String :=
  term ++ " is:pr is:merged" ++ String.join (orgs.map (" org:" ++ ·)) ++
    " merged:" ++ start.toSecondText ++ ".." ++ stop.toSecondText

/-- The term that finds the pull requests of a person. -/
def authorTerm (login : String) : String := "author:" ++ login

/-- The term that finds the pull requests that mention a text. -/
def textTerm (text : String) : String := "\"" ++ text ++ "\""

namespace Account

/-- One page of the results of a search. -/
def page (a : Account) (search : String) (number : Nat) : Client (List Record) :=
  let login := (a.token.map fun t => ("authorization", "Bearer " ++ t)).toList
  Client.fetch serviceName
    (Http.request .get "http://api.github.com/search/issues"
      [("q", search), ("per_page", decimal pageSize), ("page", decimal number)]
      ([("user-agent", agent), ("accept", "application/vnd.github+json")] ++ login) none)
    (.structure (.defaulted "items" (Decode.list Record.decode) []))

/-- The pull requests on some pages of the results of a search, up to the first
page that is not full. -/
def pages (a : Account) (search : String) : List Nat → Client (List PullRequest)
  | [] => pure []
  | number :: numbers => do
    let records ← a.page search number
    let found := records.filterMap Record.pullRequest?
    if records.length < pageSize then pure found
    else do
      let rest ← a.pages search numbers
      pure (found ++ rest)

/-- The pull requests that a search finds. -/
def results (a : Account) (search : String) : Client (List PullRequest) :=
  a.pages search pageNumbers

/-- The pull requests of a person. -/
def mergedBy (a : Account) (login : String) (orgs : List String) (start stop : Instant) :
    Client (List PullRequest) :=
  a.results (mergedSearch (authorTerm login) orgs start stop)

/-- The pull requests that mention a text. -/
def mentioning (a : Account) (text : String) (orgs : List String) (start stop : Instant) :
    Client (List PullRequest) :=
  a.results (mergedSearch (textTerm text) orgs start stop)

end Account

end TeamDigest.Service.GitHub
