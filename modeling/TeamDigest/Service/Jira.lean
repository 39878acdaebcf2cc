import TeamDigest.Http.Exchange
import TeamDigest.Number.Word
import TeamDigest.Service.Jira.Record

/-!
# Jira

Issues are found by searches, whose results come in pages.  A page tells how
many results there are in all; the next one is asked for from where the last
one ended, until all of them are there or a page is empty.

A search for resolved issues can only name whole days, in a time zone that is
not known.  So it asks for a day more on either side, and what lies outside of
the bounds is dropped afterwards.
-/

namespace TeamDigest.Service.Jira

open Http Text Time Work

/-- The name of the service in errors. -/
def serviceName : String := "Jira"

/-- An account on a site. -/
structure Account where
  /-- The address of the site, without slashes at its end. -/
  site : String
  email : String
  token : String

/-- The account on the site at an address. -/
def Account.of (address email token : String) : Account :=
  { site := String.ofList (address.toList.reverse.dropWhile (· = '/')).reverse, email, token }

/-- How many results a page holds at most. -/
def pageSize : Nat := 100

/-- The fields of issues that are asked for. -/
def fieldNames : String :=
  "summary,description,status,issuetype,priority,timeoriginalestimate," ++
  "assignee,creator,parent,created,updated,resolutiondate,duedate"

/-- One page of results. -/
structure Page where
  /-- The number of all results. -/
  total : UInt64
  records : List Record

/-- Reads a page of results. -/
def Page.decode : Decode Page := .structure do
  let total ← .defaulted "total" Decode.nat64 0
  let records ← .defaulted "issues" (Decode.list Record.decode) []
  pure { total := UInt64.ofNat total, records }

/-- The search for issues completed by a person from `start` on and before
`stop`, with a day more on either side and whole days only. -/
def resolvedSearch (person : String) (start stop : Instant) : Except Error String :=
  match start.addDays? (-1), stop.addDays? 2 with
  | some first, some last =>
    .ok ("assignee = \"" ++ person ++ "\" AND resolved >= \"" ++ first.dateText ++
      "\" AND resolved < \"" ++ last.dateText ++ "\"")
  | _, _ => .error .outOfCalendar

/-- The issues completed from `start` on and before `stop`. -/
def resolvedBetween (start stop : Instant) (issues : List Issue) : List Issue :=
  issues.filter fun i =>
    match i.completedAt with
    | some t => start ≤ t && t < stop
    | none => false

namespace Account

/-- A request for something on the site. -/
def request (a : Account) (path : String) (query : List (String × String)) :
    Except TransportFault Request :=
  Http.request .get (a.site ++ path) query [basicLogin a.email a.token] none

/-- The page of the results of a search that begins at a position. -/
def page (a : Account) (search : String) (start : Nat) : Client Page :=
  Client.fetch serviceName
    (a.request "/rest/api/2/search"
      [("jql", search), ("fields", fieldNames), ("startAt", decimal start),
       ("maxResults", decimal pageSize)])
    Page.decode

/-- The results of a search from a position on. -/
def resultsFrom (a : Account) (search : String) (start : Nat) : Client (List Issue) := do
  let page ← a.page search start
  let issues ← .ofExcept (page.records.mapM (Record.issue a.site))
  let next := start + page.records.length
  if page.records.length = 0 ∨ page.total.toNat ≤ next then pure issues
  else do
    let rest ← a.resultsFrom search next
    pure (issues ++ rest)
termination_by Number.wordSize64 - start
decreasing_by
  have h : page.total.toNat < Number.wordSize64 := page.total.toNat_lt
  omega

/-- All results of a search. -/
def results (a : Account) (search : String) : Client (List Issue) := a.resultsFrom search 0

/-- The issues with the given keys. -/
def issues (a : Account) (keys : List String) : Client (List Issue) :=
  if keys.isEmpty then pure [] else a.results ("key in (" ++ join "," keys ++ ")")

/-- The issues directly under one. -/
def children (a : Account) (key : String) : Client (List Issue) :=
  a.results ("parent = " ++ key)

/-- The newest comments on an issue. -/
def comments (a : Account) (key : String) (limit : Nat) : Client (List Comment) := do
  let records ← Client.fetch serviceName
    (a.request ("/rest/api/2/issue/" ++ key ++ "/comment")
      [("orderBy", "-created"), ("maxResults", decimal limit)])
    (.structure (.defaulted "comments" (Decode.list CommentRecord.decode) []))
  .ofExcept (records.mapM CommentRecord.comment)

/-- The issues completed by a person from `start` on and before `stop`. -/
def resolved (a : Account) (person : String) (start stop : Instant) : Client (List Issue) := do
  let search ← .ofExcept (resolvedSearch person start stop)
  let found ← a.results search
  pure (resolvedBetween start stop found)

end Account

end TeamDigest.Service.Jira
