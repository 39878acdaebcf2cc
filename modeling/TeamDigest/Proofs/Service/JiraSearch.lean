import TeamDigest.Proofs.Http.Requests
import TeamDigest.Proofs.Json.Kept
import TeamDigest.Proofs.Service.Pages
import TeamDigest.Service.Jira
import Mathlib.Data.List.Forall2

/-!
# Searches in Jira

A site that holds the records of a search may cut them into pages as it likes, as long as
each page begins where it was asked for and tells how many records there are in all
(`Serves`).  A client of such a site gets exactly the issues that these records mean, in
their order.  On any site, a page that is refused, or that holds something without a
meaning, makes the search fail with just this fault (`PageFault`), whatever the pages
before it held.
-/

namespace TeamDigest.Service.Jira

open Http Text Work

deriving instance DecidableEq for Page

/-! ## Pages as they are asked for and read -/

namespace Account

/-- The request for the page of a search that begins at a position. -/
def pageRequest (a : Account) (search : String) (start : Nat) : Except TransportFault Request :=
  a.request "/rest/api/2/search"
    [("jql", search), ("fields", fieldNames), ("startAt", decimal start),
     ("maxResults", decimal pageSize)]

/-- What a page means: its issues, and the position of the next page, unless the issues
are all there or the page holds none. -/
def leaf (a : Account) (start : Nat) (page : Page) : Except Error (Leaf Issue) :=
  match page.records.mapM (Record.issue a.site) with
  | .error error => .error error
  | .ok issues =>
    let next := start + page.records.length
    if page.records.length = 0 ∨ page.total.toNat ≤ next then .ok ⟨issues, none⟩
    else .ok ⟨issues, some next⟩

/-- The address of a request tells for which position it is. -/
theorem pageRequest_unique {a : Account} {search : String} {start other : Nat}
    {first second : Request} (hfirst : a.pageRequest search start = .ok first)
    (hsecond : a.pageRequest search other = .ok second) (hsame : first.url = second.url) :
    start = other := by
  have hquery : ∀ position, a.pageRequest search position =
      Http.request .get (a.site ++ "/rest/api/2/search")
        ([("jql", search), ("fields", fieldNames)] ++
          ("startAt", decimal position) :: [("maxResults", decimal pageSize)])
        [basicLogin a.email a.token] none := fun _ => rfl
  rw [hquery] at hfirst hsecond
  exact request_unique hfirst hsecond hsame

/-- A request can be built for every position, if the address of the site can be read. -/
theorem exists_pageRequest {a : Account} (search : String) (start : Nat)
    (hurl : (Url.read (a.site ++ "/rest/api/2/search")).isOk = true) :
    ∃ sent, a.pageRequest search start = .ok sent := by
  apply exists_request hurl
  intro header hheader
  obtain rfl := List.mem_singleton.1 hheader
  exact isHeaderText_basicLogin a.email a.token

theorem pageByPage (a : Account) (search : String) :
    PageByPage (a.pageRequest search) (readLeaf serviceName Page.decode a.leaf)
      (a.resultsFrom search) := by
  intro start
  rw [resultsFrom, page, fetch_eq, bind_assoc]
  refine bind_congr fun response => ?_
  unfold readLeaf
  cases readBody serviceName Page.decode response with
  | error error => rfl
  | ok page =>
      change (Plan.ofExcept (page.records.mapM (Record.issue a.site)) >>= _) =
        follow (a.resultsFrom search) (a.leaf start page)
      unfold leaf
      cases page.records.mapM (Record.issue a.site) with
      | error error => rfl
      | ok issues =>
          simp only [Plan.ofExcept, Plan.bind_done, Plan.pure_eq]
          split
          · rfl
          · exact (map_eq_pure_bind _ _).symm

end Account

/-! ## Sites that answer searches -/

/-- In every state the site answers the request for a page of the search with a run of its
records and tells how many of them there are in all. -/
def Serves {σ : Type} (world : World web σ) (a : Account) (search : String)
    (records : List Record) : Prop :=
  Answers world (a.pageRequest search) Page.decode records.length fun start page =>
    IsRun records start pageSize page.records ∧ page.total.toNat = records.length

/-- The records mean these issues, in this order. -/
def Means (site : String) (records : List Record) (issues : List Issue) : Prop :=
  List.Forall₂ (fun record issue => record.issue site = .ok issue) records issues

/-- What is wrong with a response: there is no page in it, or the page holds a record
without a meaning. -/
inductive PageFault (site : String) (response : Response) : Error → Prop
  | body {error : Error} (h : BodyFault serviceName Page.decode response error) :
      PageFault site response error
  | record {page : Page} {before after : List Record} {issues : List Issue} {record : Record}
      {error : Error} (hstatus : isSuccess response.status = true)
      (hbody : (Json.read? response.body.toList).bind Page.decode = some page)
      (hrecords : page.records = before ++ record :: after) (hbefore : Means site before issues)
      (herror : record.issue site = .error error) : PageFault site response error

section Meanings

variable {site : String} {records : List Record} {issues : List Issue}

theorem Means.mapM (h : Means site records issues) :
    records.mapM (Record.issue site) = .ok issues := by
  induction h with
  | nil => rfl
  | cons hrecord _ ih =>
      rw [List.mapM_cons, hrecord, ih]
      rfl

/-- The first record without a meaning decides. -/
theorem Means.mapM_append {record : Record} {after : List Record} {error : Error}
    (h : Means site records issues) (herror : record.issue site = .error error) :
    (records ++ record :: after).mapM (Record.issue site) = .error error := by
  rw [List.mapM_append, h.mapM, List.mapM_cons, herror]
  rfl

/-- A run of the records means the same run of the issues. -/
theorem Means.of_run {run : List Record} {start : Nat} (h : Means site records issues)
    (hrun : IsRun records start pageSize run) :
    Means site run ((issues.drop start).take run.length) := by
  have hmeans : Means site ((records.drop start).take run.length)
      ((issues.drop start).take run.length) :=
    List.forall₂_take run.length (List.forall₂_drop start h)
  rwa [← hrun.eq_take] at hmeans

end Meanings

section Searches

variable {σ : Type} {world : World web σ} {a : Account} {search : String}
  {records : List Record} {issues : List Issue}

/-- On a page with a run of the records, the client finds the issues that they mean, and
goes on if there are more. -/
theorem leaf_of_run {start : Nat} {page : Page} (hmeans : Means a.site records issues)
    (hrun : IsRun records start pageSize page.records)
    (htotal : page.total.toNat = records.length) :
    a.leaf start page = .ok
      { found := ((issues.drop start).take page.records.length).filterMap some
        next? := if start + page.records.length < issues.length
          then some (start + page.records.length) else none } := by
  have hlength : records.length = issues.length := hmeans.length_eq
  unfold Account.leaf
  rw [(hmeans.of_run hrun).mapM, htotal, List.filterMap_some]
  dsimp only
  by_cases hnext : start + page.records.length < issues.length
  · have hpos : 0 < page.records.length := hrun.length_pos (by omega)
    rw [if_neg (by omega), if_pos hnext]
  · rw [if_pos (by omega), if_neg hnext]

/-- A page with a fault is read as the error that is wrong with it. -/
theorem PageFault.readLeaf {response : Response} {error : Error}
    (h : PageFault a.site response error) (start : Nat) :
    readLeaf serviceName Page.decode a.leaf start response = .error error := by
  cases h with
  | body h => exact h.readLeaf start
  | record hstatus hbody hrecords hbefore herror =>
      rw [readLeaf_of_decoded hstatus hbody, Account.leaf, hrecords,
        hbefore.mapM_append herror]

/-- A search on a site that holds its records ends with all issues, in order, after
requests for ascending positions. -/
theorem run_of_serves (hserves : Serves world a search records)
    (hmeans : Means a.site records issues) (s : σ) :
    ∃ starts t, (a.results search).run world s = (.ok issues, t) ∧
      (requests world (a.results search) s).map .ok = starts.map (a.pageRequest search) ∧
      Ascends 0 records.length starts := by
  have hlength : records.length = issues.length := hmeans.length_eq
  unfold Serves at hserves
  rw [hlength] at hserves ⊢
  obtain ⟨starts, t, hrun, hasked, hascends⟩ :=
    run_of_answers (a.pageByPage search) hserves (fun start page hpage =>
      ⟨page.records.length, fun hstart => hpage.1.length_pos (by omega),
        leaf_of_run hmeans hpage.1 (by omega)⟩) (.inr rfl) s
  rw [List.drop_zero, List.filterMap_some] at hrun
  exact ⟨starts, t, hrun, hasked, hascends⟩

/-- A search ends with all issues that its records mean, once and in order, however the
site cuts them into pages, and it asks for each page once and for none behind the last
record; only where there are no records, it asks for the page at their beginning.  And a
search that is given a page with a fault ends with that fault and with no issues. -/
theorem results_whole_or_failed (world : World web σ) (a : Account) (search : String) (s : σ) :
    (∀ records issues, Serves world a search records → Means a.site records issues →
      ∃ starts t, (a.results search).run world s = (.ok issues, t) ∧
        (requests world (a.results search) s).map .ok = starts.map (a.pageRequest search) ∧
        Ascends 0 records.length starts) ∧
    ∀ reply ∈ (a.results search).replies world s, ∀ error,
      PageFault a.site reply.answer error →
      ((a.results search).run world s).1 = .error error := by
  constructor
  · intro records issues hserves hmeans
    exact run_of_serves hserves hmeans s
  · intro reply hreply error hfault
    exact run_of_unreadable (a.pageByPage search) hfault.readLeaf hreply

end Searches

/-! ### A site on which bugs are resolved -/

/-- An account on the site. -/
def acme : Account := ⟨"https://acme.atlassian.net", "bot@acme.com", "token"⟩

/-- A resolved bug on the site. -/
structure Bug where
  key : String
  assigneeId : String
  resolved : String

/-- The bug as it is written. -/
def Bug.record (b : Bug) : Record where
  id := b.key
  key := b.key
  fields :=
    { summary := "Fix login", description := none, status := ⟨"Done", "done"⟩, typeName := "Bug"
      priority := none, estimate := none, assignee := some ⟨some b.assigneeId, "Ada"⟩
      creator := none, parentKey := none, created := "2024-06-01T09:00:00.000+0000"
      updated := "2024-06-10T09:00:00.000+0000", resolved := some b.resolved, due := none }

/-- The tree that the site sends for the bug. -/
def Bug.data (b : Bug) : Data :=
  .record
    [("id", .text b.key), ("key", .text b.key),
     ("fields", .record
       [("summary", .text "Fix login"), ("issuetype", .record [("name", .text "Bug")]),
        ("status", .record
          [("name", .text "Done"), ("statusCategory", .record [("key", .text "done")])]),
        ("assignee", .record [("accountId", .text b.assigneeId), ("displayName", .text "Ada")]),
        ("created", .text "2024-06-01T09:00:00.000+0000"),
        ("updated", .text "2024-06-10T09:00:00.000+0000"), ("resolutiondate", .text b.resolved)])]

/-- The issue that the bug is, on the site of the account, resolved at an instant. -/
def Bug.issue (b : Bug) (resolvedAt : Time.Instant) : Issue where
  id := b.key
  key := b.key
  url := acme.site ++ "/browse/" ++ b.key
  title := "Fix login"
  description := none
  status := "Done"
  progression := .done
  typeName := "Bug"
  priority := none
  estimate := none
  assigneeId := some b.assigneeId
  assigneeName := some "Ada"
  creatorId := none
  creatorName := none
  parentKey := none
  createdAt := ⟨1717232400, 0⟩
  updatedAt := ⟨1718010000, 0⟩
  completedAt := some resolvedAt
  dueAt := none

/-- A page with some of the bugs, of which there are `total` in all. -/
def bugPage (total : Nat) (bugs : List Bug) : Data :=
  .record [("total", .ofNat total), ("issues", .list (bugs.map Bug.data))]

theorem Bug.data_whole (b : Bug) : b.data.Whole := by
  have hname : ∀ name text, (Data.record [(name, .text text)]).Whole := fun _ _ =>
    .record <| .cons (.text _) .nil
  have hstatus : (Data.record [("name", .text "Done"),
      ("statusCategory", .record [("key", .text "done")])]).Whole :=
    .record <| .cons (.text _) <| .cons (hname _ _) .nil
  have hassignee : (Data.record [("accountId", .text b.assigneeId),
      ("displayName", .text "Ada")]).Whole :=
    .record <| .cons (.text _) <| .cons (.text _) .nil
  exact .record <| .cons (.text _) <| .cons (.text _) <| .cons (.record <| .cons (.text _) <|
    .cons (hname _ _) <| .cons hstatus <| .cons hassignee <| .cons (.text _) <|
    .cons (.text _) <| .cons (.text _) .nil) .nil

/-- A page is read as the site has written it. -/
theorem read_bugPage {total : Nat} (htotal : total < Number.wordSize32) (bugs : List Bug) :
    Json.read? (pageResponse (bugPage total bugs)).body.toList = some (bugPage total bugs) := by
  apply Json.read?_write
  exact .record <| .cons (.ofNat htotal) <| .cons (.ofItems fun b _ => b.data_whole) .nil

theorem Bug.issue_of_record {b : Bug} {resolvedAt : Time.Instant}
    (hresolved : timeOf b.resolved = .ok resolvedAt) :
    b.record.issue acme.site = .ok (b.issue resolvedAt) := by
  have hcreated : timeOf "2024-06-01T09:00:00.000+0000" = .ok ⟨1717232400, 0⟩ := by
    decide +kernel
  have hupdated : timeOf "2024-06-10T09:00:00.000+0000" = .ok ⟨1718010000, 0⟩ := by
    decide +kernel
  simp only [Bug.record, Record.issue, hcreated, hupdated, optionally, hresolved]
  rfl

/-- A bug of the site. -/
def login : Bug := ⟨"ENG-7", "ada", "2024-06-10T09:00:00.000+0000"⟩

/-- Another one. -/
def logout : Bug := ⟨"ENG-8", "ada", "2024-06-11T09:00:00.000+0000"⟩

theorem login_issue : login.record.issue acme.site = .ok (login.issue ⟨1718010000, 0⟩) :=
  Bug.issue_of_record (by decide +kernel)

theorem logout_issue : logout.record.issue acme.site = .ok (logout.issue ⟨1718096400, 0⟩) :=
  Bug.issue_of_record (by decide +kernel)

/-- The page with one of two bugs. -/
theorem decode_bugPage_one (b : Bug) :
    (Json.read? (pageResponse (bugPage 2 [b])).body.toList).bind Page.decode =
      some ⟨2, [b.record]⟩ := by
  rw [read_bugPage (by decide)]
  rfl

theorem exists_pageRequest_acme (search : String) (start : Nat) :
    ∃ sent, acme.pageRequest search start = .ok sent :=
  acme.exists_pageRequest search start (by decide +kernel)

/-- The answers of a site with two bugs, each on a page of its own. -/
def bugPages : World web Unit :=
  twoPages (acme.pageRequest "project = ENG") (pageResponse (bugPage 2 [login]))
    (pageResponse (bugPage 2 [logout]))

/-- The answers of the same site when it is busy from the second page on. -/
def busyPages : World web Unit :=
  twoPages (acme.pageRequest "project = ENG") (pageResponse (bugPage 2 [login])) ⟨503, "busy"⟩

/-- Two issues on two pages are both found; and where the second page is refused, neither
is. -/
theorem results_of_bugPages :
    (∃ starts t, (acme.results "project = ENG").run bugPages () =
          (.ok [login.issue ⟨1718010000, 0⟩, logout.issue ⟨1718096400, 0⟩], t) ∧
        (requests bugPages (acme.results "project = ENG") ()).map .ok =
          starts.map (acme.pageRequest "project = ENG") ∧ Ascends 0 2 starts) ∧
      ((acme.results "project = ENG").run busyPages ()).1 =
          .error (.service serviceName (.refused 503 "busy")) := by
  obtain ⟨first, hfirst⟩ := exists_pageRequest_acme "project = ENG" 0
  obtain ⟨second, hsecond⟩ := exists_pageRequest_acme "project = ENG" 1
  have hother : first.url ≠ second.url := fun hsame =>
    absurd (Account.pageRequest_unique hfirst hsecond hsame) (by decide)
  constructor
  · refine (results_whole_or_failed _ acme _ ()).1 [login.record, logout.record] _ ?_
      (.cons login_issue (.cons logout_issue .nil))
    intro start hstart s
    obtain rfl | rfl : start = 0 ∨ start = 1 := by
      simp only [List.length_cons, List.length_nil] at hstart
      omega
    · exact ⟨first, _, (), ⟨2, [login.record]⟩, hfirst, twoPages_beginning hfirst, rfl,
        decode_bugPage_one login, ⟨⟨[logout.record], rfl⟩, by decide, by simp⟩, rfl⟩
    · exact ⟨second, _, (), ⟨2, [logout.record]⟩, hsecond, twoPages_elsewhere hfirst hother, rfl,
        decode_bugPage_one logout, ⟨⟨[], rfl⟩, by decide, by simp⟩, rfl⟩
  · have hrefused : PageFault acme.site ⟨503, "busy"⟩ _ := .body (.refused rfl)
    refine (results_whole_or_failed _ acme _ ()).2 ⟨second, ⟨503, "busy"⟩⟩ ?_ _ hrefused
    have hread : readLeaf serviceName Page.decode acme.leaf 0 (pageResponse (bugPage 2 [login])) =
        .ok ⟨[login.issue ⟨1718010000, 0⟩], some 1⟩ := by
      rw [readLeaf_of_decoded rfl (decode_bugPage_one login), Account.leaf,
        Means.mapM (.cons login_issue .nil)]
      rfl
    have hanswer : busyPages first () = (.ok (pageResponse (bugPage 2 [login])), ()) :=
      twoPages_beginning hfirst
    rw [Account.results, replies_of_leaf (acme.pageByPage _) hfirst hanswer hread]
    exact List.mem_cons_of_mem _
      (replies_of_sent (acme.pageByPage _) hsecond (twoPages_elsewhere hfirst hother))

end TeamDigest.Service.Jira
