import TeamDigest.Proofs.Data.Mapped
import TeamDigest.Proofs.Http.Requests
import TeamDigest.Proofs.Json.Kept
import TeamDigest.Proofs.Service.Pages
import TeamDigest.Service.Linear

/-!
# Lists that are followed from place to place

A page of a list may announce another one, by a place that stands for the rest of the list
(`Page.Announces`).  It says whether there is more, and where, and the client keeps only what
the two come to (`Page.connection`, `connection_decode`).  Nothing is asked of places: they may
be the same again and again, since it is the service that decides what comes next.  A chain of
such pages, as they are fetched in a run, is `Follows`.

A client that is patient enough finds all nodes of the chain, in order, up to a page that is
empty or announces nothing (`run_collect_of_isLast`).  It sends one request for each page, for
the place that the page before has announced (`requests_collect_of_isLast`).  A page that fails
makes the whole list fail (`run_collect_of_error`), and so does a node that means no issue,
where the list is one of issues (`collected_whole_or_failed`).
-/

namespace TeamDigest.Service.Linear

open Http Text Time Work

variable {α : Type}

/-! ## Pages as they are written -/

/-- What a page tells about the rest of its list. -/
structure PageInfo where
  hasNextPage : Bool
  endCursor : Option String
  deriving DecidableEq

/-- Reads what a page tells about the rest of its list. -/
def PageInfo.decode : Decode PageInfo := .structure do
  let hasNextPage ← .required "hasNextPage" Decode.bool
  let endCursor ← .optional "endCursor" Decode.text
  pure { hasNextPage, endCursor }

/-- A page of a list. -/
structure Page (α : Type) where
  nodes : List α
  info : Option PageInfo
  deriving DecidableEq

/-- Reads a page of a list. -/
def Page.decode (node : Decode α) : Decode (Page α) := .structure do
  let nodes ← .required "nodes" (Decode.list node)
  let info ← .omittable "pageInfo" PageInfo.decode
  pure { nodes, info }

namespace Page

/-- The page says that the list goes on, and names the place. -/
def Announces (p : Page α) (cursor : String) : Prop := p.info = some ⟨true, some cursor⟩

/-- The page is empty, or it announces no other one. -/
def IsLast (p : Page α) : Prop := p.nodes = [] ∨ ∀ cursor, ¬ p.Announces cursor

/-- The place that the page announces, if it does. -/
def next (p : Page α) : Option String :=
  p.info.bind fun info => if info.hasNextPage then info.endCursor else none

/-- The page as the client keeps it. -/
def connection (p : Page α) : Connection α := ⟨p.nodes, p.next⟩

theorem next_eq_some_iff {p : Page α} {cursor : String} :
    p.next = some cursor ↔ p.Announces cursor := by
  unfold next Announces
  rcases p.info with _ | ⟨_ | _, endCursor⟩
  · simp
  · simp
  · simp

end Page

/-- What the client keeps of a page is all that it ever reads of it. -/
theorem connection_decode (node : Decode α) :
    Connection.decode node = Decode.mapped Page.connection (Page.decode node) := by
  have hinfo : pageInfo = Decode.mapped
      (fun info => if info.hasNextPage then info.endCursor else none) PageInfo.decode := by
    unfold pageInfo PageInfo.decode
    rw [← Decode.structure_map]
    simp only [map_bind, map_pure]
  unfold Connection.decode Page.decode
  rw [← Decode.structure_map, hinfo, Fields.omittable_mapped]
  simp only [map_bind, map_pure, bind_map_left]
  refine congrArg Decode.structure (bind_congr fun nodes => bind_congr fun info => ?_)
  rcases info with _ | _ | info
  · rfl
  · rfl
  · rfl

/-! ## Pages one after the other -/

section Collect

variable {σ : Type} {world : World web σ} {page : Option String → Client (Page α)}
  {request : Option String → Except TransportFault Request} {before : List (Page α)}
  {last : Page α} {place after : Option String} {s t u : σ}

/-- The pages are fetched one after the other: each of them holds something and announces
the place for which the next one is asked for, up to a place and a state in which the
client will ask for another page. -/
inductive Follows (world : World web σ) (page : Option String → Client (Page α)) :
    Option String → σ → List (Page α) → Option String → σ → Prop
  | start (after : Option String) (s : σ) : Follows world page after s [] after s
  | next {place after : Option String} {cursor : String} {found : Page α} {rest : List (Page α)}
      {s t u : σ} (hfound : (page place).run world s = (.ok found, t)) (hnodes : found.nodes ≠ [])
      (hmore : found.Announces cursor) (hrest : Follows world page (some cursor) t rest after u) :
      Follows world page place s (found :: rest) after u

/-- The client that keeps of the pages what it needs of them. -/
def keeping (page : Option String → Client (Page α)) (after : Option String) :
    Client (Connection α) :=
  Page.connection <$> page after

/-- What is done with a page: the client ends with it, or goes on behind it. -/
def proceed (patience : Nat) (page : Option String → Client (Page α)) (found : Page α) :
    Client (List α) :=
  match found.next with
  | some cursor =>
    if found.nodes.isEmpty then pure []
    else (found.nodes ++ ·) <$> collect patience (keeping page) (some cursor)
  | none => pure found.nodes

theorem collect_succ (patience : Nat) (page : Option String → Client (Page α))
    (after : Option String) :
    collect (patience + 1) (keeping page) after = page after >>= proceed patience page := by
  rw [collect]
  change (Page.connection <$> page after >>= _) = _
  rw [bind_map_left]
  refine bind_congr fun found => ?_
  unfold proceed
  change (match found.next with
    | some cursor => _
    | none => _) = _
  cases found.next with
  | none => rfl
  | some cursor =>
      simp only [Page.connection, map_eq_pure_bind]
      rfl

theorem proceed_of_isLast {patience : Nat} {found : Page α} (h : found.IsLast) :
    proceed patience page found = .done found.nodes := by
  unfold proceed
  cases hnext : found.next with
  | none => rfl
  | some cursor =>
      have hnil : found.nodes = [] :=
        h.resolve_right fun hnone => hnone cursor (Page.next_eq_some_iff.1 hnext)
      simp [hnil]

theorem proceed_of_announces {patience : Nat} {found : Page α} {cursor : String}
    (hnodes : found.nodes ≠ []) (hmore : found.Announces cursor) :
    proceed patience page found = (found.nodes ++ ·) <$>
      collect patience (keeping page) (some cursor) := by
  simp [proceed, Page.next_eq_some_iff.2 hmore, hnodes]

/-- The nodes of the pages that have been fetched stand in front of what is still found. -/
theorem run_collect_of_follows (hfollows : Follows world page place s before after t)
    (patience : Nat) :
    (collect (before.length + patience) (keeping page) place).run world s =
      ((before.flatMap Page.nodes ++ ·) <$> collect patience (keeping page) after).run world t := by
  induction hfollows with
  | start => simp
  | @next place after cursor found rest s t u hfound hnodes hmore hrest ih =>
      have hlength : (found :: rest).length + patience = (rest.length + patience) + 1 := by
        simp only [List.length_cons]
        omega
      rw [hlength, collect_succ, Plan.run_bind_of_ok hfound, proceed_of_announces hnodes hmore,
        Plan.run_map, ih, Plan.run_map, Plan.run_map]
      cases (collect patience (keeping page) after).run world u with
      | mk outcome v =>
          cases outcome with
          | ok nodes => simp [Except.map]
          | error error => rfl

theorem run_collect_of_isLast (hfollows : Follows world page place s before after t)
    (hlast : (page after).run world t = (.ok last, u)) (hends : last.IsLast) {patience : Nat}
    (hpatience : before.length < patience) :
    (collect patience (keeping page) place).run world s =
      (.ok ((before ++ [last]).flatMap Page.nodes), u) := by
  obtain ⟨more, rfl⟩ := Nat.exists_eq_add_of_lt hpatience
  rw [Nat.add_assoc, run_collect_of_follows hfollows, collect_succ, Plan.run_map,
    Plan.run_bind_of_ok hlast, proceed_of_isLast hends, List.flatMap_append]
  simp [Except.map]

theorem run_collect_of_error {error : Error} (hfollows : Follows world page place s before after t)
    (hfails : (page after).run world t = (.error error, u)) {patience : Nat}
    (hpatience : before.length < patience) :
    (collect patience (keeping page) place).run world s = (.error error, u) := by
  obtain ⟨more, rfl⟩ := Nat.exists_eq_add_of_lt hpatience
  rw [Nat.add_assoc, run_collect_of_follows hfollows, collect_succ, Plan.run_map,
    Plan.run_bind_of_error hfails]
  rfl

/-- The client sends one request, and what it comes to depends on the response alone. -/
def SendsOnce {β : Type} (request : Except TransportFault Request) (client : Client β) : Prop :=
  ∃ read : Response → Except Error β,
    client = Client.send request >>= fun response => .ofExcept (read response)

theorem requests_of_sendsOnce {β : Type} {request : Except TransportFault Request}
    {client : Client β} {b : β} (honce : SendsOnce request client)
    (hrun : client.run world s = (.ok b, t)) :
    (requests world client s).map .ok = [request] := by
  obtain ⟨read, rfl⟩ := honce
  cases request with
  | error fault => simp [Client.send] at hrun
  | ok sent =>
      cases hanswer : world sent s with
      | mk outcome later =>
          cases outcome with
          | error error =>
              have hfailed : (Client.send (.ok sent) >>= fun response =>
                  .ofExcept (read response)).run world s = (.error error, later) :=
                Plan.run_ask_bind_of_error hanswer
              rw [hfailed] at hrun
              exact absurd (congrArg Prod.fst hrun) (by simp)
          | ok response =>
              rw [requests_send hanswer, requests, Plan.asked_ofExcept]
              rfl

theorem requests_collect_of_isLast (honce : ∀ after, SendsOnce (request after) (page after))
    (hfollows : Follows world page place s before after t)
    (hlast : (page after).run world t = (.ok last, u)) (hends : last.IsLast) {patience : Nat}
    (hpatience : before.length < patience) :
    (requests world (collect patience (keeping page) place) s).map .ok =
      (place :: before.map Page.next).map request := by
  induction hfollows generalizing patience with
  | start after s =>
      obtain ⟨more, rfl⟩ := Nat.exists_eq_add_one_of_ne_zero (Nat.ne_zero_of_lt hpatience)
      rw [collect_succ, requests_bind_of_ok hlast, proceed_of_isLast hends, List.map_append,
        requests_of_sendsOnce (honce after) hlast]
      rfl
  | @next place after cursor found rest s v w hfound hnodes hmore hrest ih =>
      obtain ⟨more, rfl⟩ := Nat.exists_eq_add_one_of_ne_zero (Nat.ne_zero_of_lt hpatience)
      have hlater : requests world (proceed more page found) v =
          requests world (collect more (keeping page) (some cursor)) v := by
        rw [proceed_of_announces hnodes hmore]
        exact Plan.asked_map world _ _ v
      rw [collect_succ, requests_bind_of_ok hfound, List.map_append,
        requests_of_sendsOnce (honce place) hfound, hlater,
        ih hlast (Nat.lt_of_succ_lt_succ hpatience), ← Page.next_eq_some_iff.2 hmore]
      rfl

end Collect

/-! ## Lists of issues -/

/-- The lists of issues that are asked for page by page. -/
inductive Listing where
  | children (key : String)
  | resolved (person : String) (start stop : Instant)

namespace Listing

/-- The query for a page of a list. -/
def query : Listing → String
  | children _ => childrenQuery
  | resolved _ _ _ => resolvedQuery

/-- What the query is put with to get the page behind a place. -/
def bindings (after : Option String) : Listing → List (String × Data)
  | children key => [("after", .ofText? after), ("first", .ofNat pageSize), ("id", .text key)]
  | resolved person start stop =>
    [("after", .ofText? after), ("end", .text stop.toOffsetText), ("first", .ofNat pageSize),
     ("start", .text start.toOffsetText), ("user", .text person)]

/-- Reads a page of a list; where there is no issue, there is none under it. -/
def decode : Listing → Decode (Page Record)
  | children _ =>
    .mapped (Option.getD · ⟨[], none⟩)
      (only "issue" (.structure (.required "children" (Page.decode Record.decode))))
  | resolved _ _ _ => .structure (.required "issues" (Page.decode Record.decode))

end Listing

/-- What a response says in answer to a query. -/
def readAnswer {β : Type} (decode : Decode β) (response : Response) : Except Error β :=
  if isSuccess response.status then
    match Json.readValue? response.body.toList with
    | none => .error (.transport .undecodable)
    | some d =>
      match d.field? "errors", d.field? "data" with
      | some errors, _ => .error (.service serviceName (.query (Json.write errors)))
      | none, some found =>
        match decode found with
        | some b => .ok b
        | none => .error .json
      | none, none => .error (.service serviceName .noData)
  else .error (.service serviceName (.refused response.status response.body))

theorem readAnswer_of_decoded {β : Type} {decode : Decode β} {response : Response} {d : Data}
    {b : β} (hstatus : isSuccess response.status = true)
    (hread : Json.read? response.body.toList = some d) (husable : d.isUsable = true)
    (herrors : (d.canonical.field? "errors").isSome = false)
    (hdata : (d.canonical.field? "data").bind decode = some b) :
    readAnswer decode response = .ok b := by
  obtain ⟨found, hfound, hdecode⟩ := Option.bind_eq_some_iff.1 hdata
  have herrors' : d.canonical.field? "errors" = none := by simpa using herrors
  simp [readAnswer, hstatus, Json.readValue?, hread, husable, herrors', hfound, hdecode]

namespace Account

/-- The request that puts a query. -/
def request (a : Account) (query : String) (bindings : List (String × Data)) :
    Except TransportFault Request :=
  Http.request .post address []
    [("authorization", a.token), ("content-type", "application/json")]
    (some (.record [("query", .text query), ("variables", .record bindings)]))

/-- The request for a page of a list. -/
def listRequest (a : Account) (l : Listing) (after : Option String) :
    Except TransportFault Request :=
  a.request l.query (l.bindings after)

/-- One page of a list. -/
def listPage (a : Account) (l : Listing) (after : Option String) : Client (Page Record) :=
  a.ask l.query (l.bindings after) l.decode

/-- A list of issues. -/
def list (a : Account) : Listing → Client (List Issue)
  | .children key => a.children key
  | .resolved person start stop => a.resolved person start stop

theorem ask_eq {β : Type} (a : Account) (query : String) (bindings : List (String × Data))
    (decode : Decode β) : a.ask query bindings decode =
      Client.send (a.request query bindings) >>= fun response =>
        .ofExcept (readAnswer decode response) := by
  rw [ask, Client.exchange, bind_assoc]
  refine bind_congr fun response => ?_
  unfold Client.checked readAnswer
  cases isSuccess response.status with
  | false => rfl
  | true =>
      simp only [if_true, Plan.pure_eq, Plan.bind_done]
      unfold dataOf
      cases Json.readValue? response.body.toList with
      | none => rfl
      | some d =>
          dsimp only
          cases d.field? "errors" with
          | some errors => rfl
          | none =>
              cases d.field? "data" with
              | none => rfl
              | some found =>
                  simp only [Plan.pure_eq, Plan.bind_done]
                  cases decode found with
                  | none => rfl
                  | some b => rfl

theorem sendsOnce_listPage (a : Account) (l : Listing) (after : Option String) :
    SendsOnce (a.listRequest l after) (a.listPage l after) :=
  ⟨_, a.ask_eq _ _ _⟩

theorem run_listPage_of_sent {σ : Type} {world : World web σ} {a : Account} {l : Listing}
    {after : Option String} {sent : Request} {response : Response} {s t : σ}
    (hsent : a.listRequest l after = .ok sent) (hanswer : world sent s = (.ok response, t)) :
    (a.listPage l after).run world s = (readAnswer l.decode response, t) := by
  have hsent' : a.request l.query (l.bindings after) = .ok sent := hsent
  rw [listPage, ask_eq, hsent', run_send hanswer, Plan.run_ofExcept]

theorem ask_mapped {β γ : Type} (a : Account) (query : String) (bindings : List (String × Data))
    (f : β → γ) (decode : Decode β) :
    a.ask query bindings (.mapped f decode) = f <$> a.ask query bindings decode := by
  unfold ask Decode.mapped
  simp only [map_bind]
  refine bind_congr fun body => bind_congr fun d => ?_
  cases decode d with
  | none => rfl
  | some b => rfl

theorem only_mapped {β γ : Type} (name : String) (f : β → γ) (decode : Decode β) :
    only name (.mapped f decode) = .mapped (Option.map f) (only name decode) := by
  rw [only, Fields.optional_mapped, Decode.structure_map]
  rfl

/-- A page of issues under a name is kept as any other page is. -/
theorem structure_connection (name : String) :
    Decode.structure (.required name (Connection.decode Record.decode)) =
      .mapped Page.connection (.structure (.required name (Page.decode Record.decode))) := by
  rw [connection_decode, Fields.required_mapped, Decode.structure_map]

theorem childPage_eq (a : Account) (key : String) (after : Option String) :
    a.childPage key after = keeping (a.listPage (.children key)) after := by
  dsimp only [childPage, keeping, listPage, Listing.query, Listing.bindings, Listing.decode]
  rw [structure_connection, only_mapped, ask_mapped, ask_mapped, bind_map_left, ← comp_map,
    map_eq_pure_bind]
  refine bind_congr fun found => ?_
  cases found with
  | none => rfl
  | some page => rfl

theorem resolvedPage_eq (a : Account) (person : String) (start stop : Instant)
    (after : Option String) : a.resolvedPage person start stop after =
      keeping (a.listPage (.resolved person start stop)) after := by
  unfold resolvedPage keeping listPage Listing.decode
  rw [structure_connection, ask_mapped]
  rfl

/-- A list is what its records mean once all pages have been collected. -/
theorem list_eq (a : Account) (l : Listing) : a.list l =
    collect a.patience (keeping (a.listPage l)) none >>=
      fun records => .ofExcept (records.mapM Record.issue) := by
  cases l with
  | children key => rw [list, children, funext (a.childPage_eq key)]
  | resolved person start stop =>
      rw [list, resolved, funext (a.resolvedPage_eq person start stop)]

section Lists

variable {σ : Type} {world : World web σ} {l : Listing} {records : List Record} {s t : σ}

theorem run_list (a : Account)
    (hcollect : (collect a.patience (keeping (a.listPage l)) none).run world s =
      (.ok records, t)) :
    (a.list l).run world s = (records.mapM Record.issue, t) := by
  rw [a.list_eq, Plan.run_bind_of_ok hcollect, Plan.run_ofExcept]

theorem requests_list (a : Account)
    (hcollect : (collect a.patience (keeping (a.listPage l)) none).run world s =
      (.ok records, t)) :
    requests world (a.list l) s =
      requests world (collect a.patience (keeping (a.listPage l)) none) s := by
  rw [a.list_eq, requests_bind_of_ok hcollect]
  exact (congrArg _ (Plan.asked_ofExcept world _ t)).trans (List.append_nil _)

end Lists

end Account

/-- If a record has no meaning, then the records have none together. -/
theorem exists_mapM_eq_error {records : List Record} {record : Record} {error : Error}
    (hrecord : record ∈ records) (herror : record.issue = .error error) :
    ∃ first, records.mapM Record.issue = .error first := by
  induction records with
  | nil => simp at hrecord
  | cons other records ih =>
      rw [List.mapM_cons]
      cases hother : other.issue with
      | error first => exact ⟨first, rfl⟩
      | ok issue =>
          rcases List.mem_cons.1 hrecord with rfl | hrest
          · simp [hother] at herror
          · obtain ⟨first, hfirst⟩ := ih hrest
            exact ⟨first, by rw [hfirst]; rfl⟩

/-- Whatever the pages of a list are, and whether or not they announce each other by the same
places, a client of enough patience fetches all of them: the first one without a place, and
each later one for the place that the page before has announced, up to a page that is empty or
announces no other one.  What is found are the nodes of all pages, in order.  If a page fails,
then the whole list fails with it, and a list of issues also does if a node of some page means
no issue. -/
theorem collected_whole_or_failed {σ : Type} (world : World web σ) (s : σ) :
    (∀ (page : Option String → Client (Page α)) (before : List (Page α)) (after : Option String)
        (t : σ) (patience : Nat),
      Follows world page none s before after t → before.length < patience →
      (∀ last u, (page after).run world t = (.ok last, u) → last.IsLast →
        (collect patience (keeping page) none).run world s =
            (.ok ((before ++ [last]).flatMap Page.nodes), u) ∧
          ∀ request, (∀ after, SendsOnce (request after) (page after)) →
            (requests world (collect patience (keeping page) none) s).map .ok =
              (none :: before.map Page.next).map request) ∧
      ∀ error u, (page after).run world t = (.error error, u) →
        (collect patience (keeping page) none).run world s = (.error error, u)) ∧
    ∀ (a : Account) (l : Listing) (before : List (Page Record)) (after : Option String) (t : σ),
      Follows world (a.listPage l) none s before after t → before.length < a.patience →
      (∀ last u, (a.listPage l after).run world t = (.ok last, u) → last.IsLast →
        (a.list l).run world s =
            (((before ++ [last]).flatMap Page.nodes).mapM Record.issue, u) ∧
          (requests world (a.list l) s).map .ok =
            (none :: before.map Page.next).map (a.listRequest l) ∧
          ∀ record ∈ (before ++ [last]).flatMap Page.nodes, ∀ error,
            record.issue = .error error → ∃ first, (a.list l).run world s = (.error first, u)) ∧
      ∀ error u, (a.listPage l after).run world t = (.error error, u) →
        (a.list l).run world s = (.error error, u) := by
  refine ⟨?_, ?_⟩
  · intro page before after t patience hfollows hpatience
    refine ⟨fun last u hlast hends => ⟨?_, fun request honce => ?_⟩, fun error u hfails => ?_⟩
    · exact run_collect_of_isLast hfollows hlast hends hpatience
    · exact requests_collect_of_isLast honce hfollows hlast hends hpatience
    · exact run_collect_of_error hfollows hfails hpatience
  · intro a l before after t hfollows hpatience
    refine ⟨fun last u hlast hends => ?_, fun error u hfails => ?_⟩
    · have hnodes := run_collect_of_isLast hfollows hlast hends hpatience
      have hrun := a.run_list hnodes
      refine ⟨hrun, ?_, fun record hrecord error herror => ?_⟩
      · rw [a.requests_list hnodes]
        exact requests_collect_of_isLast (a.sendsOnce_listPage l) hfollows hlast hends hpatience
      · obtain ⟨first, hfirst⟩ := exists_mapM_eq_error hrecord herror
        exact ⟨first, by rw [hrun, hfirst]⟩
    · rw [a.list_eq]
      exact Plan.run_bind_of_error (run_collect_of_error hfollows hfails hpatience)

/-! ### Three pages that name the same place -/

/-- An account that is patient enough for three pages. -/
def threefold : Account := ⟨"token", 3⟩

/-- An issue as the service writes it. -/
def issueData (key : String) (due : Option String) : Data :=
  .record
    [("id", .text key), ("identifier", .text key), ("url", .text "https://linear.app/acme"),
     ("title", .text "Retry"),
     ("state", .record [("name", .text "Todo"), ("type", .text "unstarted")]),
     ("labels", .record [("nodes", .list [])]), ("children", .record [("nodes", .list [])]),
     ("createdAt", .text "2024-05-01T00:00:00Z"), ("updatedAt", .text "2024-05-01T00:00:00Z"),
     ("dueDate", .ofText? due)]

/-- The same issue as it is read. -/
def issueRecord (key : String) (due : Option String) : Record where
  id := key
  key := key
  url := "https://linear.app/acme"
  title := "Retry"
  description := none
  priority := none
  estimate := none
  state := ⟨"Todo", "unstarted"⟩
  labels := ⟨[], none⟩
  assignee := none
  creator := none
  parentKey := none
  children := ⟨[], none⟩
  createdAt := ⟨1714521600, 0⟩
  updatedAt := ⟨1714521600, 0⟩
  completedAt := none
  due := due

/-- A page of issues with their due dates, as the service writes it; the place behind it is
always the same. -/
def childrenData (issues : List (String × Option String)) (more : Bool) : Data :=
  .record [("data", .record [("issue", .record [("children", .record
    [("nodes", .list (issues.map fun i => issueData i.1 i.2)),
     ("pageInfo", .record [("hasNextPage", .bool more), ("endCursor", .text "next")])])])])]

/-- The same page as it is read. -/
def childrenPage (issues : List (String × Option String)) (more : Bool) : Page Record :=
  ⟨issues.map fun i => issueRecord i.1 i.2, some ⟨more, some "next"⟩⟩

/-- The pages of the example. -/
def samples : List (List (String × Option String) × Bool) :=
  [([("ENG-2", none)], true), ([("ENG-3", none)], true), ([("ENG-4", none)], false),
   ([("ENG-4", some "soon")], false), ([], true)]

theorem read_childrenData {issues : List (String × Option String)} {more : Bool}
    (hsample : (issues, more) ∈ samples) :
    readAnswer (Listing.children "ENG-1").decode (pageResponse (childrenData issues more)) =
      .ok (childrenPage issues more) := by
  have hwhole : (childrenData issues more).Whole := by
    refine .record <| .cons (.record <| .cons (.record <| .cons (.record <| .cons
      (.list fun d hd => ?_) <| .cons (.record <| .cons (.bool _) <| .cons (.text _) .nil) .nil)
      .nil) .nil) .nil
    obtain ⟨i, -, rfl⟩ := List.mem_map.1 hd
    exact .record <| .cons (.text _) <| .cons (.text _) <| .cons (.text _) <| .cons (.text _) <|
      .cons (.record <| .cons (.text _) <| .cons (.text _) .nil) <|
      .cons (.record <| .cons (.list (by simp)) .nil) <|
      .cons (.record <| .cons (.list (by simp)) .nil) <| .cons (.text _) <| .cons (.text _) <|
      .cons (.ofText? _) .nil
  have hsamples : ∀ sample ∈ samples,
      (childrenData sample.1 sample.2).isUsable = true ∧
        ((childrenData sample.1 sample.2).canonical.field? "errors").isSome = false ∧
        ((childrenData sample.1 sample.2).canonical.field? "data").bind
          (Listing.children "ENG-1").decode = some (childrenPage sample.1 sample.2) := by
    decide +kernel
  obtain ⟨husable, herrors, hdata⟩ := hsamples _ hsample
  exact readAnswer_of_decoded rfl (Json.read?_write hwhole) husable herrors hdata

theorem exists_listRequest_threefold (after : Option String) :
    ∃ sent, threefold.listRequest (.children "ENG-1") after = .ok sent :=
  exists_request (by decide +kernel) (by decide +kernel)

/-- A service that answers with two pages of one issue each, and from then on with something
else. -/
def threePages (third : Response) : World web Nat := fun _ n =>
  match n with
  | 0 => (.ok (pageResponse (childrenData [("ENG-2", none)] true)), 1)
  | 1 => (.ok (pageResponse (childrenData [("ENG-3", none)] true)), 2)
  | n + 2 => (.ok third, n + 3)

theorem run_third (third : Response) :
    (threefold.listPage (.children "ENG-1") (some "next")).run (threePages third) 2 =
      (readAnswer (Listing.children "ENG-1").decode third, 3) := by
  obtain ⟨sent, hsent⟩ := exists_listRequest_threefold (some "next")
  exact Account.run_listPage_of_sent hsent rfl

theorem follows_threePages (third : Response) :
    Follows (threePages third) (threefold.listPage (.children "ENG-1")) none 0
      [childrenPage [("ENG-2", none)] true, childrenPage [("ENG-3", none)] true] (some "next")
      2 := by
  obtain ⟨first, hfirst⟩ := exists_listRequest_threefold none
  obtain ⟨second, hsecond⟩ := exists_listRequest_threefold (some "next")
  refine .next (t := 1) ?_ (List.cons_ne_nil _ _) rfl
    (.next (t := 2) ?_ (List.cons_ne_nil _ _) rfl (.start _ _))
  · rw [Account.run_listPage_of_sent hfirst rfl, read_childrenData (by decide)]
  · rw [Account.run_listPage_of_sent hsecond rfl, read_childrenData (by decide)]

/-- The third page is asked for although the second one names the same place as the first.
If it is empty, the list ends there; if it fails or holds an issue without a meaning, there
is no list. -/
theorem collected_of_three_pages :
    (∃ issues, (threefold.list (.children "ENG-1")).run
          (threePages (pageResponse (childrenData [("ENG-4", none)] false))) 0 =
            (.ok issues, 3) ∧ issues.map Issue.key = ["ENG-2", "ENG-3", "ENG-4"]) ∧
      (requests (threePages (pageResponse (childrenData [("ENG-4", none)] false)))
        (threefold.list (.children "ENG-1")) 0).map .ok =
          [none, some "next", some "next"].map (threefold.listRequest (.children "ENG-1")) ∧
      (∃ first, (threefold.list (.children "ENG-1")).run
          (threePages (pageResponse (childrenData [("ENG-4", some "soon")] false))) 0 =
            (.error first, 3)) ∧
      (threefold.list (.children "ENG-1")).run (threePages ⟨503, "busy"⟩) 0 =
        (.error (.service serviceName (.refused 503 "busy")), 3) ∧
      (collect 3 (keeping (threefold.listPage (.children "ENG-1"))) none).run
          (threePages (pageResponse (childrenData [] true))) 0 =
        (.ok [issueRecord "ENG-2" none, issueRecord "ENG-3" none], 3) ∧
      (requests (threePages (pageResponse (childrenData [] true)))
        (collect 3 (keeping (threefold.listPage (.children "ENG-1"))) none) 0).map .ok =
          [none, some "next", some "next"].map (threefold.listRequest (.children "ENG-1")) ∧
      (collect 3 (keeping (threefold.listPage (.children "ENG-1"))) none).run
          (threePages ⟨503, "busy"⟩) 0 =
        (.error (.service serviceName (.refused 503 "busy")), 3) := by
  have hpatience : [childrenPage [("ENG-2", none)] true,
      childrenPage [("ENG-3", none)] true].length < 3 := by decide
  have hpage : ∀ issues more, (issues, more) ∈ samples →
      (threefold.listPage (.children "ENG-1") (some "next")).run
        (threePages (pageResponse (childrenData issues more))) 2 =
          (.ok (childrenPage issues more), 3) := by
    intro issues more hsample
    rw [run_third, read_childrenData hsample]
  have hbusy : (threefold.listPage (.children "ENG-1") (some "next")).run
      (threePages ⟨503, "busy"⟩) 2 = (.error (.service serviceName (.refused 503 "busy")), 3) :=
    run_third _
  have hends : ∀ issues, (childrenPage issues false).IsLast := fun issues =>
    .inr fun cursor hmore => absurd hmore (by simp [Page.Announces, childrenPage])
  have hcollect := fun third => (collected_whole_or_failed (α := Record) (threePages third) 0).1
    _ _ _ _ 3 (follows_threePages third) hpatience
  have hlist := fun third => (collected_whole_or_failed (α := Record) (threePages third) 0).2
    threefold _ _ _ _ (follows_threePages third) hpatience
  obtain ⟨hrun, hasked, -⟩ :=
    (hlist _).1 _ _ (hpage _ _ (by decide)) (hends [("ENG-4", none)])
  obtain ⟨-, -, hbad⟩ :=
    (hlist _).1 _ _ (hpage _ _ (by decide)) (hends [("ENG-4", some "soon")])
  obtain ⟨hnodes, hcursors⟩ := (hcollect _).1 _ _ (hpage [] true (by decide)) (.inl rfl)
  have hsoon : issueRecord "ENG-4" (some "soon") ∈ ([childrenPage [("ENG-2", none)] true,
      childrenPage [("ENG-3", none)] true] ++
        [childrenPage [("ENG-4", some "soon")] false]).flatMap Page.nodes := by
    simp [childrenPage]
  refine ⟨⟨_, hrun, rfl⟩, hasked, hbad _ hsoon .time rfl, ?_, hnodes, ?_, ?_⟩
  · exact (hlist _).2 _ _ hbusy
  · exact hcursors _ (threefold.sendsOnce_listPage _)
  · exact (hcollect _).2 _ _ hbusy

end TeamDigest.Service.Linear
