import TeamDigest.Proofs.Http.Requests
import TeamDigest.Proofs.Plan.Transcript
import TeamDigest.Service.Claude
import TeamDigest.Service.GitHub
import TeamDigest.Service.PagerDuty
import TeamDigest.Service.Slack
import TeamDigest.Service.Tracker

/-!
# What the clients of services send

The clients from which a report is gathered have three things in common, however many pages
they go through.  None of them sends what has the form of a message to a channel, or sends
anything to an address that is not one of its service, and each of them gives up at once on
a response that is no success.  `Careful` says so of a client and the addresses of its
service, and each client is careful because the two functions are that all of them are made
with, `Client.exchange` and `Client.fetch`.  Only the client of the channel sends messages
(`publish_asksOnly`).
-/

namespace TeamDigest.Service

open Http Time Work

/-- The body of a message to a channel. -/
def message (text : String) : Data := .record [("text", .text text), ("mrkdwn", .bool true)]

/-- The request posts a message to a channel. -/
def Posts (request : Request) (text : String) : Prop := request.body = some (message text)

theorem Posts.unique {request : Request} {first second : String} (h₁ : Posts request first)
    (h₂ : Posts request second) : first = second := by
  simpa [message] using h₁.symm.trans h₂

/-- The request posts no message. -/
def IsSilent (request : Request) : Prop := ∀ text, ¬ Posts request text

/-- The response is no success. -/
def Refuses (response : Response) : Prop := isSuccess response.status = false

/-- The request posts no message, and it goes to one of the addresses. -/
def IsSound (addresses : String → Prop) (request : Request) : Prop :=
  IsSilent request ∧ request.url.LeadsTo addresses

/-- The client posts no message, sends nothing but to some addresses, and gives up at once
when it is refused. -/
structure Careful (addresses : String → Prop) {α : Type} (client : Client α) : Prop where
  heeds : client.Heeds (IsSound addresses) fun reply => Refuses reply.answer

/-- The body is none of a message. -/
def IsSilentBody (body : Option Data) : Prop := ∀ text, body ≠ some (message text)

theorem isSilentBody_none : IsSilentBody none := by simp [IsSilentBody]

/-- A message begins with its text, so a record that begins otherwise is none. -/
theorem isSilentBody_record {name : String} {value : Data} {fields : List (String × Data)}
    (hname : name ≠ "text") : IsSilentBody (some (.record ((name, value) :: fields))) := by
  intro text
  simp [message, hname]

theorem body_of_request {method : Method} {address : String}
    {query headers : List (String × String)} {body : Option Data} {request : Request}
    (hrequest : Http.request method address query headers body = .ok request) :
    request.body = body := by
  obtain ⟨_, -, hbody, -⟩ := sent_of_request hrequest
  exact hbody

variable {addresses : String → Prop}

namespace Careful

variable {α β : Type} {client : Client α} {f : α → Client β}

theorem done (a : α) : Careful addresses (.done a) := ⟨trivial⟩

theorem fail (error : Error) : Careful addresses (.fail error : Client α) := ⟨trivial⟩

theorem ofExcept (found : Except Error α) : Careful addresses (.ofExcept found) :=
  ⟨.ofExcept found⟩

theorem bind (hclient : Careful addresses client) (hf : ∀ a, Careful addresses (f a)) :
    Careful addresses (client >>= f) :=
  ⟨hclient.heeds.bind fun a => (hf a).heeds⟩

theorem all {clients : List (Client α)} (h : ∀ client ∈ clients, Careful addresses client) :
    Careful addresses (Plan.all clients) :=
  ⟨.all fun client hclient => (h client hclient).heeds⟩

/-- What is made of the answers adds no request. -/
theorem thenDone (hclient : Careful addresses client) (g : α → β) :
    Careful addresses (client >>= fun a => pure (g a)) :=
  hclient.bind fun a => done (g a)

theorem thenOfOption (hclient : Careful addresses client) (error : Error)
    (found : α → Option β) : Careful addresses (client >>= fun a => .ofOption error (found a)) :=
  hclient.bind fun a => ⟨.ofOption error (found a)⟩

theorem thenOfExcept (hclient : Careful addresses client) (found : α → Except Error β) :
    Careful addresses (client >>= fun a => .ofExcept (found a)) :=
  hclient.bind fun a => ofExcept (found a)

end Careful

section Clients

variable {α : Type} {service address : String} {method : Method}
  {query headers : List (String × String)} {body : Option Data} {decode : Decode α}

theorem careful_exchange (haddress : addresses address) (hbody : IsSilentBody body) :
    Careful addresses
      (Client.exchange service (Http.request method address query headers body)) := by
  unfold Client.exchange Client.send
  cases hrequest : Http.request method address query headers body with
  | error fault => exact .fail _
  | ok request =>
      have hsilent : IsSilent request := fun text hposts =>
        hbody text (body_of_request hrequest ▸ hposts)
      refine ⟨⟨hsilent, leadsTo_of_request haddress hrequest⟩, fun response => ?_⟩
      change (Refuses response → ∃ error, Client.checked service response = .fail error) ∧
        (Client.checked service response).Heeds _ _
      unfold Client.checked Refuses
      cases isSuccess response.status with
      | true => exact ⟨fun h => by simp at h, trivial⟩
      | false => exact ⟨fun _ => ⟨_, rfl⟩, trivial⟩

theorem careful_fetch (haddress : addresses address) (hbody : IsSilentBody body) :
    Careful addresses
      (Client.fetch service (Http.request method address query headers body) decode) :=
  (careful_exchange haddress hbody).thenOfOption _ _

end Clients

/-! ## The single services -/

/-- The address at which the writer is asked. -/
def Claude.IsAddress (address : String) : Prop := address = "http://api.anthropic.com/v1/messages"

theorem careful_claude (a : Claude.Account) (text : String) :
    Careful Claude.IsAddress (a.rollup text) := by
  have hbody : IsSilentBody (some (a.body (some Rollup.instruction) (Rollup.request text))) :=
    isSilentBody_record (by decide)
  have haddress : Claude.IsAddress "http://api.anthropic.com/v1/messages" := rfl
  exact Careful.thenDone ((careful_fetch haddress hbody).thenOfOption _ _) _

namespace GitHub

/-- The address at which searches are asked for. -/
def IsAddress (address : String) : Prop := address = "http://api.github.com/search/issues"

theorem careful_page (a : Account) (search : String) (number : Nat) :
    Careful IsAddress (a.page search number) :=
  careful_fetch rfl isSilentBody_none

theorem careful_pages (a : Account) (search : String) (numbers : List Nat) :
    Careful IsAddress (a.pages search numbers) := by
  induction numbers with
  | nil => exact .done _
  | cons number numbers ih =>
      refine (careful_page a search number).bind fun records => ?_
      dsimp only
      split
      · exact .done _
      · exact ih.thenDone _

theorem careful_mergedBy (a : Account) (login : String) (orgs : List String)
    (start stop : Instant) : Careful IsAddress (a.mergedBy login orgs start stop) :=
  careful_pages _ _ _

theorem careful_mentioning (a : Account) (text : String) (orgs : List String)
    (start stop : Instant) : Careful IsAddress (a.mentioning text orgs start stop) :=
  careful_pages _ _ _

end GitHub

namespace PagerDuty

/-- The address at which incidents are asked for. -/
def IsAddress (address : String) : Prop := address = "http://api.pagerduty.com/incidents"

theorem careful_page (a : Account) (service : String) (start stop : Instant) (position : Nat) :
    Careful IsAddress (a.page service start stop position) :=
  careful_fetch rfl isSilentBody_none

theorem careful_incidentsFrom (a : Account) (service : String) (start stop : Instant)
    (position : Nat) : Careful IsAddress (a.incidentsFrom service start stop position) := by
  fun_induction Account.incidentsFrom a service start stop position with
  | case1 position ih =>
      refine (careful_page a service start stop position).bind fun page => ?_
      dsimp only
      split
      · exact .done _
      · split
        · exact .fail _
        · next hmore hnext => exact (ih page hmore hnext).thenDone _

theorem careful_incidents (a : Account) (service : String) (start stop : Instant) :
    Careful IsAddress (a.incidents service start stop) :=
  careful_incidentsFrom _ _ _ _ _

end PagerDuty

namespace Jira

/-- The addresses at which searches and comments are asked for. -/
def Account.IsAddress (a : Account) (address : String) : Prop :=
  address = a.site ++ "/rest/api/2/search" ∨
    ∃ key, address = a.site ++ ("/rest/api/2/issue/" ++ key ++ "/comment")

theorem careful_page (a : Account) (search : String) (start : Nat) :
    Careful a.IsAddress (a.page search start) :=
  careful_fetch (.inl rfl) isSilentBody_none

theorem careful_resultsFrom (a : Account) (search : String) (start : Nat) :
    Careful a.IsAddress (a.resultsFrom search start) := by
  fun_induction Account.resultsFrom a search start with
  | case1 start ih =>
      refine (careful_page a search start).bind fun page => ?_
      refine Careful.bind (.ofExcept _) fun issues => ?_
      dsimp only
      split
      · exact .done _
      · next hmore => exact (ih page hmore).thenDone _

theorem careful_issues (a : Account) (keys : List String) :
    Careful a.IsAddress (a.issues keys) := by
  unfold Account.issues
  split
  · exact .done _
  · exact careful_resultsFrom _ _ _

theorem careful_children (a : Account) (key : String) : Careful a.IsAddress (a.children key) :=
  careful_resultsFrom _ _ _

theorem careful_comments (a : Account) (key : String) (limit : Nat) :
    Careful a.IsAddress (a.comments key limit) :=
  (careful_fetch (.inr ⟨key, rfl⟩) isSilentBody_none).thenOfExcept _

theorem careful_resolved (a : Account) (person : String) (start stop : Instant) :
    Careful a.IsAddress (a.resolved person start stop) :=
  Careful.bind (.ofExcept _) fun _ => (careful_resultsFrom _ _ _).thenDone _

end Jira

namespace Linear

/-- The address at which everything is asked for. -/
def IsAddress (address : String) : Prop := address = Linear.address

theorem careful_dataOf (body : String) : Careful IsAddress (dataOf body) := by
  unfold dataOf
  split
  · exact .fail _
  · split
    · exact .fail _
    · exact .done _
    · exact .fail _

theorem careful_ask {α : Type} (a : Account) (query : String) (bindings : List (String × Data))
    (decode : Decode α) : Careful IsAddress (a.ask query bindings decode) := by
  have haddress : IsAddress address := rfl
  exact (careful_exchange haddress (isSilentBody_record (by decide))).bind fun body =>
    (careful_dataOf body).thenOfOption _ _

theorem careful_collect {α : Type} {page : Option String → Client (Connection α)}
    (hpage : ∀ after, Careful IsAddress (page after)) (patience : Nat) (after : Option String) :
    Careful IsAddress (collect patience page after) := by
  induction patience generalizing after with
  | zero => exact .fail _
  | succ patience ih =>
      refine (hpage after).bind fun found => ?_
      split
      · split
        · exact .done _
        · exact (ih _).thenDone _
      · exact .done _

theorem careful_issue? (a : Account) (key : String) : Careful IsAddress (a.issue? key) := by
  refine (careful_ask a _ _ _).bind fun found => ?_
  cases found with
  | none => exact .done _
  | some record => exact .ofExcept _

theorem careful_issues (a : Account) (keys : List String) : Careful IsAddress (a.issues keys) := by
  refine Careful.thenDone (Careful.all fun client hclient => ?_) _
  obtain ⟨key, -, rfl⟩ := List.mem_map.1 hclient
  exact careful_issue? a key

theorem careful_children (a : Account) (key : String) : Careful IsAddress (a.children key) :=
  (careful_collect (fun _ => (careful_ask a _ _ _).thenDone _) _ _).thenOfExcept _

theorem careful_comments (a : Account) (key : String) (limit : Nat) :
    Careful IsAddress (a.comments key limit) :=
  (careful_ask a _ _ _).thenDone _

theorem careful_resolved (a : Account) (person : String) (start stop : Instant) :
    Careful IsAddress (a.resolved person start stop) :=
  (careful_collect (fun _ => careful_ask a _ _ _) _ _).thenOfExcept _

end Linear

namespace Tracker

/-- The addresses at which a tracker is asked. -/
def IsAddress : Tracker → String → Prop
  | .jira a => a.IsAddress
  | .linear _ => Linear.IsAddress

variable (tracker : Tracker)

theorem careful_issues (keys : List String) : Careful tracker.IsAddress (tracker.issues keys) := by
  cases tracker with
  | jira a => exact Jira.careful_issues a keys
  | linear a => exact Linear.careful_issues a keys

theorem careful_children (key : String) : Careful tracker.IsAddress (tracker.children key) := by
  cases tracker with
  | jira a => exact Jira.careful_children a key
  | linear a => exact Linear.careful_children a key

theorem careful_comments (key : String) (limit : Nat) :
    Careful tracker.IsAddress (tracker.comments key limit) := by
  cases tracker with
  | jira a => exact Jira.careful_comments a key limit
  | linear a => exact Linear.careful_comments a key limit

theorem careful_resolved (person : String) (start stop : Instant) :
    Careful tracker.IsAddress (tracker.resolved person start stop) := by
  cases tracker with
  | jira a => exact Jira.careful_resolved a person start stop
  | linear a => exact Linear.careful_resolved a person start stop

theorem careful_resolvedCount (person : String) (start stop : Instant) :
    Careful tracker.IsAddress (tracker.resolvedCount person start stop) :=
  (tracker.careful_resolved person start stop).thenDone _

end Tracker

/-! ## The channel -/

/-- To publish a text, nothing is sent but a message with that text. -/
theorem publish_asksOnly (webhook text : String) :
    (Slack.publish webhook text).AsksOnly fun request => Posts request text := by
  have hsent : (Client.exchange Slack.serviceName
      (Http.request .post webhook [] [] (some (message text)))).AsksOnly
        fun request => Posts request text := by
    unfold Client.exchange Client.send
    cases hrequest : Http.request .post webhook [] [] (some (message text)) with
    | error fault => trivial
    | ok request =>
        refine ⟨body_of_request hrequest, fun response => ?_⟩
        change (Client.checked _ response).AsksOnly _
        unfold Client.checked
        split
        · trivial
        · trivial
  exact hsent.map

end TeamDigest.Service
