import TeamDigest.Http.Exchange
import TeamDigest.Json.Writer
import TeamDigest.Proofs.Plan.Outage
import TeamDigest.Proofs.Plan.Transcript

/-!
# Results in pages

Services cut long lists into pages, however they like (`IsRun`), and a client asks for one
page after the other, by the position at which it begins.  On each page it finds some
results and learns from where to go on, if at all (`Leaf`); `PageByPage` says that a client
works in this way.

Such a client gets all that there is, once and in order, if what it learns from each page
is where the page ends (`run_of_answers`): each request is for a later position than the one
before, and none is for a position behind the last item.  And it fails as soon as it is
given a page that it cannot read (`run_of_unreadable`), whatever it has found until then.
-/

namespace TeamDigest.Service

open Http

/-! ## Responses that are read -/

section Fetch

variable {α : Type} {service : String} {decode : Decode α}

/-- What the body of a response of success decodes to. -/
def readBody (service : String) (decode : Decode α) (response : Response) : Except Error α :=
  if isSuccess response.status then
    match (Json.read? response.body.toList).bind decode with
    | some a => .ok a
    | none => .error (.transport .undecodable)
  else .error (.service service (.refused response.status response.body))

/-- To fetch something is to send a request and to read the response. -/
theorem fetch_eq (request : Except TransportFault Request) :
    Client.fetch service request decode =
      Client.send request >>= fun response => .ofExcept (readBody service decode response) := by
  rw [Client.fetch, Client.exchange, bind_assoc]
  refine bind_congr fun response => ?_
  cases hstatus : isSuccess response.status with
  | true =>
      cases hbody : (Json.read? response.body.toList).bind decode with
      | none => simp [Client.checked, readBody, hstatus, hbody, Plan.ofOption, Plan.ofExcept]
      | some a => simp [Client.checked, readBody, hstatus, hbody, Plan.ofOption, Plan.ofExcept]
  | false => simp [Client.checked, readBody, hstatus, Plan.ofExcept]

theorem readBody_of_decoded {response : Response} {a : α}
    (hstatus : isSuccess response.status = true)
    (hbody : (Json.read? response.body.toList).bind decode = some a) :
    readBody service decode response = .ok a := by
  simp [readBody, hstatus, hbody]

/-- What is wrong with a response of which nothing is read: it is no success, or its body
does not decode. -/
inductive BodyFault (service : String) (decode : Decode α) (response : Response) : Error → Prop
  | refused (hstatus : isSuccess response.status = false) :
      BodyFault service decode response
        (.service service (.refused response.status response.body))
  | undecodable (hstatus : isSuccess response.status = true)
      (hbody : (Json.read? response.body.toList).bind decode = none) :
      BodyFault service decode response (.transport .undecodable)

theorem BodyFault.readBody {response : Response} {error : Error}
    (h : BodyFault service decode response error) :
    readBody service decode response = .error error := by
  cases h with
  | refused hstatus => simp [Service.readBody, hstatus]
  | undecodable hstatus hbody => simp [Service.readBody, hstatus, hbody]

end Fetch

/-! ## Clients that read page by page -/

/-- What a client finds on one page, and the position from which it goes on, if it does. -/
structure Leaf (β : Type) where
  found : List β
  next? : Option Nat

/-- What a client does with what it has read: it fails, it ends with what it has found, or
it goes on from another position. -/
def follow {β : Type} (client : Nat → Client (List β)) : Except Error (Leaf β) → Client (List β)
  | .error error => .fail error
  | .ok ⟨found, none⟩ => .done found
  | .ok ⟨found, some next⟩ => (found ++ ·) <$> client next

/-- What a client reads from a response, if a page means a leaf to it. -/
def readLeaf {β γ : Type} (service : String) (decode : Decode γ)
    (leaf : Nat → γ → Except Error (Leaf β)) (start : Nat) (response : Response) :
    Except Error (Leaf β) :=
  readBody service decode response >>= leaf start

section ReadLeaf

variable {β γ : Type} {service : String} {decode : Decode γ}
  {leaf : Nat → γ → Except Error (Leaf β)} {response : Response}

theorem readLeaf_of_decoded {page : γ} (hstatus : isSuccess response.status = true)
    (hbody : (Json.read? response.body.toList).bind decode = some page) (start : Nat) :
    readLeaf service decode leaf start response = leaf start page := by
  unfold readLeaf
  rw [readBody_of_decoded hstatus hbody]
  rfl

theorem BodyFault.readLeaf {error : Error} (h : BodyFault service decode response error)
    (start : Nat) : readLeaf service decode leaf start response = .error error := by
  unfold Service.readLeaf
  rw [h.readBody]
  rfl

end ReadLeaf

/-- The client asks for the page at its position and follows what it reads there. -/
def PageByPage {β : Type} (request : Nat → Except TransportFault Request)
    (read : Nat → Response → Except Error (Leaf β)) (client : Nat → Client (List β)) : Prop :=
  ∀ start, client start =
    Client.send (request start) >>= fun response => follow client (read start response)

/-- The requests of a run in their order, whether they are answered or not. -/
def requests {α σ : Type} (world : World web σ) (client : Client α) (s : σ) : List Request :=
  client.asked world s

/-! ## Services that cut lists into pages -/

/-- What a page holds is a run of at most `size` items from a position on, and at least one
of them if there are any. -/
structure IsRun {α : Type} (items : List α) (start size : Nat) (run : List α) : Prop where
  begins : run <+: items.drop start
  bounded : run.length ≤ size
  nonempty : start < items.length → run ≠ []

theorem IsRun.eq_take {α : Type} {items run : List α} {start size : Nat}
    (h : IsRun items start size run) : run = (items.drop start).take run.length :=
  List.prefix_iff_eq_take.1 h.begins

theorem IsRun.length_pos {α : Type} {items run : List α} {start size : Nat}
    (h : IsRun items start size run) (hstart : start < items.length) : 0 < run.length :=
  List.length_pos_of_ne_nil (h.nonempty hstart)

/-- In every state the world answers the request for a page at a position, of one of
`count` items or at the very beginning, with a page that fits there. -/
def Answers {γ σ : Type} (world : World web σ) (request : Nat → Except TransportFault Request)
    (decode : Decode γ) (count : Nat) (fits : Nat → γ → Prop) : Prop :=
  ∀ start, start < count ∨ start = 0 → ∀ s, ∃ sent response t page,
    request start = .ok sent ∧ world sent s = (.ok response, t) ∧
      isSuccess response.status = true ∧
      (Json.read? response.body.toList).bind decode = some page ∧ fits start page

/-- The positions that are asked for ascend from `start`, and none of them lies behind the
last of `count` items; only where there are no items, the beginning does. -/
structure Ascends (start count : Nat) (starts : List Nat) : Prop where
  head : starts.head? = some start
  sorted : starts.Pairwise (· < ·)
  inside : ∀ position ∈ starts, position < count ∨ position = 0 ∧ count = 0

theorem Ascends.le {start count : Nat} {starts : List Nat} (h : Ascends start count starts) :
    ∀ position ∈ starts, start ≤ position := by
  cases hstarts : starts with
  | nil => simp
  | cons first rest =>
      obtain rfl : first = start := by simpa [hstarts] using h.head
      have hsorted := hstarts ▸ h.sorted
      intro position hposition
      rcases List.mem_cons.1 hposition with rfl | hrest
      · exact Nat.le_refl _
      · exact Nat.le_of_lt ((List.pairwise_cons.1 hsorted).1 position hrest)

section Pages

variable {β σ : Type} {world : World web σ} {request : Nat → Except TransportFault Request}
  {read : Nat → Response → Except Error (Leaf β)} {client : Nat → Client (List β)} {start : Nat}

section Steps

variable {γ : Type} {f : Response → Client γ} {sent : Request} {response : Response} {s t : σ}

theorem run_send (hanswer : world sent s = (.ok response, t)) :
    (Client.send (.ok sent) >>= f).run world s = (f response).run world t :=
  Plan.run_ask_bind_of_ok hanswer

theorem replies_send (hanswer : world sent s = (.ok response, t)) :
    (Client.send (.ok sent) >>= f).replies world s =
      ⟨sent, response⟩ :: (f response).replies world t :=
  Plan.replies_ask_of_ok hanswer

theorem requests_send (hanswer : world sent s = (.ok response, t)) :
    requests world (Client.send (.ok sent) >>= f) s = sent :: requests world (f response) t :=
  Plan.asked_ask_of_ok hanswer

theorem requests_bind_of_ok {client : Client β} {g : β → Client γ} {b : β}
    (hrun : client.run world s = (.ok b, t)) :
    requests world (client >>= g) s = requests world client s ++ requests world (g b) t :=
  Plan.asked_bind_of_ok hrun

/-- Where there is a reply, the request was built, sent and answered. -/
theorem exists_sent {first : Except TransportFault Request} {reply : Reply web}
    (hreply : reply ∈ (Client.send first >>= f).replies world s) :
    ∃ sent response t, first = .ok sent ∧ world sent s = (.ok response, t) := by
  cases first with
  | error fault => simp [Client.send, Plan.replies] at hreply
  | ok sent =>
      cases hanswer : world sent s with
      | mk outcome t =>
          cases outcome with
          | ok response => exact ⟨sent, response, t, rfl, hanswer⟩
          | error error =>
              have hnone : (Client.send (.ok sent) >>= f).replies world s = [] :=
                Plan.replies_ask_of_error hanswer
              simp [hnone] at hreply

end Steps

/-- Where a page says from where to go on, the replies go on from there. -/
theorem replies_of_leaf (hclient : PageByPage request read client) {sent : Request}
    {response : Response} {found : List β} {next : Nat} {s t : σ} (hsent : request start = .ok sent)
    (hanswer : world sent s = (.ok response, t))
    (hread : read start response = .ok ⟨found, some next⟩) :
    (client start).replies world s = ⟨sent, response⟩ :: (client next).replies world t := by
  rw [hclient start, hsent, replies_send hanswer, hread, follow, Plan.replies_map]

theorem replies_of_sent (hclient : PageByPage request read client) {sent : Request}
    {response : Response} {s t : σ} (hsent : request start = .ok sent)
    (hanswer : world sent s = (.ok response, t)) :
    ⟨sent, response⟩ ∈ (client start).replies world s := by
  rw [hclient start, hsent, replies_send hanswer]
  exact List.mem_cons_self

/-- If a page that fits at a position means a run of the items from there on, as far as they
are picked, and the position of the next item, if there is one, then the client gets all
items from its position on, as far as they are picked. -/
theorem run_of_answers {α γ : Type} {service : String} {decode : Decode γ}
    {leaf : Nat → γ → Except Error (Leaf β)} {fits : Nat → γ → Prop} {pick : α → Option β}
    {items : List α} (hclient : PageByPage request (readLeaf service decode leaf) client)
    (hanswers : Answers world request decode items.length fits)
    (hleaf : ∀ start page, fits start page → ∃ count, (start < items.length → 0 < count) ∧
      leaf start page = .ok
        { found := ((items.drop start).take count).filterMap pick
          next? := if start + count < items.length then some (start + count) else none })
    (hstart : start < items.length ∨ start = 0) (s : σ) :
    ∃ starts t, (client start).run world s = (.ok ((items.drop start).filterMap pick), t) ∧
      (requests world (client start) s).map .ok = starts.map request ∧
      Ascends start items.length starts := by
  induction hleft : items.length - start using Nat.strongRecOn generalizing start s with
  | ind left ih =>
      obtain ⟨sent, response, t, page, hsent, hanswer, hstatus, hbody, hfits⟩ :=
        hanswers start hstart s
      obtain ⟨count, hcount, hmeaning⟩ := hleaf start page hfits
      have hsplit : (items.drop start).filterMap pick =
          ((items.drop start).take count).filterMap pick ++
            (items.drop (start + count)).filterMap pick := by
        rw [← List.filterMap_append, ← List.drop_drop, List.take_append_drop]
      rw [hclient start, hsent, run_send hanswer, requests_send hanswer,
        readLeaf_of_decoded hstatus hbody, hmeaning]
      by_cases hnext : start + count < items.length
      · have hpos : 0 < count := hcount (by omega)
        obtain ⟨starts, u, hrun, hasked, hascends⟩ :=
          ih (items.length - (start + count)) (by omega) (.inl hnext) t rfl
        rw [if_pos hnext]
        refine ⟨start :: starts, u, ?_, ?_, rfl, ?_, ?_⟩
        · rw [hsplit]
          exact Plan.run_map_of_ok hrun
        · rw [List.map_cons, List.map_cons, hsent, ← hasked]
          exact congrArg (fun rest => _ :: List.map Except.ok rest) (Plan.asked_map world _ _ t)
        · exact List.pairwise_cons.2 ⟨fun position hposition =>
            Nat.lt_of_lt_of_le (by omega) (hascends.le position hposition), hascends.sorted⟩
        · exact List.forall_mem_cons.2 ⟨.inl (by omega), hascends.inside⟩
      · have hnil : items.drop (start + count) = [] := List.drop_eq_nil_of_le (by omega)
        rw [if_neg hnext]
        refine ⟨[start], t, ?_, ?_, rfl, List.pairwise_singleton _ _, ?_⟩
        · rw [hsplit, hnil, List.filterMap_nil, List.append_nil]
          rfl
        · rw [List.map_singleton, hsent]
          rfl
        · simp only [List.mem_singleton]
          rintro position rfl
          omega

/-- A client that is given a page which it cannot read fails for the reason that it finds
there. -/
theorem run_of_unreadable (hclient : PageByPage request read client) {reply : Reply web}
    {error : Error} (hbad : ∀ position, read position reply.answer = .error error) {s : σ}
    (hreply : reply ∈ (client start).replies world s) :
    ((client start).run world s).1 = .error error := by
  induction hcount : ((client start).replies world s).length using Nat.strongRecOn
    generalizing start s with
  | ind count ih =>
      rw [hclient start] at hreply hcount ⊢
      obtain ⟨sent, response, t, hsent, hanswer⟩ := exists_sent hreply
      rw [hsent, replies_send hanswer] at hreply hcount
      rw [hsent, run_send hanswer]
      rcases List.mem_cons.1 hreply with rfl | hrest
      · rw [hbad start]
        rfl
      -- The bad page is a later one, so the client goes on after this one.
      · match hread : read start response with
        | .error other => simp [hread, follow, Plan.replies] at hrest
        | .ok ⟨found, none⟩ => simp [hread, follow, Plan.replies] at hrest
        | .ok ⟨found, some next⟩ =>
            rw [hread, follow, Plan.replies_map] at hrest
            rw [hread, follow, Plan.replies_map, List.length_cons] at hcount
            exact Plan.run_map_of_error (ih _ (by omega) hrest rfl)

end Pages

/-! ## Two pages -/

/-- What a service answers with a page. -/
def pageResponse (page : Data) : Response := ⟨200, Json.write page⟩

/-- A world that gives one response to the request for the beginning, and another one to
every other request. -/
def twoPages (request : Nat → Except TransportFault Request) (first second : Response) :
    World web Unit := fun sent s =>
  if (request 0).toOption.map Request.url = some sent.url then (.ok first, s)
  else (.ok second, s)

section TwoPages

variable {request : Nat → Except TransportFault Request} {first second : Response}
  {beginning sent : Request}

theorem twoPages_beginning (hbeginning : request 0 = .ok beginning) :
    twoPages request first second beginning () = (.ok first, ()) := by
  unfold twoPages
  rw [hbeginning]
  exact if_pos rfl

theorem twoPages_elsewhere (hbeginning : request 0 = .ok beginning)
    (hother : beginning.url ≠ sent.url) :
    twoPages request first second sent () = (.ok second, ()) := by
  unfold twoPages
  rw [hbeginning, if_neg]
  exact fun hsame => hother (Option.some.inj hsame)

end TwoPages

end TeamDigest.Service
