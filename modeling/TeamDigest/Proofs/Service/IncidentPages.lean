import TeamDigest.Proofs.Http.Requests
import TeamDigest.Proofs.Json.Kept
import TeamDigest.Proofs.Service.Pages
import TeamDigest.Service.PagerDuty

/-!
# Incidents page by page

A service that holds incidents may cut them into pages as it likes, as long as each page
begins where it was asked for and tells whether there are more (`Serves`).  Its client
drops the incidents that began outside of a window from each page.  That does not move the
positions: the next page is asked for behind all incidents of the last one, those that were
dropped included.  So the client ends with exactly the incidents of the window, and it fails
if one of its pages does.
-/

namespace TeamDigest.Service.PagerDuty

open Http Text Time Work

deriving instance DecidableEq for Page

/-! ## Pages as they are asked for and read -/

namespace Account

/-- The request for the page of the incidents of a service that begins at a position. -/
def pageRequest (a : Account) (service : String) (start stop : Instant) (position : Nat) :
    Except TransportFault Request :=
  Http.request .get "http://api.pagerduty.com/incidents"
    [("service_ids[]", service), ("since", start.toOffsetText), ("until", stop.toOffsetText),
     ("limit", decimal pageSize), ("offset", decimal position)]
    [("authorization", "Token token=" ++ a.token),
     ("accept", "application/vnd.pagerduty+json;version=2")] none

/-- What a page means: its incidents in the window, and the position behind all of its
incidents, unless there are no more or the page holds none. -/
def leaf (start stop : Instant) (position : Nat) (page : Page) : Except Error (Leaf Incident) :=
  let found := between start stop page.incidents
  let next := position + page.incidents.length
  if page.more = false ∨ page.incidents.length = 0 then .ok ⟨found, none⟩
  else if Number.wordSize64 ≤ next then .error .abandoned
  else .ok ⟨found, some next⟩

/-- The address of a request tells for which position it is. -/
theorem pageRequest_unique {a : Account} {service : String} {start stop : Instant}
    {position other : Nat} {first second : Request}
    (hfirst : a.pageRequest service start stop position = .ok first)
    (hsecond : a.pageRequest service start stop other = .ok second)
    (hsame : first.url = second.url) : position = other := by
  have hquery : ∀ offset, a.pageRequest service start stop offset =
      Http.request .get "http://api.pagerduty.com/incidents"
        ([("service_ids[]", service), ("since", start.toOffsetText),
          ("until", stop.toOffsetText), ("limit", decimal pageSize)] ++
          ("offset", decimal offset) :: [])
        [("authorization", "Token token=" ++ a.token),
         ("accept", "application/vnd.pagerduty+json;version=2")] none := fun _ => rfl
  rw [hquery] at hfirst hsecond
  exact request_unique hfirst hsecond hsame

theorem pageByPage (a : Account) (service : String) (start stop : Instant) :
    PageByPage (a.pageRequest service start stop)
      (readLeaf serviceName Page.decode (leaf start stop))
      (a.incidentsFrom service start stop) := by
  intro position
  rw [incidentsFrom, page, fetch_eq, bind_assoc]
  refine bind_congr fun response => ?_
  unfold readLeaf
  cases readBody serviceName Page.decode response with
  | error error => rfl
  | ok page =>
      change _ = follow (a.incidentsFrom service start stop) (leaf start stop position page)
      unfold leaf
      simp only [Plan.ofExcept, Plan.bind_done, Plan.pure_eq]
      split
      · rfl
      · split
        · rfl
        · exact (map_eq_pure_bind _ _).symm

end Account

/-! ## Services that hold incidents -/

/-- In every state the service answers the request for a page of its incidents with a run
of them, and tells whether there are more behind it. -/
def Serves {σ : Type} (world : World web σ) (a : Account) (service : String)
    (start stop : Instant) (held : List Incident) : Prop :=
  Answers world (a.pageRequest service start stop) Page.decode held.length fun position page =>
    IsRun held position pageSize page.incidents ∧
      (page.more = true ↔ position + page.incidents.length < held.length)

section Windows

variable {σ : Type} {world : World web σ} {a : Account} {service : String}
  {start stop : Instant} {held : List Incident}

/-- On a page with a run of the incidents, the client finds those of the window and goes on
behind the whole run if there are more. -/
theorem leaf_of_run {position : Nat} {page : Page} (hcount : held.length ≤ Number.wordSize64)
    (hrun : IsRun held position pageSize page.incidents)
    (hmore : page.more = true ↔ position + page.incidents.length < held.length) :
    Account.leaf start stop position page = .ok
      { found := ((held.drop position).take page.incidents.length).filterMap
          (Option.guard fun i => start ≤ i.createdAt ∧ i.createdAt < stop)
        next? := if position + page.incidents.length < held.length
          then some (position + page.incidents.length) else none } := by
  have hfound : between start stop page.incidents =
      ((held.drop position).take page.incidents.length).filterMap
        (Option.guard fun i => start ≤ i.createdAt ∧ i.createdAt < stop) := by
    rw [← hrun.eq_take, List.filterMap_eq_filter, between]
    simp only [Bool.decide_and]
  unfold Account.leaf
  rw [← hfound]
  dsimp only
  by_cases hnext : position + page.incidents.length < held.length
  · have hpos : 0 < page.incidents.length := hrun.length_pos (by omega)
    have hgoes : ¬ (page.more = false ∨ page.incidents.length = 0) := by
      rw [hmore.2 hnext]
      simp only [Bool.true_eq_false, false_or]
      omega
    rw [if_neg hgoes, if_neg (by omega), if_pos hnext]
  · have hends : page.more = false := by
      rw [← Bool.not_eq_true, hmore]
      exact hnext
    rw [if_pos (.inl hends), if_neg hnext]

/-- The incidents of a window that a service holds are found, all of them, once and in
order, however the service cuts its incidents into pages and wherever those of the window
lie; the positions that are asked for ascend and lie on incidents.  And the call fails if
one of its pages is refused or cannot be read, and if a request is left without a response. -/
theorem incidents_whole_or_failed (world : World web σ) (a : Account) (service : String)
    (start stop : Instant) (s : σ) :
    (∀ held, held.length ≤ Number.wordSize64 → Serves world a service start stop held →
      ∃ positions t, (a.incidents service start stop).run world s =
          (.ok (held.filter fun i => start ≤ i.createdAt ∧ i.createdAt < stop), t) ∧
        (requests world (a.incidents service start stop) s).map .ok =
          positions.map (a.pageRequest service start stop) ∧
        Ascends 0 held.length positions) ∧
    (∀ reply ∈ (a.incidents service start stop).replies world s, ∀ error,
      BodyFault serviceName Page.decode reply.answer error →
      ((a.incidents service start stop).run world s).1 = .error error) ∧
    ((a.incidents service start stop).Falters world s →
      ∃ error t, (a.incidents service start stop).run world s = (.error error, t)) := by
  refine ⟨?_, ?_, ?_⟩
  · intro held hcount hserves
    obtain ⟨positions, t, hrun, hasked, hascends⟩ :=
      run_of_answers (a.pageByPage service start stop) hserves (fun position page hpage =>
        ⟨page.incidents.length, hpage.1.length_pos, leaf_of_run hcount hpage.1 hpage.2⟩)
        (.inr rfl) s
    rw [List.drop_zero, List.filterMap_eq_filter] at hrun
    exact ⟨positions, t, hrun, hasked, hascends⟩
  · intro reply hreply error hfault
    exact run_of_unreadable (a.pageByPage service start stop) hfault.readLeaf hreply
  · exact Plan.Falters.run_eq_error

end Windows

/-! ### A service with an incident before the window -/

/-- An account at the service. -/
def onCall : Account := ⟨"token"⟩

/-- The incident with a number, as the service writes it. -/
def alarmData (number : Nat) (created : String) : Data :=
  .record
    [("id", .text "PT4KHLK"), ("incident_number", .ofNat number), ("title", .text "Fire"),
     ("html_url", .text "https://acme.pagerduty.com/incidents/PT4KHLK"),
     ("status", .text "resolved"), ("created_at", .text created)]

/-- The incident with a number. -/
def alarm (number : Nat) (createdAt : Instant) : Incident where
  id := "PT4KHLK"
  number := number
  title := "Fire"
  url := "https://acme.pagerduty.com/incidents/PT4KHLK"
  service := none
  status := "resolved"
  urgency := none
  createdAt := createdAt

/-- A page with one incident. -/
def alarmPage (number : Nat) (created : String) (more : Bool) : Data :=
  .record [("incidents", .list [alarmData number created]), ("more", .bool more)]

/-- A page is read as the service has written it. -/
theorem read_alarmPage {number : Nat} (hnumber : number < Number.wordSize32) (created : String)
    (more : Bool) : Json.read? (pageResponse (alarmPage number created more)).body.toList =
      some (alarmPage number created more) := by
  have halarm : (alarmData number created).Whole :=
    .record <| .cons (.text _) <| .cons (.ofNat hnumber) <| .cons (.text _) <|
      .cons (.text _) <| .cons (.text _) <| .cons (.text _) .nil
  apply Json.read?_write
  exact .record <| .cons (.list (List.forall_mem_singleton.2 halarm)) <| .cons (.bool _) .nil

theorem decode_early :
    (Json.read? (pageResponse (alarmPage 1 "2024-06-01T09:00:00Z" true)).body.toList).bind
      Page.decode = some ⟨[alarm 1 ⟨1717232400, 0⟩], true⟩ := by
  rw [read_alarmPage (by decide)]
  decide +kernel

theorem decode_late :
    (Json.read? (pageResponse (alarmPage 2 "2024-06-10T09:00:00Z" false)).body.toList).bind
      Page.decode = some ⟨[alarm 2 ⟨1718010000, 0⟩], false⟩ := by
  rw [read_alarmPage (by decide)]
  decide +kernel

/-- The week before noon of 14 June 2024. -/
def weekStart : Instant := ⟨1717761600, 0⟩

@[inherit_doc weekStart]
def weekStop : Instant := ⟨1718366400, 0⟩

theorem exists_pageRequest_onCall (position : Nat) :
    ∃ sent, onCall.pageRequest "PIJ90N7" weekStart weekStop position = .ok sent :=
  exists_request (by decide +kernel) (by decide +kernel)

/-- The answers of a service with two incidents, each on a page of its own. -/
def alarmPages : World web Unit :=
  twoPages (onCall.pageRequest "PIJ90N7" weekStart weekStop)
    (pageResponse (alarmPage 1 "2024-06-01T09:00:00Z" true))
    (pageResponse (alarmPage 2 "2024-06-10T09:00:00Z" false))

/-- The answers of the same service when it is busy. -/
def busyPages : World web Unit := fun _ s => (.ok ⟨503, "busy"⟩, s)

/-- A first page without an incident of the window does not keep the client from the
second one; a busy service and one that cannot be reached make the call fail. -/
theorem incidents_of_alarmPages :
    (∃ positions t, (onCall.incidents "PIJ90N7" weekStart weekStop).run alarmPages () =
          (.ok [alarm 2 ⟨1718010000, 0⟩], t) ∧
        (requests alarmPages (onCall.incidents "PIJ90N7" weekStart weekStop) ()).map .ok =
          positions.map (onCall.pageRequest "PIJ90N7" weekStart weekStop) ∧
        Ascends 0 2 positions) ∧
      ((onCall.incidents "PIJ90N7" weekStart weekStop).run busyPages ()).1 =
        .error (.service serviceName (.refused 503 "busy")) ∧
      ∃ error t, (onCall.incidents "PIJ90N7" weekStart weekStop).run unreachable () =
        (.error error, t) := by
  obtain ⟨first, hfirst⟩ := exists_pageRequest_onCall 0
  obtain ⟨second, hsecond⟩ := exists_pageRequest_onCall 1
  have hother : first.url ≠ second.url := fun hsame =>
    absurd (Account.pageRequest_unique hfirst hsecond hsame) (by decide)
  refine ⟨?_, ?_, ?_⟩
  · refine (incidents_whole_or_failed _ onCall _ weekStart weekStop ()).1
      [alarm 1 ⟨1717232400, 0⟩, alarm 2 ⟨1718010000, 0⟩] (by decide) ?_
    intro position hposition s
    obtain rfl | rfl : position = 0 ∨ position = 1 := by
      simp only [List.length_cons, List.length_nil] at hposition
      omega
    · exact ⟨first, _, (), _, hfirst, twoPages_beginning hfirst, rfl, decode_early,
        ⟨⟨[alarm 2 ⟨1718010000, 0⟩], rfl⟩, by decide, by simp⟩, by decide⟩
    · exact ⟨second, _, (), _, hsecond, twoPages_elsewhere hfirst hother, rfl, decode_late,
        ⟨⟨[], rfl⟩, by decide, by simp⟩, by decide⟩
  · refine (incidents_whole_or_failed _ onCall _ weekStart weekStop ()).2.1
      ⟨first, ⟨503, "busy"⟩⟩ ?_ _ (.refused rfl)
    exact replies_of_sent (onCall.pageByPage _ _ _) hfirst rfl
  · refine (incidents_whole_or_failed _ onCall _ weekStart weekStop ()).2.2 ?_
    rw [Account.incidents, onCall.pageByPage, hfirst]
    trivial

end TeamDigest.Service.PagerDuty
