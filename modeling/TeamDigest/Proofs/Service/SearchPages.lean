import TeamDigest.Proofs.Http.Requests
import TeamDigest.Proofs.Json.Kept
import TeamDigest.Proofs.Service.Pages
import TeamDigest.Service.GitHub

/-!
# Searches page by page

A search numbers its pages, and a page holds a hundred results if there are as many left
(`Serves`).  Whether a page is full is decided by its results, not by the pull requests that
some of them mean; so neither a page without any pull request ends the search, nor does a
list that ends with a full page: then one more page is asked for, which is empty.  After ten
pages the search ends in any case.

The search fails if and only if one of the pages does that it turns to, all those before it
being full (`Full`), whatever the reason is.
-/

namespace TeamDigest.Service.GitHub

open Http Text Time Work

/-! ## Pages as they are asked for and read -/

/-- Reads the results on a page. -/
def pageDecode : Decode (List Record) :=
  .structure (.defaulted "items" (Decode.list Record.decode) [])

namespace Account

/-- The request for the page with a number. -/
def pageRequest (a : Account) (search : String) (number : Nat) :
    Except TransportFault Request :=
  let login := (a.token.map fun t => ("authorization", "Bearer " ++ t)).toList
  Http.request .get "http://api.github.com/search/issues"
    [("q", search), ("per_page", decimal pageSize), ("page", decimal number)]
    ([("user-agent", agent), ("accept", "application/vnd.github+json")] ++ login) none

/-- What is done with the results on a page: the search ends with them or turns to the pages
that are left. -/
def turn (a : Account) (search : String) (numbers : List Nat) (records : List Record) :
    Client (List PullRequest) :=
  if records.length < pageSize then pure (records.filterMap Record.pullRequest?)
  else (records.filterMap Record.pullRequest? ++ ·) <$> a.pages search numbers

theorem page_eq (a : Account) (search : String) (number : Nat) :
    a.page search number = Client.send (a.pageRequest search number) >>= fun response =>
      .ofExcept (readBody serviceName pageDecode response) :=
  fetch_eq _

theorem pages_cons (a : Account) (search : String) (number : Nat) (numbers : List Nat) :
    a.pages search (number :: numbers) = a.page search number >>= a.turn search numbers := by
  rw [pages]
  refine bind_congr fun records => ?_
  simp only [turn, map_eq_pure_bind]

theorem turn_of_short {a : Account} {search : String} {numbers : List Nat} {records : List Record}
    (hshort : records.length < pageSize) :
    a.turn search numbers records = .done (records.filterMap Record.pullRequest?) := by
  rw [turn, if_pos hshort]
  rfl

theorem turn_of_full {a : Account} {search : String} {numbers : List Nat} {records : List Record}
    (hfull : pageSize ≤ records.length) :
    a.turn search numbers records =
      (records.filterMap Record.pullRequest? ++ ·) <$> a.pages search numbers := by
  rw [turn, if_neg (by omega)]

/-- The address of a request tells for which page it is. -/
theorem pageRequest_unique {a : Account} {search : String} {number other : Nat}
    {first second : Request} (hfirst : a.pageRequest search number = .ok first)
    (hsecond : a.pageRequest search other = .ok second) (hsame : first.url = second.url) :
    number = other := by
  have hquery : ∀ page, a.pageRequest search page =
      Http.request .get "http://api.github.com/search/issues"
        ([("q", search), ("per_page", decimal pageSize)] ++ ("page", decimal page) :: [])
        ([("user-agent", agent), ("accept", "application/vnd.github+json")] ++
          (a.token.map fun t => ("authorization", "Bearer " ++ t)).toList) none := fun _ => rfl
  rw [hquery] at hfirst hsecond
  exact request_unique hfirst hsecond hsame

end Account

/-! ## Services that hold results -/

section Search

variable {σ : Type} {world : World web σ} {a : Account} {search : String} {held : List Record}
  {number : Nat} {numbers : List Nat} {s t : σ}

section Steps

variable {sent : Request} {response : Response} {records : List Record}

theorem run_page_of_sent (hsent : a.pageRequest search number = .ok sent)
    (hanswer : world sent s = (.ok response, t)) :
    (a.page search number).run world s = (readBody serviceName pageDecode response, t) := by
  rw [a.page_eq, hsent, run_send hanswer, Plan.run_ofExcept]

theorem run_pages_of_sent (hsent : a.pageRequest search number = .ok sent)
    (hanswer : world sent s = (.ok response, t))
    (hread : readBody serviceName pageDecode response = .ok records) :
    (a.pages search (number :: numbers)).run world s =
      (a.turn search numbers records).run world t := by
  rw [a.pages_cons]
  exact Plan.run_bind_of_ok (by rw [run_page_of_sent hsent hanswer, hread])

theorem requests_pages_of_sent (hsent : a.pageRequest search number = .ok sent)
    (hanswer : world sent s = (.ok response, t))
    (hread : readBody serviceName pageDecode response = .ok records) :
    requests world (a.pages search (number :: numbers)) s =
      sent :: requests world (a.turn search numbers records) t := by
  rw [a.pages_cons, a.page_eq, hsent, bind_assoc, requests_send hanswer, hread]
  rfl

end Steps

/-- In every state the service answers the request for a page with the results of a list
that belong there, a hundred of them or those that are left; as pages count those with
results, the one behind them, and none beyond the tenth. -/
def Serves (world : World web σ) (a : Account) (search : String) (held : List Record) : Prop :=
  Answers world (fun i => a.pageRequest search (i + 1)) pageDecode
    (min 10 (held.length / 100 + 1))
    fun i records => records = (held.drop (100 * i)).take 100

/-- The search from some page on: `m` pages may still be asked for, and the results on the
pages before have been read. -/
theorem run_pages_of_served (hserves : Serves world a search held) {i m : Nat}
    (hlimit : i + m = 10) (hbegin : 100 * i ≤ held.length) (s : σ) :
    ∃ t, (a.pages search (List.range' (i + 1) m)).run world s =
        (.ok (((held.drop (100 * i)).take (100 * m)).filterMap Record.pullRequest?), t) ∧
      (requests world (a.pages search (List.range' (i + 1) m)) s).map .ok =
        (List.range' (i + 1) (min m (held.length / 100 + 1 - i))).map (a.pageRequest search) := by
  induction m generalizing i s with
  | zero => exact ⟨s, by simp [Account.pages], by simp [Account.pages, requests, Plan.asked]; rfl⟩
  | succ m ih =>
      obtain ⟨sent, response, t, records, hsent, hanswer, hstatus, hbody, hrecords⟩ :=
        hserves i (.inl (by omega)) s
      change a.pageRequest search (i + 1) = .ok sent at hsent
      have hread : readBody serviceName pageDecode response = .ok records :=
        readBody_of_decoded hstatus hbody
      have hlength : records.length = min 100 (held.length - 100 * i) := by
        rw [hrecords, List.length_take, List.length_drop]
      have hsplit : (held.drop (100 * i)).take (100 * (m + 1)) =
          records ++ (held.drop (100 * (i + 1))).take (100 * m) := by
        rw [hrecords, Nat.mul_succ, Nat.add_comm, List.take_add, List.drop_drop, Nat.mul_succ]
      rw [List.range'_succ, run_pages_of_sent hsent hanswer hread,
        requests_pages_of_sent hsent hanswer hread, hsplit, List.filterMap_append]
      by_cases hfull : pageSize ≤ records.length
      · have hpage : 100 ≤ records.length := hfull
        obtain ⟨u, hrun, hasked⟩ := ih (show i + 1 + m = 10 by omega) (by omega) t
        have hcount : min (m + 1) (held.length / 100 + 1 - i) =
            min m (held.length / 100 + 1 - (i + 1)) + 1 := by omega
        rw [Account.turn_of_full hfull, hcount, List.range'_succ, List.map_cons, List.map_cons,
          hsent, ← hasked]
        exact ⟨u, Plan.run_map_of_ok hrun, congrArg (fun rest => _ :: List.map Except.ok rest)
          (Plan.asked_map world _ _ t)⟩
      -- Nothing is left behind a page that is not full, so the search loses nothing there.
      · have hshort : records.length < 100 := Nat.lt_of_not_le hfull
        have hnil : held.drop (100 * (i + 1)) = [] := List.drop_eq_nil_of_le (by omega)
        have hcount : min (m + 1) (held.length / 100 + 1 - i) = 1 := by omega
        rw [Account.turn_of_short hshort, hnil, hcount, List.take_nil, List.filterMap_nil,
          List.append_nil]
        refine ⟨t, rfl, ?_⟩
        rw [List.range'_one, List.map_singleton, hsent]
        rfl

/-! ## Searches that fail -/

/-- The pages with some numbers are read one after the other, and each of them is full. -/
inductive Full (world : World web σ) (a : Account) (search : String) : List Nat → σ → σ → Prop
  | nil (s : σ) : Full world a search [] s s
  | cons {number : Nat} {numbers : List Nat} {records : List Record} {s t u : σ}
      (hpage : (a.page search number).run world s = (.ok records, t))
      (hfull : pageSize ≤ records.length) (hrest : Full world a search numbers t u) :
      Full world a search (number :: numbers) s u

theorem run_turn_eq_error_iff {records : List Record} {error : Error} :
    (a.turn search numbers records).run world s = (.error error, t) ↔
      pageSize ≤ records.length ∧ (a.pages search numbers).run world s = (.error error, t) := by
  by_cases hfull : pageSize ≤ records.length
  · simp [Account.turn_of_full hfull, Plan.run_map_eq_error_iff, hfull]
  · simp [Account.turn_of_short (Nat.lt_of_not_le hfull), hfull]

/-- A search fails exactly if a page that it turns to does, all pages before it being full. -/
theorem run_pages_eq_error_iff {error : Error} :
    (a.pages search numbers).run world s = (.error error, t) ↔
      ∃ before number after u, numbers = before ++ number :: after ∧
        Full world a search before s u ∧
        (a.page search number).run world u = (.error error, t) := by
  induction numbers generalizing s with
  | nil => simp [Account.pages]
  | cons first numbers ih =>
      simp only [a.pages_cons, Plan.run_bind_eq_error_iff, run_turn_eq_error_iff, ih]
      constructor
      · rintro (hfails | ⟨records, u, hpage, hfull, before, number, after, v, rfl, hbefore, hfails⟩)
        · exact ⟨[], first, numbers, s, rfl, .nil s, hfails⟩
        · exact ⟨first :: before, number, after, v, rfl, .cons hpage hfull hbefore, hfails⟩
      · rintro ⟨before, number, after, u, hsplit, hbefore, hfails⟩
        cases hbefore with
        | nil =>
            obtain ⟨rfl, rfl⟩ := List.cons.inj hsplit
            exact .inl hfails
        | cons hpage hfull hrest =>
            obtain ⟨rfl, hnumbers⟩ := List.cons.inj hsplit
            exact .inr ⟨_, _, hpage, hfull, _, _, _, _, hnumbers, hrest, hfails⟩

/-- Of the results that a service holds for a search, the first thousand are looked at, each
once and in order, and the pull requests are found that they mean; for this, the pages are
asked for from the first one on, up to the first one that is not full, but not more than ten.
And the search fails exactly if one of the pages does that it turns to. -/
theorem first_thousand_or_failed (world : World web σ) (a : Account) (search : String) (s : σ) :
    (∀ held, Serves world a search held → ∃ t,
      (a.results search).run world s =
        (.ok ((held.take 1000).filterMap Record.pullRequest?), t) ∧
      (requests world (a.results search) s).map .ok =
        (List.range' 1 (min 10 (held.length / 100 + 1))).map (a.pageRequest search)) ∧
    ∀ error t, (a.results search).run world s = (.error error, t) ↔
      ∃ before number after u, pageNumbers = before ++ number :: after ∧
        Full world a search before s u ∧
        (a.page search number).run world u = (.error error, t) := by
  have hresults : a.results search = a.pages search (List.range' (0 + 1) 10) := rfl
  refine ⟨fun held hserves => ?_, fun error t => run_pages_eq_error_iff⟩
  rw [hresults]
  exact run_pages_of_served hserves rfl (Nat.zero_le _) s

end Search

/-! ### A search with two pages -/

/-- An anonymous account. -/
def visitor : Account := ⟨none⟩

/-- The result with an address, as the service writes it. -/
def resultData (url : String) : Data :=
  .record
    [("title", .text "Retry"), ("html_url", .text url),
     ("created_at", .text "2024-06-10T09:00:00Z")]

/-- The result with an address. -/
def result (url : String) : Record where
  title := "Retry"
  url := url
  createdAt := ⟨1718010000, 0⟩
  author := none
  merged := none

/-- The page with some results. -/
def resultPage (urls : List String) : Data := .record [("items", .list (urls.map resultData))]

theorem decode_resultData (url : String) : Record.decode (resultData url) = some (result url) := by
  rfl

theorem decode_items (urls : List String) :
    (urls.map resultData).mapM Record.decode = some (urls.map result) := by
  induction urls with
  | nil => rfl
  | cons url urls ih =>
      rw [List.map_cons, List.mapM_cons, decode_resultData, ih]
      rfl

/-- A page is read as the service has written it. -/
theorem decode_resultPage (urls : List String) :
    (Json.read? (pageResponse (resultPage urls)).body.toList).bind pageDecode =
      some (urls.map result) := by
  have hwhole : (resultPage urls).Whole := by
    refine .record <| .cons (.list fun d hd => ?_) .nil
    obtain ⟨url, -, rfl⟩ := List.mem_map.1 hd
    exact .record <| .cons (.text _) <| .cons (.text _) <| .cons (.text _) .nil
  rw [pageResponse, Json.read?_write hwhole]
  change (((urls.map resultData).mapM Record.decode).bind fun records =>
    some (records, FieldSource.named _)).map Prod.fst = _
  rw [decode_items]
  rfl

/-- The address of a pull request. -/
def pullAddress : String := "https://github.com/acme/api/pull/7"

/-- The address of an issue. -/
def issueAddress : String := "https://github.com/acme/api/issues/8"

/-- The pull request at the address of one. -/
def retryPull : PullRequest where
  repository := "acme/api"
  number := 7
  title := "Retry"
  url := pullAddress
  author := none
  createdAt := ⟨1718010000, 0⟩
  mergedAt := none

theorem pullRequest?_result : (result pullAddress).pullRequest? = some retryPull ∧
    (result issueAddress).pullRequest? = none := by
  decide +kernel

/-- Where a hundred results are no pull requests, and one more is. -/
def addresses : List String := List.replicate 100 issueAddress ++ [pullAddress]

theorem filterMap_addresses :
    ((addresses.map result).take 1000).filterMap Record.pullRequest? = [retryPull] := by
  have hlength : (addresses.map result).length ≤ 1000 := by simp [addresses]
  rw [List.take_of_length_le hlength]
  simp [addresses, pullRequest?_result]

theorem exists_pageRequest_visitor (number : Nat) :
    ∃ sent, visitor.pageRequest "is:pr" number = .ok sent :=
  exists_request (by decide +kernel) (by decide +kernel)

/-- The answers of a service that holds results at these addresses, and `last` is what it
answers for the second page. -/
def resultPages (last : Response) : World web Unit :=
  twoPages (fun i => visitor.pageRequest "is:pr" (i + 1))
    (pageResponse (resultPage (addresses.take 100))) last

/-- A full page without any pull request does not keep the search from the second page; if
that one fails, the search does. -/
theorem first_thousand_of_hundred_and_one :
    (∃ t, (visitor.results "is:pr").run
          (resultPages (pageResponse (resultPage (addresses.drop 100)))) () = (.ok [retryPull], t) ∧
        (requests (resultPages (pageResponse (resultPage (addresses.drop 100))))
          (visitor.results "is:pr") ()).map .ok = [1, 2].map (visitor.pageRequest "is:pr")) ∧
      (visitor.results "is:pr").run (resultPages ⟨503, "busy"⟩) () =
        (.error (.service serviceName (.refused 503 "busy")), ()) := by
  obtain ⟨first, hfirst⟩ := exists_pageRequest_visitor 1
  obtain ⟨second, hsecond⟩ := exists_pageRequest_visitor 2
  have hother : first.url ≠ second.url := fun hsame =>
    absurd (Account.pageRequest_unique hfirst hsecond hsame) (by decide)
  have hone : ∀ last, resultPages last first () =
      (.ok (pageResponse (resultPage (addresses.take 100))), ()) :=
    fun _ => twoPages_beginning hfirst
  have htwo : ∀ last, resultPages last second () = (.ok last, ()) :=
    fun _ => twoPages_elsewhere hfirst hother
  constructor
  · have hserves : Serves (resultPages (pageResponse (resultPage (addresses.drop 100)))) visitor
        "is:pr" (addresses.map result) := by
      intro i hi s
      have hlength : (addresses.map result).length = 101 := by simp [addresses]
      obtain rfl | rfl : i = 0 ∨ i = 1 := by omega
      · exact ⟨first, _, (), _, hfirst, hone _, rfl, decode_resultPage _, List.map_take⟩
      · exact ⟨second, _, (), _, hsecond, htwo _, rfl, decode_resultPage _, rfl⟩
    obtain ⟨t, hrun, hasked⟩ := (first_thousand_or_failed _ visitor "is:pr" ()).1 _ hserves
    rw [filterMap_addresses] at hrun
    exact ⟨t, hrun, hasked⟩
  · have hfull : pageSize ≤ ((addresses.take 100).map result).length := by
      simp [addresses, pageSize]
    refine ((first_thousand_or_failed _ visitor "is:pr" ()).2 _ _).2
      ⟨[1], 2, [3, 4, 5, 6, 7, 8, 9, 10], (), rfl, .cons ?_ hfull (.nil ()), ?_⟩
    · rw [run_page_of_sent hfirst (hone _), readBody_of_decoded rfl (decode_resultPage _)]
    · rw [run_page_of_sent hsecond (htwo _), (BodyFault.refused rfl).readBody]

end TeamDigest.Service.GitHub
