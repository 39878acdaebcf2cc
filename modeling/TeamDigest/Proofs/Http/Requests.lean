import TeamDigest.Http.Exchange

/-!
# Requests that can be built

A request can be built if its address can be read and its headers are texts of headers
(`exists_request`); a user name and a password always make one (`isHeaderText_basicLogin`).
It goes to that address (`leadsTo_of_request`).
Two requests that differ in a number of their queries are different (`request_unique`), so
a service can tell them apart.
-/

namespace TeamDigest.Http

open Text

section Headers

theorem mem_base64Chars {c : Char} :
    ∀ {bytes : List UInt8}, c ∈ base64Chars bytes → c ∈ base64Alphabet ∨ c = '=' := by
  have hchar : ∀ n, base64Char n ∈ base64Alphabet ∨ base64Char n = '=' := by
    intro n
    rw [base64Char, List.getD_eq_getElem?_getD]
    cases hget : base64Alphabet[n % 64]? with
    | none => exact .inr rfl
    | some d => exact .inl (List.mem_of_getElem? hget)
  intro bytes
  fun_induction base64Chars bytes with
  | case1 a b d rest n ih =>
      intro hc
      simp only [List.mem_cons] at hc
      rcases hc with rfl | rfl | rfl | rfl | hrest
      · exact hchar _
      · exact hchar _
      · exact hchar _
      · exact hchar _
      · exact ih hrest
  | case2 a b n =>
      intro hc
      simp only [List.mem_cons, List.not_mem_nil, or_false] at hc
      rcases hc with rfl | rfl | rfl | rfl
      · exact hchar _
      · exact hchar _
      · exact hchar _
      · exact .inr rfl
  | case3 a n =>
      intro hc
      simp only [List.mem_cons, List.not_mem_nil, or_false] at hc
      rcases hc with rfl | rfl | rfl | rfl
      · exact hchar _
      · exact hchar _
      · exact .inr rfl
      · exact .inr rfl
  | case4 => simp

/-- Whatever the user name and the password are, their header can be sent. -/
theorem isHeaderText_basicLogin (name password : String) :
    isHeaderText (basicLogin name password).2 = true := by
  have hword : ("Basic ".toList.all fun c => 0x20 ≤ c.toNat && c.toNat ≠ 0x7F) = true := by
    decide
  have halphabet : (base64Alphabet.all fun c => 0x20 ≤ c.toNat && c.toNat ≠ 0x7F) = true := by
    decide
  rw [List.all_eq_true] at hword halphabet
  rw [isHeaderText, List.all_eq_true]
  intro c hc
  rw [Bool.or_eq_true]
  right
  rw [basicLogin, String.toList_append, List.mem_append] at hc
  rcases hc with hc | hc
  · exact hword c hc
  · rw [base64, String.toList_ofList] at hc
    rcases mem_base64Chars hc with hc | rfl
    · exact halphabet c hc
    · rfl

end Headers

section Requests

variable {method : Method} {address : String} {query headers : List (String × String)}
  {body : Option Data} {sent : Request}

theorem exists_request (hurl : (Url.read address).isOk = true)
    (hheaders : ∀ header ∈ headers, isHeaderText header.2 = true) :
    ∃ sent, request method address query headers body = .ok sent := by
  have hall : (headers.all fun header => isHeaderText header.2) = true :=
    List.all_eq_true.2 hheaders
  cases hread : Url.read address with
  | error fault => simp [hread, Except.isOk, Except.toBool] at hurl
  | ok url =>
      rw [request, hread]
      exact ⟨_, if_pos hall⟩

/-- What is sent has the pairs of the query in its address, and the body. -/
theorem sent_of_request (hrequest : request method address query headers body = .ok sent) :
    ∃ url, Url.read address = .ok url ∧ sent.body = body ∧
      sent.url = if query.isEmpty then url else url.addPairs query := by
  unfold request at hrequest
  cases hurl : Url.read address with
  | error fault => simp [hurl, bind, Except.bind] at hrequest
  | ok url =>
      simp only [hurl, bind, Except.bind] at hrequest
      split at hrequest
      · obtain rfl := Except.ok.inj hrequest
        exact ⟨url, rfl, rfl, rfl⟩
      · simp [throw, throwThe, MonadExceptOf.throw] at hrequest

/-- Where a request to an address goes.  A login travels in a header, and a fragment is not
sent at all. -/
def Url.target (u : Url) : Url := { u with login := none, fragment := none }

/-- The address leads to one of some addresses, with whatever query. -/
def Url.LeadsTo (u : Url) (addresses : String → Prop) : Prop :=
  ∃ (address : String) (found : Url) (query : List (String × String)),
    addresses address ∧ Url.read address = .ok found ∧
      u.target = (if query.isEmpty then found else found.addPairs query).target

theorem Url.LeadsTo.mono {u : Url} {addresses more : String → Prop} (h : u.LeadsTo addresses)
    (hmore : ∀ address, addresses address → more address) : u.LeadsTo more := by
  obtain ⟨address, found, query, haddress, hread⟩ := h
  exact ⟨address, found, query, hmore address haddress, hread⟩

theorem leadsTo_of_request {addresses : String → Prop} (haddress : addresses address)
    (hrequest : request method address query headers body = .ok sent) :
    sent.url.LeadsTo addresses := by
  obtain ⟨found, hread, -, hurl⟩ := sent_of_request hrequest
  exact ⟨address, found, query, haddress, hread, congrArg Url.target hurl⟩

/-- The host of an address is that of one to which it leads. -/
theorem Url.LeadsTo.exists_host {u : Url} {addresses : String → Prop} (h : u.LeadsTo addresses) :
    ∃ address found, addresses address ∧ Url.read address = .ok found ∧ u.host = found.host := by
  obtain ⟨address, found, query, haddress, hread, htarget⟩ := h
  refine ⟨address, found, haddress, hread, (congrArg Url.host htarget).trans ?_⟩
  split
  · rfl
  · rfl

end Requests

/-! ## Numbers in queries -/

theorem decimal_injective {m n : Nat} (h : decimal m = decimal n) : m = n := by
  rw [← numeralValue_numeral m, ← numeralValue_numeral n, String.ofList_injective h]

theorem formEncode_of_all {cs : List Char} (h : ∀ c ∈ cs, isFormChar c = true) :
    formEncode cs = cs := by
  induction cs with
  | nil => rfl
  | cons c cs ih =>
      obtain ⟨hc, hcs⟩ := List.forall_mem_cons.1 h
      rw [formEncode, List.flatMap_cons, if_pos hc]
      exact congrArg (c :: ·) (ih hcs)

/-- Digits stand for themselves in a query. -/
theorem formEncode_decimal (n : Nat) : formEncode (decimal n).toList = (decimal n).toList := by
  apply formEncode_of_all
  intro c hc
  rw [decimal, String.toList_ofList] at hc
  simp [isFormChar, isAsciiDigit_of_mem_numeral hc]

theorem join_cons_cancel {separator s t : String} {rest : List String}
    (h : join separator (s :: rest) = join separator (t :: rest)) : s = t := by
  cases rest with
  | nil => exact h
  | cons u rest =>
      rw [join, join, String.append_left_inj, String.append_left_inj] at h
      exact h

theorem join_cancel {separator s t : String} {before rest : List String}
    (h : join separator (before ++ s :: rest) = join separator (before ++ t :: rest)) :
    s = t := by
  induction before with
  | nil => exact join_cons_cancel h
  | cons first before ih =>
      have hcons : ∀ u, join separator (first :: (before ++ u :: rest)) =
          first ++ separator ++ join separator (before ++ u :: rest) := by
        intro u
        cases before with
        | nil => rfl
        | cons second before => rfl
      rw [List.cons_append, List.cons_append, hcons, hcons, String.append_right_inj] at h
      exact ih h

/-- A query tells which number stands in it. -/
theorem formText_unique {before after : List (String × String)} {name : String} {m n : Nat}
    (h : Url.formText (before ++ (name, decimal m) :: after) =
      Url.formText (before ++ (name, decimal n) :: after)) : m = n := by
  unfold Url.formText at h
  rw [List.map_append, List.map_append, List.map_cons, List.map_cons] at h
  have hpair := join_cancel h
  rw [String.append_right_inj, formEncode_decimal, formEncode_decimal, String.ofList_toList,
    String.ofList_toList] at hpair
  exact decimal_injective hpair

/-- The address of a request tells which number stands in its query. -/
theorem request_unique {method : Method} {address name : String}
    {before after headers : List (String × String)} {body : Option Data} {first second : Request}
    {m n : Nat}
    (hm : request method address (before ++ (name, decimal m) :: after) headers body = .ok first)
    (hn : request method address (before ++ (name, decimal n) :: after) headers body = .ok second)
    (hsame : first.url = second.url) : m = n := by
  have hsome : ∀ pair, (before ++ pair :: after).isEmpty = false := by
    intro pair
    cases before with
    | nil => rfl
    | cons first before => rfl
  obtain ⟨url, hurl, -, hfirst⟩ := sent_of_request hm
  obtain ⟨other, hother, -, hsecond⟩ := sent_of_request hn
  obtain rfl : url = other := Except.ok.inj (hurl.symm.trans hother)
  rw [hfirst, hsecond, hsome, hsome, if_neg Bool.false_ne_true, if_neg Bool.false_ne_true] at hsame
  have hquery := congrArg Url.query hsame
  rw [Url.addPairs, Url.addPairs, Option.some.injEq, String.append_right_inj] at hquery
  exact formText_unique hquery

end TeamDigest.Http
