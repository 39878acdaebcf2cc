import TeamDigest.Service.GitHub.Record

/-!
# Addresses of pull requests

The repository and the number of a pull request are read from an address: from the first
place at which a text reads as one.  What stands there is determined, as neither the owner
nor the name of a repository holds a slash (`addressAt?_eq_some_iff`), so an address is
read as it was written, whatever follows its number; and where a repository and a number
are read, they do stand in the text one after the other.

## Strategy

Nothing in front of the host in a written address holds the letter with which the host
begins, so the first place is that of the host (`firstAddress?_append`), even if the owner
looks like the host again.  Trimming reaches no farther than the text behind the number.
-/

namespace TeamDigest.Service.GitHub

open Text Work

/-! ## The first place -/

/-- The text begins with the address of a pull request, and the digits of its number go on
for as long as there are any. -/
structure BeginsWith (cs owner name digits rest : List Char) : Prop where
  text : cs = "github.com/".toList ++ (owner ++ '/' :: (name ++ '/' ::
    ("pull/".toList ++ (digits ++ rest))))
  owner_ne : owner ≠ []
  owner_slash : '/' ∉ owner
  name_ne : name ≠ []
  name_slash : '/' ∉ name
  digits_ne : digits ≠ []
  digits_all : ∀ d ∈ digits, isDecimalDigit d = true
  rest_head : ∀ c ∈ rest.head?, isDecimalDigit c = false

theorem pathPart?_eq_some_iff {cs part rest : List Char} :
    pathPart? cs = some (part, rest) ↔ cs = part ++ '/' :: rest ∧ part ≠ [] ∧ '/' ∉ part := by
  unfold pathPart?
  constructor
  · intro h
    split at h
    · next hsplit =>
      obtain ⟨rfl, rfl⟩ := Prod.mk.inj (Option.some.inj h)
      obtain ⟨hcs, hslash⟩ := splitAtFirst_eq_some_iff.1 hsplit
      exact ⟨hcs, by simp, hslash⟩
    · simp at h
  · rintro ⟨hcs, hne, hslash⟩
    obtain ⟨c, part, rfl⟩ := List.exists_cons_of_ne_nil hne
    rw [splitAtFirst_eq_some_iff.2 ⟨hcs, hslash⟩]

theorem addressAt?_eq_some_iff {cs digits : List Char} {repository : String} :
    addressAt? cs = some (repository, digits) ↔
      ∃ owner name rest, BeginsWith cs owner name digits rest ∧
        repository = String.ofList owner ++ "/" ++ String.ofList name := by
  simp only [addressAt?, Option.bind_eq_bind, Option.bind_eq_some_iff, Prod.exists,
    afterStart?_eq_some_iff, pathPart?_eq_some_iff]
  constructor
  · rintro ⟨_, rfl, owner, _, ⟨rfl, howner, hownerSlash⟩, name, _, ⟨rfl, hname, hnameSlash⟩,
      digitsOn, rfl, h⟩
    split at h
    · simp at h
    · next hdigits =>
      obtain ⟨rfl, rfl⟩ := Prod.mk.inj (Option.some.inj h)
      refine ⟨owner, name, digitsOn.dropWhile isDecimalDigit, ?_, rfl⟩
      refine ⟨by rw [List.takeWhile_append_dropWhile], howner, hownerSlash, hname, hnameSlash,
        fun hnil => hdigits (List.isEmpty_iff.2 hnil), List.all_eq_true.1 List.all_takeWhile, ?_⟩
      intro c hc
      have hhead := List.head?_dropWhile_not isDecimalDigit digitsOn
      rw [show (digitsOn.dropWhile isDecimalDigit).head? = some c from hc] at hhead
      simpa using hhead
  · rintro ⟨owner, name, rest, h, rfl⟩
    refine ⟨_, h.text, owner, _, ⟨rfl, h.owner_ne, h.owner_slash⟩, name, _,
      ⟨rfl, h.name_ne, h.name_slash⟩, _, rfl, ?_⟩
    rw [(span_of_all h.digits_all h.rest_head).1]
    simp [h.digits_ne]

/-- The first address begins at the first place at which a text reads as one. -/
theorem firstAddress?_eq_some_iff {cs : List Char} {found : String × List Char} :
    firstAddress? cs = some found ↔
      ∃ before after, cs = before ++ after ∧ addressAt? after = some found ∧
        ∀ b a, cs = b ++ a → b.length < before.length → addressAt? a = none := by
  induction cs with
  | nil =>
      refine iff_of_false (by simp [firstAddress?]) ?_
      rintro ⟨before, after, hcs, hat, -⟩
      rw [(List.nil_eq_append_iff.1 hcs).2] at hat
      simp [addressAt?, afterStart?] at hat
  | cons c cs ih =>
      rw [firstAddress?]
      cases hhere : addressAt? (c :: cs) with
      | some other =>
          constructor
          · intro h
            exact ⟨[], c :: cs, rfl, hhere.trans h, fun b a _ hlt => absurd hlt (by simp)⟩
          · rintro ⟨before, after, hcs, hat, hfirst⟩
            cases before with
            | nil =>
                rw [List.nil_append] at hcs
                rw [← hat, ← hcs, hhere]
            | cons d before =>
                rw [hfirst [] (c :: cs) rfl (by simp)] at hhere
                simp at hhere
      | none =>
          simp only [ih]
          constructor
          · rintro ⟨before, after, rfl, hat, hfirst⟩
            refine ⟨c :: before, after, rfl, hat, fun b a hba hlt => ?_⟩
            cases b with
            | nil =>
                rw [List.nil_append] at hba
                rw [← hba, hhere]
            | cons d b =>
                exact hfirst b a (List.cons.inj hba).2 (by simpa using hlt)
          · rintro ⟨before, after, hcs, hat, hfirst⟩
            cases before with
            | nil =>
                rw [List.nil_append] at hcs
                rw [← hcs, hhere] at hat
                simp at hat
            | cons d before =>
                obtain ⟨rfl, rfl⟩ := List.cons.inj hcs
                refine ⟨before, after, rfl, hat, fun b a hba hlt => ?_⟩
                exact hfirst (c :: b) a (by rw [hba, List.cons_append]) (by simpa using hlt)

/-- No address begins before the first letter of the host. -/
theorem firstAddress?_append {before after : List Char} {found : String × List Char}
    (hbefore : 'g' ∉ before) (hat : addressAt? after = some found) :
    firstAddress? (before ++ after) = some found := by
  refine firstAddress?_eq_some_iff.2 ⟨before, after, rfl, hat, fun b a hba hlt => ?_⟩
  -- a text that begins farther left begins with a letter of `before`
  obtain ⟨c, rest, ha⟩ : ∃ c rest, a = c :: rest ∧ c ∈ before := by
    have hprefix : b <+: before :=
      List.prefix_of_prefix_length_le ⟨a, hba.symm⟩ ⟨after, rfl⟩ (Nat.le_of_lt hlt)
    obtain ⟨tail, rfl⟩ := hprefix
    obtain ⟨c, rest, rfl⟩ : ∃ c rest, tail = c :: rest := by
      refine List.exists_cons_of_ne_nil ?_
      rintro rfl
      simp at hlt
    rw [List.append_assoc, List.append_cancel_left_eq] at hba
    exact ⟨c, rest ++ after, hba.symm, by simp⟩
  refine Option.eq_none_iff_forall_ne_some.2 fun other hother => ?_
  obtain ⟨owner, name, more, hbegins, -⟩ := addressAt?_eq_some_iff.1 hother
  have hc : c = 'g' := by
    have htext := hbegins.text
    rw [ha.1] at htext
    exact (List.cons.inj htext).1
  exact hbefore (hc ▸ ha.2)

/-! ## Addresses as they are written -/

/-- The address of a pull request, with more text behind it. -/
def address (owner name : String) (n : Nat) (more : String) : String :=
  "https://github.com/" ++ owner ++ "/" ++ name ++ "/pull/" ++ decimal n ++ more

theorem isDecimalDigit_of_isAsciiDigit {c : Char} (h : isAsciiDigit c = true) :
    isDecimalDigit c = true := by
  simp only [isAsciiDigit, Bool.and_eq_true, decide_eq_true_eq] at h
  exact isDecimalDigit_of_ascii h.1 h.2

theorem isBlank_of_isAsciiDigit {c : Char} (h : isAsciiDigit c = true) : isBlank c = false := by
  simp only [isAsciiDigit, Bool.and_eq_true, decide_eq_true_eq] at h
  have hleast : 48 ≤ c.toNat := h.1
  have hgreatest : c.toNat ≤ 57 := h.2
  simp only [isBlank, Bool.or_eq_false_iff, Bool.and_eq_false_iff, beq_eq_false_iff_ne,
    decide_eq_false_iff_not]
  omega

theorem toList_address (owner name : String) (n : Nat) (more : String) :
    (address owner name n more).toList = ("https://".toList ++ ("github.com/".toList ++
      (owner.toList ++ '/' :: (name.toList ++ '/' :: ("pull/".toList ++ numeral n))))) ++
        more.toList := by
  unfold address decimal
  simp

theorem isTrimmed_append_numeral {front : List Char} (hne : front ≠ [])
    (hhead : ∀ c ∈ front.head?, isBlank c = false) (n : Nat) : IsTrimmed (front ++ numeral n) := by
  constructor
  · obtain ⟨c, front, rfl⟩ := List.exists_cons_of_ne_nil hne
    exact hhead
  · intro c hc
    rw [List.getLast?_append, List.getLast?_eq_some_getLast (numeral_ne_nil n)] at hc
    obtain rfl := Option.some.inj hc
    exact isBlank_of_isAsciiDigit (isAsciiDigit_of_mem_numeral (List.getLast_mem _))

/-- An address is read as it was written. -/
theorem pullRequestAt?_address {owner name more : String} {n : Nat} (howner : owner ≠ "")
    (hownerSlash : '/' ∉ owner.toList) (hname : name ≠ "") (hnameSlash : '/' ∉ name.toList)
    (hn : n < Number.wordSize64) (hmore : ∀ c ∈ more.toList.head?, isDecimalDigit c = false) :
    pullRequestAt? (address owner name n more) = some (owner ++ "/" ++ name, n) := by
  let front := "github.com/".toList ++ (owner.toList ++ '/' :: (name.toList ++ '/' ::
    "pull/".toList))
  have htext : (address owner name n more).toList =
      ("https://".toList ++ front) ++ numeral n ++ more.toList := by
    rw [toList_address]
    simp [front]
  have htrimmed : IsTrimmed (("https://".toList ++ front) ++ numeral n) :=
    isTrimmed_append_numeral (by simp) (by rintro _ ⟨⟩; decide) n
  have hbegins : BeginsWith (front ++ numeral n ++ trimEnd more.toList) owner.toList name.toList
      (numeral n) (trimEnd more.toList) := by
    refine ⟨by simp [front], by simpa using howner, hownerSlash, by simpa using hname, hnameSlash,
      numeral_ne_nil n, fun d hd => ?_, fun c hc => hmore c (head_trimEnd hc)⟩
    exact isDecimalDigit_of_isAsciiDigit (isAsciiDigit_of_mem_numeral hd)
  have hfirst : firstAddress? (trim (address owner name n more).toList) =
      some (owner ++ "/" ++ name, numeral n) := by
    rw [htext, htrimmed.trim_append (by simp), List.append_assoc, List.append_assoc,
      ← List.append_assoc front]
    exact firstAddress?_append (by simp) (addressAt?_eq_some_iff.2 ⟨_, _, _, hbegins, by simp⟩)
  have hdigits : (numeral n).all isAsciiDigit = true :=
    List.all_eq_true.2 fun _ => isAsciiDigit_of_mem_numeral
  simp only [pullRequestAt?, hfirst, Option.bind_eq_bind, Option.bind_some, hdigits,
    numeralValue_numeral, Bool.true_and]
  exact if_pos (decide_eq_true hn)

/-- What is read as a pull request stands in the text, part by part. -/
theorem exists_parts_of_pullRequestAt? {text repository : String} {n : Nat}
    (h : pullRequestAt? text = some (repository, n)) :
    ∃ before owner name digits after,
      text.toList = before ++ "github.com/".toList ++ owner ++ '/' :: name ++ "/pull/".toList ++
        digits ++ after ∧
      repository.toList = owner ++ '/' :: name ∧ owner ≠ [] ∧ '/' ∉ owner ∧ name ≠ [] ∧
      '/' ∉ name ∧ digits ≠ [] ∧ (∀ d ∈ digits, isAsciiDigit d = true) ∧
      numeralValue digits = n ∧ n < Number.wordSize64 := by
  simp only [pullRequestAt?, Option.bind_eq_bind, Option.bind_eq_some_iff, Prod.exists] at h
  obtain ⟨found, digits, hfirst, h⟩ := h
  split at h
  · next hdigits =>
    obtain ⟨rfl, rfl⟩ := Prod.mk.inj (Option.some.inj h)
    obtain ⟨before, after, htrim, hat, -⟩ := firstAddress?_eq_some_iff.1 hfirst
    obtain ⟨owner, name, rest, hbegins, rfl⟩ := addressAt?_eq_some_iff.1 hat
    obtain ⟨blanks, tail, -, -, htext⟩ := exists_trim text.toList
    simp only [Bool.and_eq_true, decide_eq_true_eq] at hdigits
    refine ⟨blanks ++ before, owner, name, digits, rest ++ tail, ?_, ?_, hbegins.owner_ne,
      hbegins.owner_slash, hbegins.name_ne, hbegins.name_slash, hbegins.digits_ne,
      List.all_eq_true.1 hdigits.1, rfl, hdigits.2⟩
    · rw [htext, htrim, hbegins.text]
      simp
    · simp
  · simp at h

/-- A search result with such an address is that pull request, and is referred to so. -/
theorem exists_pullRequest?_of_url {r : Record} {repository : String} {n : Nat}
    (h : pullRequestAt? r.url = some (repository, n)) :
    ∃ p, r.pullRequest? = some p ∧ p.repository = repository ∧ p.number = n ∧
      p.shortRef = repository ++ "#" ++ decimal n := by
  simp [Record.pullRequest?, h, PullRequest.shortRef]

/-- An address is read as it was written, whatever stands behind its number unless that is
a digit of some script, and its pull request is referred to by repository and number.
Where a repository and a number are read from any text, the text holds the host, the
repository, made up of owner and name, and ASCII digits with that value, in this order. -/
theorem addresses_both_ways :
    (∀ (owner name more : String) (n : Nat), owner ≠ "" → '/' ∉ owner.toList → name ≠ "" →
      '/' ∉ name.toList → n < Number.wordSize64 →
      (∀ c ∈ more.toList.head?, isDecimalDigit c = false) →
      pullRequestAt? (address owner name n more) = some (owner ++ "/" ++ name, n) ∧
      ∀ r : Record, r.url = address owner name n more →
        ∃ p, r.pullRequest? = some p ∧ p.repository = owner ++ "/" ++ name ∧ p.number = n ∧
          p.shortRef = owner ++ "/" ++ name ++ "#" ++ decimal n) ∧
    ∀ (text repository : String) (n : Nat), pullRequestAt? text = some (repository, n) →
      ∃ before owner name digits after,
        text.toList = before ++ "github.com/".toList ++ owner ++ '/' :: name ++ "/pull/".toList ++
          digits ++ after ∧
        repository.toList = owner ++ '/' :: name ∧ owner ≠ [] ∧ '/' ∉ owner ∧ name ≠ [] ∧
        '/' ∉ name ∧ digits ≠ [] ∧ (∀ d ∈ digits, isAsciiDigit d = true) ∧
        numeralValue digits = n ∧ n < Number.wordSize64 := by
  refine ⟨fun owner name more n howner hownerSlash hname hnameSlash hn hmore => ?_,
    fun text repository n h => exists_parts_of_pullRequestAt? h⟩
  have hread := pullRequestAt?_address howner hownerSlash hname hnameSlash hn hmore
  exact ⟨hread, fun r hr => exists_pullRequest?_of_url (hr ▸ hread)⟩

/-- The owner may be called like the host, and the greatest number may be followed by
more of a path. -/
theorem addresses_of_namesake :
    pullRequestAt? (address "github.com" "pull" 18446744073709551615 "/files ") =
        some ("github.com/pull", 18446744073709551615) ∧
      ∃ before owner name digits after,
        (address "github.com" "pull" 18446744073709551615 "/files ").toList =
          before ++ "github.com/".toList ++ owner ++ '/' :: name ++ "/pull/".toList ++ digits ++
            after ∧ numeralValue digits = 18446744073709551615 := by
  obtain ⟨hwritten, hread⟩ := addresses_both_ways
  have hfound := (hwritten "github.com" "pull" "/files " 18446744073709551615 (by decide)
    (by decide) (by decide) (by decide) (by decide) (by simp; decide)).1
  obtain ⟨before, owner, name, digits, after, htext, -, -, -, -, -, -, -, hvalue, -⟩ :=
    hread _ _ _ hfound
  exact ⟨hfound, before, owner, name, digits, after, htext, hvalue⟩

end TeamDigest.Service.GitHub
