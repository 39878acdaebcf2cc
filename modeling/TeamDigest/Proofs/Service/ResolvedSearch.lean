import TeamDigest.Proofs.Service.JiraSearch
import TeamDigest.Proofs.Time.Midnight

/-!
# Issues resolved within a window

A search can name whole days only, and the site begins them at a local midnight that the
client does not know.  So the client asks for the days from one before the window to two
behind it, and drops what lies outside of the window afterwards.

Whatever the offset of the local time is, up to a whole day in either direction, the first
of the days has begun when the window does, and the last one has not begun before the window
ends.  So no issue is missed, and what is found too much is dropped
(`run_resolved_of_searches`).

The site is known by what it answers: if the text of a search is that of some conditions
(`searchText`), its pages hold the issues that satisfy them (`Searches`).  No text is that of
two lists of conditions, as long as quotes and backslashes stay out of them
(`searchText_injective`).
-/

namespace TeamDigest.Service.Jira

open Http Text Time Work

/-! ## Conditions and what they mean -/

/-- A condition of a search. -/
inductive Condition where
  /-- The issue is assigned to the person with an id. -/
  | assignee (id : String)
  /-- The issue was resolved when a day began or later. -/
  | resolvedFrom (day : Date)
  /-- The issue was resolved before a day began. -/
  | resolvedBefore (day : Date)

/-- The literal of a day, `yyyy-MM-dd`. -/
def dayLiteral (d : Date) : String :=
  String.ofList (padded 4 d.year.toNat) ++ "-" ++ twoDigits d.month ++ "-" ++ twoDigits d.day

/-- When an issue was resolved, as its record tells. -/
def Record.resolvedAt? (r : Record) : Option Instant :=
  r.fields.resolved.bind fun text => (timeOf text).toOption

namespace Condition

/-- What stands before the value of the condition. -/
def words : Condition → String
  | assignee _ => "assignee = "
  | resolvedFrom _ => "resolved >= "
  | resolvedBefore _ => "resolved < "

/-- The value, as it stands between quotation marks. -/
def value : Condition → String
  | assignee id => id
  | resolvedFrom day => dayLiteral day
  | resolvedBefore day => dayLiteral day

/-- The condition in the language of searches. -/
def text (c : Condition) : String := c.words ++ "\"" ++ c.value ++ "\""

/-- The value can stand between quotation marks as it is: it holds no quotes and no
backslashes, and a day exists and has a year of four digits. -/
def Writable : Condition → Prop
  | assignee id => '"' ∉ id.toList ∧ '\\' ∉ id.toList
  | resolvedFrom day => day.exists? = true ∧ 0 ≤ day.year ∧ day.year ≤ 9999
  | resolvedBefore day => day.exists? = true ∧ 0 ≤ day.year ∧ day.year ≤ 9999

/-- Whether the condition holds of an issue. -/
def holds (offset : Date → Int) (r : Record) : Condition → Bool
  | assignee id => r.fields.assignee.bind Person.id = some id
  | resolvedFrom day => r.resolvedAt?.any fun t => midnight offset day ≤ t
  | resolvedBefore day => r.resolvedAt?.any fun t => t < midnight offset day

end Condition

/-- A search for what satisfies some conditions. -/
def searchText (conditions : List Condition) : String :=
  join " AND " (conditions.map Condition.text)

/-- If a search is one for what satisfies some conditions, the site serves those of its
issues of which they all hold. -/
def Searches {σ : Type} (world : World web σ) (a : Account) (offset : Date → Int)
    (held : List Record) (search : String) : Prop :=
  ∀ conditions : List Condition, (∀ c ∈ conditions, c.Writable) →
    searchText conditions = search →
    Serves world a search (held.filter fun r => conditions.all (Condition.holds offset r))

/-! ## The text of a search tells its conditions -/

theorem toList_dayLiteral (d : Date) : (dayLiteral d).toList =
    padded 4 d.year.toNat ++ '-' :: (padded 2 d.month ++ '-' :: padded 2 d.day) := by
  simp [dayLiteral, twoDigits]

/-- A literal names one day. -/
theorem dayLiteral_injective {d e : Date} (hd : d.exists? = true ∧ 0 ≤ d.year ∧ d.year ≤ 9999)
    (he : e.exists? = true ∧ 0 ≤ e.year ∧ e.year ≤ 9999) (h : dayLiteral d = dayLiteral e) :
    d = e := by
  have hyear : ∀ {d : Date}, 0 ≤ d.year ∧ d.year ≤ 9999 →
      (padded 4 d.year.toNat).length = 4 := by
    intro d hyear
    exact length_padded ((Nat.length_toDigits_le_iff (by decide) (by decide)).2 (by omega))
  have hmonth : ∀ {d : Date}, d.exists? = true → (padded 2 d.month).length = 2 := by
    intro d hexists
    simp only [Date.exists?, Bool.and_eq_true, decide_eq_true_eq] at hexists
    exact length_padded ((Nat.length_toDigits_le_iff (by decide) (by decide)).2 (by omega))
  have hchars := congrArg String.toList h
  rw [toList_dayLiteral, toList_dayLiteral] at hchars
  obtain ⟨hyears, hrest⟩ := List.append_inj hchars ((hyear hd.2).trans (hyear he.2).symm)
  obtain ⟨hmonths, hdays⟩ := List.append_inj (List.cons.inj hrest).2
    ((hmonth hd.1).trans (hmonth he.1).symm)
  have hyearEq := padded_injective hyears
  have hmonthEq := padded_injective hmonths
  have hdayEq := padded_injective (List.cons.inj hdays).2
  cases d
  cases e
  simp only [Date.mk.injEq] at *
  omega

/-- What comes before the first of some marks is determined. -/
theorem append_mark_cancel {mark : Char} {before other rest further : List Char}
    (hbefore : mark ∉ before) (hother : mark ∉ other)
    (h : before ++ mark :: rest = other ++ mark :: further) : before = other ∧ rest = further := by
  have htake : ∀ {cs tail : List Char}, mark ∉ cs →
      (cs ++ mark :: tail).takeWhile (· ≠ mark) = cs := by
    intro cs tail hcs
    refine (span_of_all (fun c hc => ?_) (fun c hc => ?_)).1
    · exact decide_eq_true (fun hmark => hcs (hmark ▸ hc))
    · simp at hc
      simp [hc]
  have hsame : before = other := by rw [← htake hbefore, h, htake hother]
  rw [hsame, List.append_cancel_left_eq] at h
  exact ⟨hsame, (List.cons.inj h).2⟩

namespace Condition

theorem quote_not_mem_words (c : Condition) : '"' ∉ c.words.toList := by
  cases c with
  | assignee id => simp [words]
  | resolvedFrom day => simp [words]
  | resolvedBefore day => simp [words]

theorem quote_not_mem_dayLiteral (d : Date) : '"' ∉ (dayLiteral d).toList := by
  have hpadded : ∀ width n, '"' ∉ padded width n := fun width n h =>
    absurd (isAsciiDigit_of_mem_padded h) (by decide)
  rw [toList_dayLiteral]
  simp [hpadded]

theorem quote_not_mem_value {c : Condition} (h : c.Writable) : '"' ∉ c.value.toList := by
  cases c with
  | assignee id => exact h.1
  | resolvedFrom day => exact quote_not_mem_dayLiteral day
  | resolvedBefore day => exact quote_not_mem_dayLiteral day

/-- The words and the value of a condition determine it. -/
theorem eq_of_words_of_value {c d : Condition} (hc : c.Writable) (hd : d.Writable)
    (hwords : c.words = d.words) (hvalue : c.value = d.value) : c = d := by
  cases c with
  | assignee id =>
      cases d with
      | assignee other => exact congrArg assignee hvalue
      | resolvedFrom other => simp [words] at hwords
      | resolvedBefore other => simp [words] at hwords
  | resolvedFrom day =>
      cases d with
      | assignee other => simp [words] at hwords
      | resolvedFrom other => exact congrArg resolvedFrom (dayLiteral_injective hc hd hvalue)
      | resolvedBefore other => simp [words] at hwords
  | resolvedBefore day =>
      cases d with
      | assignee other => simp [words] at hwords
      | resolvedFrom other => simp [words] at hwords
      | resolvedBefore other => exact congrArg resolvedBefore (dayLiteral_injective hc hd hvalue)

end Condition

/-- What follows the first condition of a search. -/
def furtherText : List Condition → String
  | [] => ""
  | conditions => " AND " ++ searchText conditions

theorem toList_searchText_cons (c : Condition) (conditions : List Condition) :
    (searchText (c :: conditions)).toList = c.words.toList ++ '"' :: (c.value.toList ++
      '"' :: (furtherText conditions).toList) := by
  cases conditions with
  | nil => simp [searchText, furtherText, Condition.text]
  | cons d conditions => simp [searchText, furtherText, Condition.text, join]

theorem searchText_eq_of_furtherText {conditions others : List Condition}
    (h : furtherText conditions = furtherText others) :
    searchText conditions = searchText others := by
  cases conditions with
  | nil =>
      cases others with
      | nil => rfl
      | cons d others => simpa [furtherText] using congrArg String.toList h
  | cons c conditions =>
      cases others with
      | nil => simpa [furtherText] using congrArg String.toList h
      | cons d others => exact (String.append_right_inj " AND ").1 h

/-- No two lists of conditions are written as the same search. -/
theorem searchText_injective {conditions others : List Condition}
    (hconditions : ∀ c ∈ conditions, c.Writable) (hothers : ∀ c ∈ others, c.Writable)
    (h : searchText conditions = searchText others) : conditions = others := by
  induction conditions generalizing others with
  | nil =>
      cases others with
      | nil => rfl
      | cons d others =>
          have hchars := congrArg String.toList h
          rw [toList_searchText_cons] at hchars
          simp [searchText] at hchars
  | cons c conditions ih =>
      cases others with
      | nil =>
          have hchars := congrArg String.toList h
          rw [toList_searchText_cons] at hchars
          simp [searchText] at hchars
      | cons d others =>
          obtain ⟨hc, hrest⟩ := List.forall_mem_cons.1 hconditions
          obtain ⟨hd, hfurther⟩ := List.forall_mem_cons.1 hothers
          have hchars := congrArg String.toList h
          rw [toList_searchText_cons, toList_searchText_cons] at hchars
          obtain ⟨hwords, hchars⟩ :=
            append_mark_cancel c.quote_not_mem_words d.quote_not_mem_words hchars
          obtain ⟨hvalue, hchars⟩ := append_mark_cancel
            (Condition.quote_not_mem_value hc) (Condition.quote_not_mem_value hd) hchars
          have hsame : c = d := Condition.eq_of_words_of_value hc hd
            (String.toList_injective hwords) (String.toList_injective hvalue)
          have htexts := searchText_eq_of_furtherText (String.toList_injective hchars)
          rw [hsame, ih hrest hfurther htexts]

/-! ## The search for resolved issues -/

section Resolved

variable {user : String} {start stop first last : Instant}

/-- What the client searches for: issues of the user, resolved on one of the days. -/
def resolvedConditions (user : String) (first last : Instant) : List Condition :=
  [.assignee user, .resolvedFrom first.date, .resolvedBefore last.date]

/-- A year of four digits is written as in a literal. -/
theorem dayLiteral_date {t : Instant} (hyear : 0 ≤ t.date.year ∧ t.date.year ≤ 9999) :
    t.dateText = dayLiteral t.date := by
  obtain ⟨hfirst, hlast⟩ := hyear
  have habs : t.date.year.natAbs = t.date.year.toNat := by omega
  rw [Instant.dateText, Date.toText, yearText, if_neg (by omega), if_neg (by omega), habs]
  rfl

theorem resolvedSearch_eq (hfirst : start.addDays? (-1) = some first)
    (hlast : stop.addDays? 2 = some last)
    (hfirstYear : 0 ≤ first.date.year ∧ first.date.year ≤ 9999)
    (hlastYear : 0 ≤ last.date.year ∧ last.date.year ≤ 9999) :
    resolvedSearch user start stop = .ok (searchText (resolvedConditions user first last)) := by
  rw [resolvedSearch, hfirst, hlast]
  dsimp only
  rw [dayLiteral_date hfirstYear, dayLiteral_date hlastYear, Except.ok.injEq]
  apply String.toList_injective
  simp [searchText, resolvedConditions, Condition.text, Condition.words, Condition.value, join]

theorem writable_resolvedConditions (huser : '"' ∉ user.toList ∧ '\\' ∉ user.toList)
    (hfirstYear : 0 ≤ first.date.year ∧ first.date.year ≤ 9999)
    (hlastYear : 0 ≤ last.date.year ∧ last.date.year ≤ 9999) :
    ∀ c ∈ resolvedConditions user first last, c.Writable := by
  intro c hc
  simp only [resolvedConditions, List.mem_cons, List.not_mem_nil, or_false] at hc
  rcases hc with rfl | rfl | rfl
  · exact huser
  · exact ⟨exists?_ofDayNumber _, hfirstYear⟩
  · exact ⟨exists?_ofDayNumber _, hlastYear⟩

theorem bind_eq_ok {α β : Type} {x : Except Error α} {f : α → Except Error β} {b : β}
    (h : (x >>= f) = .ok b) : ∃ a, x = .ok a ∧ f a = .ok b := by
  cases x with
  | error error => simp [bind, Except.bind] at h
  | ok a => exact ⟨a, rfl, h⟩

theorem eq_of_optionally {text? : Option String} {t? : Option Instant}
    (h : optionally timeOf text? = .ok t?) :
    t? = text?.bind fun text => (timeOf text).toOption := by
  cases text? with
  | none =>
      obtain rfl := Except.ok.inj h
      rfl
  | some text =>
      rw [optionally] at h
      cases htime : timeOf text with
      | error error => simp [htime, Except.map] at h
      | ok t =>
          rw [htime] at h
          obtain rfl := Except.ok.inj h
          simp [htime, Except.toOption]

/-- An issue has the assignee and the instant of completion that its record tells. -/
theorem issue_fields {site : String} {record : Record} {issue : Issue}
    (h : record.issue site = .ok issue) :
    issue.assigneeId = record.fields.assignee.bind Person.id ∧
      issue.completedAt = record.resolvedAt? := by
  obtain ⟨createdAt, -, h⟩ := bind_eq_ok h
  obtain ⟨updatedAt, -, h⟩ := bind_eq_ok h
  obtain ⟨completedAt, hcompleted, h⟩ := bind_eq_ok h
  obtain ⟨dueAt, -, h⟩ := bind_eq_ok h
  obtain rfl := Except.ok.inj h
  exact ⟨rfl, eq_of_optionally hcompleted⟩

theorem Means.filter {site : String} {records : List Record} {issues : List Issue}
    {p : Record → Bool} {q : Issue → Bool} (h : Means site records issues)
    (hpq : ∀ record issue, record.issue site = .ok issue → p record = q issue) :
    Means site (records.filter p) (issues.filter q) :=
  List.rel_filter (fun record issue hrecord => Bool.eq_iff_iff.1 (hpq record issue hrecord)) h

/-- What the site finds: the issues of the user that were completed on the days. -/
def onDays (offset : Date → Int) (user : String) (first last : Instant) (i : Issue) : Bool :=
  i.assigneeId = some user && i.completedAt.any (fun t => midnight offset first.date ≤ t) &&
    i.completedAt.any (fun t => t < midnight offset last.date)

theorem holds_resolvedConditions {site : String} {record : Record} {issue : Issue}
    (offset : Date → Int) (user : String) (first last : Instant)
    (h : record.issue site = .ok issue) :
    (resolvedConditions user first last).all (Condition.holds offset record) =
      onDays offset user first last issue := by
  obtain ⟨hassignee, hcompleted⟩ := issue_fields h
  simp [resolvedConditions, Condition.holds, onDays, hassignee, hcompleted, Bool.and_assoc]

/-- The window lies within the days, so nothing in it is lost, and what is kept of the days
lies in it. -/
theorem resolvedBetween_onDays {offset : Date → Int} (issues : List Issue)
    (hbegins : midnight offset first.date ≤ start)
    (hends : ∀ t < stop, t < midnight offset last.date) :
    resolvedBetween start stop (issues.filter (onDays offset user first last)) =
      issues.filter fun i => i.assigneeId = some user ∧
        ∃ completed ∈ i.completedAt, start ≤ completed ∧ completed < stop := by
  rw [resolvedBetween, List.filter_filter]
  refine List.filter_congr fun i _ => ?_
  rw [Bool.eq_iff_iff]
  unfold onDays
  cases i.completedAt with
  | none => simp
  | some completed =>
      simp only [Option.any_some, Bool.and_eq_true, decide_eq_true_eq, Option.mem_def,
        Option.some.injEq, exists_eq_left']
      constructor
      · rintro ⟨hwindow, ⟨huser, -⟩, -⟩
        exact ⟨huser, hwindow⟩
      · rintro ⟨huser, hwindow⟩
        exact ⟨hwindow, ⟨huser, Instant.le_trans hbegins hwindow.1⟩, hends _ hwindow.2⟩

/-- The client gets exactly the issues of the user that were completed within the window, in
the order of the site, whatever its local time is on the two days that the search names.
Only where that is a whole day behind universal time, the window must not begin in a leap
second. -/
theorem run_resolved_of_searches {σ : Type} (world : World web σ) (a : Account)
    (user : String) (start stop first last : Instant) (offset : Date → Int)
    (held : List Record) (issues : List Issue)
    (huser : '"' ∉ user.toList ∧ '\\' ∉ user.toList)
    (hfirst : start.addDays? (-1) = some first) (hlast : stop.addDays? 2 = some last)
    (hfirstYear : 0 ≤ first.date.year ∧ first.date.year ≤ 9999)
    (hlastYear : 0 ≤ last.date.year ∧ last.date.year ≤ 9999)
    (hfirstOffset : -Instant.ofHours 24 ≤ offset first.date ∧
      offset first.date ≤ Instant.ofHours 24)
    (hlastOffset : -Instant.ofHours 24 ≤ offset last.date ∧
      offset last.date ≤ Instant.ofHours 24)
    (hleap : offset first.date = -Instant.ofHours 24 → start.nano < giga)
    (hsite : ∀ search, resolvedSearch user start stop = .ok search →
      Searches world a offset held search)
    (hmeans : Means a.site held issues) (s : σ) :
    ∃ t, (a.resolved user start stop).run world s =
      (.ok (issues.filter fun i => i.assigneeId = some user ∧
        ∃ completed ∈ i.completedAt, start ≤ completed ∧ completed < stop), t) := by
  have hsearch : resolvedSearch user start stop = .ok _ :=
    resolvedSearch_eq hfirst hlast hfirstYear hlastYear
  have hserves := hsite _ hsearch _ (writable_resolvedConditions huser hfirstYear hlastYear) rfl
  have hfound := hmeans.filter fun record issue hrecord =>
    holds_resolvedConditions offset user first last hrecord
  obtain ⟨starts, t, hrun, -, -⟩ := run_of_serves hserves hfound s
  have hbegins := midnight_le_of_addDays? hfirst hfirstOffset.1 hleap
  have hends : ∀ u < stop, u < midnight offset last.date := fun u =>
    lt_midnight_of_addDays? hlast hlastOffset.2
  refine ⟨t, ?_⟩
  rw [Account.resolved, hsearch]
  change (a.results _ >>= fun found => pure (resolvedBetween start stop found)).run world s = _
  rw [Plan.run_bind_of_ok hrun, Plan.pure_eq, Plan.run_done,
    resolvedBetween_onDays issues hbegins hends]

end Resolved

/-! ### A week on the site -/

/-- A bug of the same user, resolved on the first day of the window, but before it. -/
def early : Bug := ⟨"ENG-5", "ada", "2024-06-07T03:00:00.000+0000"⟩

/-- A bug of somebody else. -/
def foreign : Bug := ⟨"ENG-6", "bob", "2024-06-10T09:00:00.000+0000"⟩

/-- The search for what was resolved between the noons of 7 and 14 June 2024. -/
def weekSearch : String :=
  searchText (resolvedConditions "ada" ⟨1717675200, 0⟩ ⟨1718539200, 0⟩)

/-- The answers of the site to that search. -/
def weekPages : World web Unit :=
  twoPages (acme.pageRequest weekSearch) (pageResponse (bugPage 2 [early, login]))
    (pageResponse (bugPage 2 [login]))

theorem serves_weekPages :
    Serves weekPages acme weekSearch [early.record, login.record] := by
  obtain ⟨first, hfirst⟩ := exists_pageRequest_acme weekSearch 0
  obtain ⟨second, hsecond⟩ := exists_pageRequest_acme weekSearch 1
  have hother : first.url ≠ second.url := fun hsame =>
    absurd (Account.pageRequest_unique hfirst hsecond hsame) (by decide)
  have hboth : (Json.read? (pageResponse (bugPage 2 [early, login])).body.toList).bind
      Page.decode = some ⟨2, [early.record, login.record]⟩ := by
    rw [read_bugPage (by decide)]
    rfl
  intro start hstart s
  obtain rfl | rfl : start = 0 ∨ start = 1 := by
    simp only [List.length_cons, List.length_nil] at hstart
    omega
  · exact ⟨first, _, (), ⟨2, [early.record, login.record]⟩, hfirst, twoPages_beginning hfirst,
      rfl, hboth, ⟨⟨[], rfl⟩, by decide, by simp⟩, rfl⟩
  · exact ⟨second, _, (), ⟨2, [login.record]⟩, hsecond, twoPages_elsewhere hfirst hother, rfl,
      decode_bugPage_one login, ⟨⟨[], rfl⟩, by decide, by simp⟩, rfl⟩

/-- On a site in India, of the bugs of two users the one is found that the user resolved
within the window. -/
theorem resolved_in_week : ∃ t,
    (acme.resolved "ada" ⟨1717761600, 0⟩ ⟨1718366400, 0⟩).run weekPages () =
      (.ok [login.issue ⟨1718010000, 0⟩], t) := by
  have huser : '"' ∉ "ada".toList ∧ '\\' ∉ "ada".toList := by decide
  have hfirstYear : 0 ≤ (⟨1717675200, 0⟩ : Instant).date.year ∧
      (⟨1717675200, 0⟩ : Instant).date.year ≤ 9999 := by decide
  have hlastYear : 0 ≤ (⟨1718539200, 0⟩ : Instant).date.year ∧
      (⟨1718539200, 0⟩ : Instant).date.year ≤ 9999 := by decide
  have hfirst : (⟨1717761600, 0⟩ : Instant).addDays? (-1) = some ⟨1717675200, 0⟩ := by decide
  have hlast : (⟨1718366400, 0⟩ : Instant).addDays? 2 = some ⟨1718539200, 0⟩ := by decide
  refine run_resolved_of_searches weekPages acme "ada" ⟨1717761600, 0⟩ ⟨1718366400, 0⟩
    ⟨1717675200, 0⟩ ⟨1718539200, 0⟩ (fun _ => 19800 * giga)
    [early.record, foreign.record, login.record]
    [early.issue ⟨1717729200, 0⟩, foreign.issue ⟨1718010000, 0⟩, login.issue ⟨1718010000, 0⟩]
    huser hfirst hlast hfirstYear hlastYear (by decide) (by decide) (by decide) ?_ ?_ ()
  · intro search hsearch conditions hwritable htext
    have hweek : search = weekSearch := Except.ok.inj
      (hsearch.symm.trans (resolvedSearch_eq hfirst hlast hfirstYear hlastYear))
    have hconditions := searchText_injective hwritable
      (writable_resolvedConditions huser hfirstYear hlastYear) (htext.trans hweek)
    rw [hweek, hconditions]
    have hfound : [early.record, foreign.record, login.record].filter (fun r =>
        (resolvedConditions "ada" ⟨1717675200, 0⟩ ⟨1718539200, 0⟩).all
          (Condition.holds (fun _ => 19800 * giga) r)) = [early.record, login.record] := by
      decide +kernel
    rw [hfound]
    exact serves_weekPages
  · exact .cons (Bug.issue_of_record (by decide +kernel))
      (.cons (Bug.issue_of_record (by decide +kernel)) (.cons login_issue .nil))

end TeamDigest.Service.Jira
