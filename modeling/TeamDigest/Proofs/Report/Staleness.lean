import TeamDigest.Proofs.Report.Activity
import TeamDigest.Report.Markup

/-!
# Milestones of which nothing is heard

The block on a milestone carries a mark where nothing was resolved in the window and the
latest sign of life is out of date, and a reminder that depends on the due date.  The code
looks at one sign only.  What it says is said of all of them: nothing has been heard of the
milestone (`Milestone.Silent`), neither a comment nor a completion, for two weeks.

Both are read off the lines of the block: a line is marked if it ends in the mark
(`IsMarked`), and it is a reminder by its first characters (`IsReminder`).  No other line
ends or begins like that, whatever the texts are that stand in it.
-/

namespace TeamDigest.Report

open Time Work Text

/-- The line ends in the mark of what is out of date. -/
def IsMarked (line : String) : Prop := " ⚠️".toList <:+ line.toList

/-- The line begins as a reminder does. -/
def IsReminder (line : String) : Prop := "⚠️ _".toList <+: line.toList

/-! ## The ends of lines -/

/-- The text ends in a character that no mark ends in. -/
def EndsUnmarked (s : String) : Prop := ∃ c, s.toList.getLast? = some c ∧ c ≠ '\uFE0F'

/-- The text begins with a character that no reminder begins with. -/
def BeginsOtherwise (s : String) : Prop := ∃ c, s.toList.head? = some c ∧ c ≠ '⚠'

theorem EndsUnmarked.append {t : String} (h : EndsUnmarked t) (s : String) :
    EndsUnmarked (s ++ t) := by
  obtain ⟨c, hlast, hc⟩ := h
  exact ⟨c, by rw [String.toList_append, List.getLast?_append, hlast]; rfl, hc⟩

theorem EndsUnmarked.not_isMarked {line : String} (h : EndsUnmarked line) : ¬ IsMarked line := by
  rintro ⟨front, hfront⟩
  obtain ⟨c, hlast, hc⟩ := h
  rw [← hfront, List.getLast?_append] at hlast
  exact hc (Option.some.inj hlast).symm

theorem IsReminder.append {s : String} (h : IsReminder s) (t : String) : IsReminder (s ++ t) := by
  rw [IsReminder, String.toList_append]
  exact h.trans (List.prefix_append _ _)

theorem BeginsOtherwise.append {s : String} (h : BeginsOtherwise s) (t : String) :
    BeginsOtherwise (s ++ t) := by
  obtain ⟨c, hhead, hc⟩ := h
  exact ⟨c, by rw [String.toList_append, List.head?_append, hhead]; rfl, hc⟩

theorem BeginsOtherwise.not_isReminder {line : String} (h : BeginsOtherwise line) :
    ¬ IsReminder line := by
  rintro ⟨rest, hrest⟩
  obtain ⟨c, hhead, hc⟩ := h
  rw [← hrest] at hhead
  exact hc (Option.some.inj hhead).symm

theorem endsUnmarked_monthDay (t : Instant) : EndsUnmarked t.monthDay := by
  have hdigits : padded 2 t.date.day ≠ [] := by
    simp [padded, numeral_ne_nil]
  refine EndsUnmarked.append (t := twoDigits t.date.day) ?_ _
  refine ⟨(padded 2 t.date.day).getLast hdigits, ?_, ?_⟩
  · rw [twoDigits, String.toList_ofList, List.getLast?_eq_some_getLast hdigits]
  · intro hmark
    have hdigit := isAsciiDigit_of_mem_padded (List.getLast_mem hdigits)
    rw [hmark] at hdigit
    exact absurd hdigit (by decide)

theorem endsUnmarked_describe (a : Activity) : EndsUnmarked a.describe := by
  cases a with
  | comment c => exact (endsUnmarked_monthDay c.createdAt).append _
  | resolution i t => exact (endsUnmarked_monthDay t).append _

theorem endsUnmarked_link (i : Issue) : EndsUnmarked i.link :=
  EndsUnmarked.append ⟨'>', rfl, by decide⟩ _

theorem endsUnmarked_join {texts : List String} (separator : String) (hne : texts ≠ [])
    (h : ∀ s ∈ texts, EndsUnmarked s) : EndsUnmarked (join separator texts) := by
  fun_induction join separator texts with
  | case1 => exact absurd rfl hne
  | case2 s => exact h s List.mem_cons_self
  | case3 s t rest ih =>
      exact (ih (List.cons_ne_nil t rest) fun u hu => h u (List.mem_cons_of_mem s hu)).append _

theorem endsUnmarked_issueLinks {issues : List Issue} (hne : issues ≠ []) :
    EndsUnmarked (issueLinks issues) := by
  refine endsUnmarked_join ", " (by simpa using hne) fun s hs => ?_
  obtain ⟨i, -, rfl⟩ := List.mem_map.1 hs
  exact endsUnmarked_link i

/-! ## What the lines say -/

namespace Milestone

variable {m : Milestone} {w : Window}

/-- The latest sign of life in words, without the mark. -/
def activityText (m : Milestone) : String :=
  match m.latestActivity with
  | some a => a.describe
  | none => "_No recent activity_"

theorem endsUnmarked_activityText (m : Milestone) : EndsUnmarked m.activityText := by
  unfold activityText
  cases m.latestActivity with
  | none => exact ⟨'_', by decide, by decide⟩
  | some a => exact endsUnmarked_describe a

theorem activityLine_of_nil (h : m.resolved w = []) :
    m.activityLine w = m.activityText ++ staleMark (m.isStale w) := by
  rw [activityLine, h]
  rfl

theorem activityLine_of_ne_nil (h : m.resolved w ≠ []) :
    m.activityLine w = "*Resolved:* " ++ issueLinks (m.resolved w) := by
  rw [activityLine, if_neg]
  simpa using h

/-- The line on the latest activity is marked if the milestone is stale. -/
theorem isMarked_activityLine_iff : IsMarked (m.activityLine w) ↔ m.isStale w = true := by
  by_cases hresolved : m.resolved w = []
  · rw [activityLine_of_nil hresolved]
    cases m.isStale w with
    | true => simp [IsMarked, staleMark]
    | false => simpa [staleMark] using (endsUnmarked_activityText m).not_isMarked
  · have hfresh : m.isStale w = false := by simp [isStale, hresolved]
    rw [activityLine_of_ne_nil hresolved, hfresh]
    simpa using ((endsUnmarked_issueLinks hresolved).append "*Resolved:* ").not_isMarked

theorem isReminder_of_reminder? {stale tagOwners : Bool} {line : String}
    (h : m.reminder? stale w tagOwners = some line) : IsReminder line := by
  have hdate : IsReminder "⚠️ _This milestone has no due date. " :=
    ⟨"This milestone has no due date. ".toList, by decide⟩
  have hneither : IsReminder "⚠️ _This milestone has no due date or assignee. Please add them._" :=
    ⟨"This milestone has no due date or assignee. Please add them._".toList, by decide⟩
  have hdue : IsReminder "⚠️ _Due " := ⟨"Due ".toList, by decide⟩
  unfold reminder? at h
  split at h
  · split at h
    · obtain rfl := Option.some.inj h
      exact (hdate.append _).append _
    · obtain rfl := Option.some.inj h
      exact hneither
  · split at h
    · obtain rfl := Option.some.inj h
      exact (((hdue.append _).append _).append _).append _
    · simp at h

theorem isSome_reminder?_iff {stale tagOwners : Bool} :
    (m.reminder? stale w tagOwners).isSome = true ↔ m.anchor.dueAt = none ∨
      ∃ due, m.anchor.dueAt = some due ∧ stale = true ∧ isDueSoon w due = true := by
  unfold reminder?
  cases m.anchor.dueAt with
  | none =>
      dsimp only
      split
      · simp
      · simp
  | some due =>
      dsimp only
      split
      · next hlate => simpa using hlate
      · next hcalm => simpa using hcalm

theorem beginsOtherwise_line (p : Progress) : BeginsOtherwise p.line := by
  have hsign : ∀ c : Progress.Cell, c.sign ≠ '⚠' := by
    intro c
    cases c with
    | closed => decide
    | recent => decide
    | remaining => decide
  have hcells : p.cells ≠ [] := by
    intro hnil
    have hlength := p.length_cells
    rw [hnil] at hlength
    exact absurd hlength (by decide)
  obtain ⟨c, cs, hcons⟩ := List.exists_cons_of_ne_nil hcells
  have hbar : BeginsOtherwise p.bar := by
    refine ⟨c.sign, ?_, hsign c⟩
    rw [Progress.bar, hcons, String.toList_ofList]
    rfl
  exact ((((hbar.append _).append _).append _).append _).append _

theorem beginsOtherwise_describe (a : Activity) : BeginsOtherwise a.describe := by
  have hlead : BeginsOtherwise "Most recent activity: " := ⟨'M', by decide, by decide⟩
  cases a with
  | comment c =>
      have hcomment : BeginsOtherwise "Most recent activity: comment from " :=
        ⟨'M', by decide, by decide⟩
      exact ((hcomment.append _).append _).append _
  | resolution i t => exact ((hlead.append _).append _).append _

theorem beginsOtherwise_activityLine (m : Milestone) (w : Window) :
    BeginsOtherwise (m.activityLine w) := by
  by_cases hresolved : m.resolved w = []
  · rw [activityLine_of_nil hresolved, activityText]
    apply BeginsOtherwise.append
    cases m.latestActivity with
    | none => exact ⟨'_', by decide, by decide⟩
    | some a => exact beginsOtherwise_describe a
  · rw [activityLine_of_ne_nil hresolved]
    exact BeginsOtherwise.append ⟨'*', by decide, by decide⟩ _

theorem beginsOtherwise_issueListing {caption : String} (h : BeginsOtherwise caption)
    (issues : List Issue) : ∀ line ∈ issueListing caption issues, BeginsOtherwise line := by
  unfold issueListing
  split
  · simp
  · simpa using (h.append " ").append (issueLinks issues)

theorem beginsOtherwise_pullRequestListing (prs : PullRequestSet) :
    ∀ line ∈ pullRequestListing prs, BeginsOtherwise line := by
  have hcaption : BeginsOtherwise "*PRs:* " := ⟨'*', by decide, by decide⟩
  unfold pullRequestListing
  split
  · simp
  · simpa using hcaption.append (pullRequestLinks prs)

/-- The block has a reminder where one is made out; no other line of it looks like one. -/
theorem exists_isReminder_iff {tagOwners : Bool} :
    (∃ line ∈ m.blockLines w tagOwners, IsReminder line) ↔
      (m.reminder? (m.isStale w) w tagOwners).isSome = true := by
  constructor
  · rintro ⟨line, hline, hreminder⟩
    simp only [blockLines, List.mem_append, List.mem_cons, List.not_mem_nil, or_false,
      Option.mem_toList] at hline
    have hother : ¬ BeginsOtherwise line := fun h => h.not_isReminder hreminder
    rcases hline with (((rfl | rfl | rfl) | hline) | hline) | hline
    · refine absurd ?_ hother
      exact ((BeginsOtherwise.append ⟨'*', by decide, by decide⟩ _).append _).append _
    · exact absurd (beginsOtherwise_line _) hother
    · exact absurd (beginsOtherwise_activityLine m w) hother
    · rw [hline]
      rfl
    · refine absurd (beginsOtherwise_issueListing ?_ _ line hline) hother
      exact ⟨'*', by decide, by decide⟩
    · exact absurd (beginsOtherwise_pullRequestListing _ line hline) hother
  · intro hsome
    obtain ⟨line, hline⟩ := Option.isSome_iff_exists.1 hsome
    exact ⟨line, by simp [blockLines, hline], isReminder_of_reminder? hline⟩

/-! ## What has been heard of a milestone -/

/-- Nothing has been heard of a milestone: nothing was resolved in the window, and every
comment and every completion of a child is more than two weeks old at the end of it. -/
structure Silent (m : Milestone) (w : Window) : Prop where
  unresolved : ∀ i ∈ m.changed, ∀ t, i.completedAt = some t → ¬ (w.start ≤ t ∧ t ≤ w.stop)
  comments_old : ∀ c ∈ m.comments, c.createdAt.daysLater 14 < w.stop
  completions_old : ∀ i ∈ m.children, ∀ t, i.completedAt = some t → t.daysLater 14 < w.stop

/-- None of the times that the marks of a block depend on is a leap second. -/
structure OffLeapSeconds (m : Milestone) (w : Window) : Prop where
  stop : w.stop.nano < giga
  comments : ∀ c ∈ m.comments, c.createdAt.nano < giga
  completions : ∀ i ∈ m.children, ∀ t, i.completedAt = some t → t.nano < giga
  due : ∀ t, m.anchor.dueAt = some t → t.nano < giga

theorem OffLeapSeconds.sign {t : Instant} (h : m.OffLeapSeconds w) (ht : m.HasSignAt t) :
    t.nano < giga := by
  rcases ht with ⟨c, hc, rfl⟩ | ⟨i, hi, hcompleted⟩
  · exact h.comments c hc
  · exact h.completions i hi t hcompleted

theorem resolved_eq_nil_iff : m.resolved w = [] ↔
    ∀ i ∈ m.changed, ∀ t, i.completedAt = some t → ¬ (w.start ≤ t ∧ t ≤ w.stop) := by
  simp only [resolved, List.filter_eq_nil_iff, ← ValueSet.mem_def]
  refine forall₂_congr fun i _ => ?_
  unfold Issue.completedWithin
  cases i.completedAt with
  | none => simp
  | some t => simp

/-- The latest sign of life is out of date exactly when all signs are. -/
theorem isOutOfDate_latestActivity_iff (hleap : m.OffLeapSeconds w) :
    isOutOfDate w m.latestActivity = true ↔ ∀ t, m.HasSignAt t → t.daysLater 14 < w.stop := by
  rcases m.latestActivity_spec with ⟨hnone, hsilent⟩ | ⟨a, hsome, hlatest⟩
  · rw [hnone]
    exact ⟨fun _ t ht => absurd ht (hsilent t), fun _ => rfl⟩
  · rw [hsome, isOutOfDate, decide_eq_true_iff, staleAfterDays,
      Instant.ofDays_lt_elapsed_iff (hleap.sign hlatest.sign) hleap.stop]
    constructor
    · intro hold t ht
      exact Instant.lt_of_le_of_lt (Instant.daysLater_le (hlatest.le t ht) 14) hold
    · intro hall
      exact hall a.time hlatest.sign

theorem isStale_iff_silent (hleap : m.OffLeapSeconds w) : m.isStale w = true ↔ m.Silent w := by
  rw [isStale, Bool.and_eq_true, List.isEmpty_iff, resolved_eq_nil_iff,
    isOutOfDate_latestActivity_iff hleap]
  constructor
  · rintro ⟨hunresolved, hold⟩
    exact ⟨hunresolved, fun c hc => hold _ (.inl ⟨c, hc, rfl⟩),
      fun i hi t ht => hold t (.inr ⟨i, hi, ht⟩)⟩
  · intro hsilent
    refine ⟨hsilent.unresolved, fun t ht => ?_⟩
    rcases ht with ⟨c, hc, rfl⟩ | ⟨i, hi, hcompleted⟩
    · exact hsilent.comments_old c hc
    · exact hsilent.completions_old i hi t hcompleted

theorem isDueSoon_iff {due : Instant} (hstop : w.stop.nano < giga) (hdue : due.nano < giga) :
    isDueSoon w due = true ↔ due ≤ w.stop.daysLater 90 := by
  rw [isDueSoon, decide_eq_true_iff, dueSoonDays, Instant.elapsed_le_ofDays_iff hstop hdue]
  rfl

/-- The third line of the block, that on the latest activity, is marked exactly when nothing
has been heard of the milestone.  The block has a reminder exactly when there is no due date,
or when nothing has been heard and the due date is at most ninety days ahead, or over. -/
theorem mark_and_reminder_iff (m : Milestone) (w : Window) (tagOwners : Bool)
    (hleap : m.OffLeapSeconds w) :
    m.block w tagOwners = join "\n" ((m.blockLines w tagOwners).map ("> " ++ ·)) ∧
    ((∃ line, (m.blockLines w tagOwners)[2]? = some line ∧ IsMarked line) ↔ m.Silent w) ∧
    ((∃ line ∈ m.blockLines w tagOwners, IsReminder line) ↔ m.anchor.dueAt = none ∨
      ∃ due, m.anchor.dueAt = some due ∧ m.Silent w ∧ due ≤ w.stop.daysLater 90) := by
  refine ⟨rfl, ?_, ?_⟩
  · have hthird : (m.blockLines w tagOwners)[2]? = some (m.activityLine w) := rfl
    rw [hthird, ← isStale_iff_silent hleap, ← isMarked_activityLine_iff]
    simp
  · rw [exists_isReminder_iff, isSome_reminder?_iff, isStale_iff_silent hleap]
    refine or_congr_right (exists_congr fun due => and_congr_right fun hdue => ?_)
    rw [isDueSoon_iff hleap.stop (hleap.due due hdue)]

/-! ### A milestone that is overdue -/

/-- The week before noon of 14 June 2024. -/
def juneWeek : Window := ⟨⟨1717761600, 0⟩, ⟨1718366400, 0⟩⟩

/-- An issue that was completed at a time, and is due at another one. -/
def dueIssue (key : String) (completedAt dueAt : Option Instant) : Issue where
  id := key
  key := key
  url := "https://acme.atlassian.net/browse/" ++ key
  title := key
  description := none
  status := "Open"
  progression := .todo
  typeName := "Epic"
  priority := none
  estimate := none
  assigneeId := none
  assigneeName := none
  creatorId := none
  creatorName := none
  parentKey := none
  createdAt := ⟨1714521600, 0⟩
  updatedAt := ⟨1714521600, 0⟩
  completedAt := completedAt
  dueAt := dueAt

/-- A milestone that was due on 1 June 2024.  The last comment on it is older than two weeks
by a nanosecond; some children were completed at a time. -/
def overdue (completions : List Instant) : Milestone where
  owner := none
  anchor := dueIssue "ENG-1" none (some ⟨1717200000, 0⟩)
  children := .ofList (completions.map fun t => dueIssue "ENG-2" (some t) none)
  comments := [⟨"c1", "On it", none, none, ⟨1717156799, 999999999⟩, ⟨1717156799, 999999999⟩⟩]
  changed := ∅
  pullRequests := ∅

theorem exists_of_mem_overdue {completions : List Instant} {i : Issue} {t : Instant}
    (hi : i ∈ (overdue completions).children) (ht : i.completedAt = some t) :
    t ∈ completions := by
  obtain ⟨u, hu, rfl⟩ := List.mem_map.1 (ValueSet.mem_ofList.1 hi)
  exact Option.some.inj ht ▸ hu

theorem offLeapSeconds_overdue {completions : List Instant} (h : ∀ t ∈ completions, t.nano = 0) :
    (overdue completions).OffLeapSeconds juneWeek where
  stop := by decide
  comments := by
    intro c hc
    obtain rfl := List.mem_singleton.1 hc
    decide
  completions := by
    intro i hi t ht
    rw [h t (exists_of_mem_overdue hi ht)]
    decide
  due := by
    rintro t ⟨⟩
    decide

/-- An overdue milestone is marked and has a reminder; with a child that was completed just
two weeks before the end of the window, it is not and has none. -/
theorem mark_and_reminder_of_overdue :
    ((overdue []).OffLeapSeconds juneWeek ∧
      (∃ line, ((overdue []).blockLines juneWeek false)[2]? = some line ∧ IsMarked line) ∧
      ∃ line ∈ (overdue []).blockLines juneWeek false, IsReminder line) ∧
    ((overdue [⟨1717156800, 0⟩]).OffLeapSeconds juneWeek ∧
      (¬ ∃ line, ((overdue [⟨1717156800, 0⟩]).blockLines juneWeek false)[2]? = some line ∧
        IsMarked line) ∧
      ¬ ∃ line ∈ (overdue [⟨1717156800, 0⟩]).blockLines juneWeek false, IsReminder line) := by
  have hquiet : (overdue []).OffLeapSeconds juneWeek := offLeapSeconds_overdue (by simp)
  have hlively : (overdue [⟨1717156800, 0⟩]).OffLeapSeconds juneWeek :=
    offLeapSeconds_overdue (by simp)
  obtain ⟨-, hmark, hreminder⟩ := mark_and_reminder_iff (overdue []) juneWeek false hquiet
  obtain ⟨-, hnomark, hnoreminder⟩ :=
    mark_and_reminder_iff (overdue [⟨1717156800, 0⟩]) juneWeek false hlively
  have hsilent : (overdue []).Silent juneWeek := by
    refine ⟨by simp [overdue, ValueSet.mem_def], ?_, fun i hi t ht =>
      absurd (exists_of_mem_overdue hi ht) List.not_mem_nil⟩
    intro c hc
    obtain rfl := List.mem_singleton.1 hc
    decide
  have hheard : ¬ (overdue [⟨1717156800, 0⟩]).Silent juneWeek := fun h =>
    absurd (h.completions_old (dueIssue "ENG-2" (some ⟨1717156800, 0⟩) none)
      (ValueSet.mem_ofList.2 (by simp)) _ rfl) (by decide)
  refine ⟨⟨hquiet, hmark.2 hsilent, hreminder.2 (.inr ⟨_, rfl, hsilent, by decide⟩)⟩, hlively,
    fun h => hheard (hnomark.1 h), fun h => ?_⟩
  obtain hnone | ⟨due, -, hstale, -⟩ := hnoreminder.1 h
  · exact absurd hnone (by decide)
  · exact hheard hstale

end Milestone

end TeamDigest.Report
