import TeamDigest.Proofs.Time.Days
import TeamDigest.Report.Milestone

/-!
# The latest sign of life

Signs of life on a milestone are its comments and the completions of its children.  Each of
the two lists is searched for its latest member on its own, the last one of equals
(`exists_split_of_latestBy`), and the two finds are compared.  What comes out has the time
of a sign, and no sign is later; nothing comes out only where there is no sign at all
(`latestActivity_spec`).

Several signs may have that time.  `IsMostRecent` says which of them comes out, and there is
one at most (`IsMostRecent.unique`).  The children are listed in increasing order, so the last
one of those completed at the same time is the greatest (`isLE_of_latestBy_completions`).
-/

namespace TeamDigest.Report

open Time Work

/-! ## The latest member of a list -/

section LatestBy

variable {α : Type} {time : α → Instant} {as : List α} {b : α}

@[simp] theorem latestBy_eq_none_iff : latestBy time as = none ↔ as = [] := by
  cases as with
  | nil => simp [latestBy]
  | cons a as =>
      unfold latestBy
      split
      · simp
      · split
        · simp
        · simp

/-- No member before the latest one is later, and all members behind it are earlier. -/
theorem exists_split_of_latestBy (h : latestBy time as = some b) :
    ∃ before after, as = before ++ b :: after ∧ (∀ a ∈ before, time a ≤ time b) ∧
      ∀ a ∈ after, time a < time b := by
  induction as generalizing b with
  | nil => simp [latestBy] at h
  | cons a as ih =>
      unfold latestBy at h
      cases hrest : latestBy time as with
      | none =>
          obtain rfl := latestBy_eq_none_iff.1 hrest
          obtain rfl : a = b := by simpa [hrest] using h
          exact ⟨[], [], rfl, by simp, by simp⟩
      | some c =>
          obtain ⟨before, after, rfl, hbefore, hafter⟩ := ih hrest
          rw [hrest] at h
          dsimp only at h
          split at h
          · next hle =>
              obtain rfl := Option.some.inj h
              exact ⟨a :: before, after, rfl, List.forall_mem_cons.2 ⟨hle, hbefore⟩, hafter⟩
          · next hlater =>
              -- the head is later than the latest of the others, so than all of them
              obtain rfl := Option.some.inj h
              have hall : ∀ x ∈ before ++ c :: after, time x ≤ time c :=
                List.forall_mem_append.2 ⟨hbefore, List.forall_mem_cons.2
                  ⟨Instant.le_refl _, fun x hx => Instant.le_of_lt (hafter x hx)⟩⟩
              exact ⟨[], before ++ c :: after, rfl, by simp, fun x hx =>
                Instant.lt_of_le_of_lt (hall x hx) (Instant.not_le.1 hlater)⟩

theorem mem_of_latestBy (h : latestBy time as = some b) : b ∈ as := by
  obtain ⟨before, after, rfl, -, -⟩ := exists_split_of_latestBy h
  exact List.mem_append_right _ List.mem_cons_self

theorem le_of_latestBy (h : latestBy time as = some b) : ∀ a ∈ as, time a ≤ time b := by
  obtain ⟨before, after, rfl, hbefore, hafter⟩ := exists_split_of_latestBy h
  exact List.forall_mem_append.2 ⟨hbefore, List.forall_mem_cons.2
    ⟨Instant.le_refl _, fun a ha => Instant.le_of_lt (hafter a ha)⟩⟩

/-- Of the members with the latest time it is the last one. -/
theorem getLast?_filter_of_latestBy (h : latestBy time as = some b) :
    (as.filter (time · = time b)).getLast? = some b := by
  obtain ⟨before, after, rfl, -, hafter⟩ := exists_split_of_latestBy h
  have hearlier : ∀ a ∈ after, ¬ time a = time b := by
    intro a ha htime
    exact Instant.lt_irrefl (time b) (htime ▸ hafter a ha)
  have hnone : after.filter (time · = time b) = [] := by simpa using hearlier
  simp [hnone]

end LatestBy

/-! ## The latest sign on a milestone -/

namespace Milestone

variable {m : Milestone} {t : Instant}

/-- There is a sign of life at a time: a comment was written or a child completed. -/
def HasSignAt (m : Milestone) (t : Instant) : Prop :=
  (∃ c ∈ m.comments, c.createdAt = t) ∨ ∃ i ∈ m.children, i.completedAt = some t

theorem mem_completions_iff {i : Issue} :
    (i, t) ∈ m.completions ↔ i ∈ m.children ∧ i.completedAt = some t := by
  simp only [completions, List.mem_filterMap, Option.map_eq_some_iff, ValueSet.mem_def]
  constructor
  · rintro ⟨j, hj, u, hu, heq⟩
    obtain ⟨rfl, rfl⟩ := Prod.mk.inj heq
    exact ⟨hj, hu⟩
  · rintro ⟨hi, ht⟩
    exact ⟨i, hi, t, ht, rfl⟩

theorem hasSignAt_iff : m.HasSignAt t ↔
    (∃ c ∈ m.comments, c.createdAt = t) ∨ ∃ done ∈ m.completions, done.2 = t := by
  have hcompletion : (∃ i ∈ m.children, i.completedAt = some t) ↔
      ∃ done ∈ m.completions, done.2 = t := by
    constructor
    · rintro ⟨i, hi, ht⟩
      exact ⟨(i, t), mem_completions_iff.2 ⟨hi, ht⟩, rfl⟩
    · rintro ⟨⟨i, u⟩, hdone, rfl⟩
      exact ⟨i, mem_completions_iff.1 hdone⟩
  rw [HasSignAt, hcompletion]

/-- The time is that of a sign of life, and no sign is later. -/
structure IsLatest (m : Milestone) (t : Instant) : Prop where
  sign : m.HasSignAt t
  le : ∀ u, m.HasSignAt u → u ≤ t

theorem isLatest_of_le (hsign : m.HasSignAt t) (hcomments : ∀ c ∈ m.comments, c.createdAt ≤ t)
    (hcompletions : ∀ done ∈ m.completions, done.2 ≤ t) : m.IsLatest t := by
  refine ⟨hsign, fun u hu => ?_⟩
  rcases hasSignAt_iff.1 hu with ⟨c, hc, rfl⟩ | ⟨done, hdone, rfl⟩
  · exact hcomments c hc
  · exact hcompletions done hdone

/-- Nothing is found, or the last of the latest comments and no completion is later, or the last
of the latest completions and all comments are earlier. -/
theorem latestActivity_cases (m : Milestone) :
    (m.latestActivity = none ∧ m.comments = [] ∧ m.completions = []) ∨
      (∃ c, m.latestActivity = some (.comment c) ∧
        latestBy Comment.createdAt m.comments = some c ∧
        ∀ done ∈ m.completions, done.2 ≤ c.createdAt) ∨
      ∃ i u, m.latestActivity = some (.resolution i u) ∧
        latestBy Prod.snd m.completions = some (i, u) ∧ ∀ c ∈ m.comments, c.createdAt < u := by
  unfold latestActivity
  cases hc : latestBy Comment.createdAt m.comments with
  | none =>
      have hcomments : m.comments = [] := latestBy_eq_none_iff.1 hc
      cases hd : latestBy Prod.snd m.completions with
      | none => exact .inl ⟨rfl, hcomments, latestBy_eq_none_iff.1 hd⟩
      | some done => exact .inr (.inr ⟨done.1, done.2, rfl, rfl, by simp [hcomments]⟩)
  | some c =>
      cases hd : latestBy Prod.snd m.completions with
      | none =>
          have hcompletions : m.completions = [] := latestBy_eq_none_iff.1 hd
          exact .inr (.inl ⟨c, rfl, rfl, by simp [hcompletions]⟩)
      | some done =>
          right
          dsimp only
          split
          · next hle =>
              refine .inl ⟨c, rfl, rfl, fun other hother => ?_⟩
              exact Instant.le_trans (le_of_latestBy hd other hother) hle
          · next hlater =>
              refine .inr ⟨done.1, done.2, rfl, rfl, fun other hother => ?_⟩
              exact Instant.lt_of_le_of_lt (le_of_latestBy hc other hother)
                (Instant.not_le.1 hlater)

/-- The later one of the two finds is the latest sign of all. -/
theorem latestActivity_spec (m : Milestone) :
    (m.latestActivity = none ∧ ∀ t, ¬ m.HasSignAt t) ∨
      ∃ a, m.latestActivity = some a ∧ m.IsLatest a.time := by
  rcases m.latestActivity_cases with ⟨hnone, hcomments, hcompletions⟩ |
    ⟨c, hsome, hc, hcompletions⟩ | ⟨i, u, hsome, hdone, hcomments⟩
  · refine .inl ⟨hnone, fun t ht => ?_⟩
    simp [hasSignAt_iff, hcomments, hcompletions] at ht
  · have hsign : m.HasSignAt c.createdAt := .inl ⟨c, mem_of_latestBy hc, rfl⟩
    exact .inr ⟨_, hsome, isLatest_of_le hsign (le_of_latestBy hc) hcompletions⟩
  · have hsign : m.HasSignAt u := .inr ⟨i, mem_completions_iff.1 (mem_of_latestBy hdone)⟩
    exact .inr ⟨_, hsome, isLatest_of_le hsign
      (fun c hc => Instant.le_of_lt (hcomments c hc)) (le_of_latestBy hdone)⟩

theorem latestActivity_eq_none_iff : m.latestActivity = none ↔ ∀ t, ¬ m.HasSignAt t := by
  rcases m.latestActivity_spec with ⟨hnone, hsilent⟩ | ⟨a, hsome, hlatest⟩
  · exact iff_of_true hnone hsilent
  · refine iff_of_false (by simp [hsome]) fun hsilent => ?_
    exact hsilent a.time hlatest.sign

theorem forall_not_hasSignAt_iff : (∀ t, ¬ m.HasSignAt t) ↔
    m.comments = [] ∧ ¬ ∃ i ∈ m.children, i.isCompleted = true := by
  constructor
  · intro hsilent
    refine ⟨List.eq_nil_iff_forall_not_mem.2 fun c hc => ?_, ?_⟩
    · exact hsilent c.createdAt (.inl ⟨c, hc, rfl⟩)
    · rintro ⟨i, hi, hcompleted⟩
      obtain ⟨t, ht⟩ := Option.isSome_iff_exists.1 hcompleted
      exact hsilent t (.inr ⟨i, hi, ht⟩)
  · rintro ⟨hcomments, hchildren⟩ t (⟨c, hc, -⟩ | ⟨i, hi, ht⟩)
    · simp [hcomments] at hc
    · exact hchildren ⟨i, hi, by simp [Issue.isCompleted, ht]⟩

/-! ## Signs of the same time -/

/-- What is shown of the signs of life: one of the latest.  Of these a comment comes before a
completion, the last comment before the others, and the greatest child before the others. -/
structure IsMostRecent (m : Milestone) (a : Activity) : Prop where
  latest : m.IsLatest a.time
  comment_iff : (∃ c, a = .comment c) ↔ ∃ c ∈ m.comments, c.createdAt = a.time
  last_comment : ∀ c, a = .comment c →
    (m.comments.filter (·.createdAt = c.createdAt)).getLast? = some c
  greatest_child : ∀ i t, a = .resolution i t → i ∈ m.children ∧ i.completedAt = some t ∧
    ∀ j ∈ m.children, j.completedAt = some t → (compare j i).isLE = true

variable {a b : Activity} {i j : Issue}

theorem IsLatest.unique {u : Instant} (h : m.IsLatest t) (hother : m.IsLatest u) : t = u :=
  Instant.le_antisymm (hother.le t h.sign) (h.le u hother.sign)

theorem IsMostRecent.unique (h : m.IsMostRecent a) (hother : m.IsMostRecent b) : a = b := by
  have htime : a.time = b.time := h.latest.unique hother.latest
  have hkind : (∃ c, a = .comment c) ↔ ∃ c, b = .comment c := by
    rw [h.comment_iff, hother.comment_iff, htime]
  cases a with
  | comment c =>
      obtain ⟨d, rfl⟩ := hkind.1 ⟨c, rfl⟩
      have hcreated : c.createdAt = d.createdAt := htime
      have hlast := h.last_comment c rfl
      rw [hcreated, hother.last_comment d rfl] at hlast
      rw [Option.some.inj hlast]
  | resolution i t =>
      cases b with
      | comment d => exact absurd (hkind.2 ⟨d, rfl⟩) (by simp)
      | resolution j u =>
          obtain rfl : t = u := htime
          obtain ⟨hi, hit, hgreatest⟩ := h.greatest_child i t rfl
          obtain ⟨hj, hjt, hgreatestOther⟩ := hother.greatest_child j t rfl
          have heq : compare i j = .eq :=
            Std.OrientedCmp.isLE_antisymm (hgreatestOther i hi hit) (hgreatest j hj hjt)
          rw [Std.LawfulEqOrd.eq_of_compare heq]

/-- The completions stand in the order of the children. -/
theorem completions_increasing (m : Milestone) :
    m.completions.Pairwise fun done other => compare done.1 other.1 = .lt := by
  refine m.children.increasing.filterMap _ ?_
  intro i j hlt done hdone other hother
  obtain ⟨t, -, rfl⟩ := Option.map_eq_some_iff.1 hdone
  obtain ⟨u, -, rfl⟩ := Option.map_eq_some_iff.1 hother
  exact hlt

theorem isLE_of_latestBy_completions (h : latestBy Prod.snd m.completions = some (i, t))
    (hj : j ∈ m.children) (ht : j.completedAt = some t) : (compare j i).isLE = true := by
  obtain ⟨before, after, hsplit, -, hafter⟩ := exists_split_of_latestBy h
  have hmem : (j, t) ∈ m.completions := mem_completions_iff.2 ⟨hj, ht⟩
  have hincreasing := m.completions_increasing
  rw [hsplit] at hmem hincreasing
  rcases List.mem_append.1 hmem with hbefore | hrest
  · have hlt : compare j i = .lt :=
      (List.pairwise_append.1 hincreasing).2.2 _ hbefore _ List.mem_cons_self
    rw [hlt]
    rfl
  · rcases List.mem_cons.1 hrest with hsame | hlater
    · obtain rfl : j = i := congrArg Prod.fst hsame
      have hself : compare j j = .eq := Std.ReflCmp.compare_self
      rw [hself]
      rfl
    · exact absurd (hafter _ hlater) (Instant.lt_irrefl t)

theorem isMostRecent_of_latestActivity (h : m.latestActivity = some a) : m.IsMostRecent a := by
  have hlatest : m.IsLatest a.time := by
    rcases m.latestActivity_spec with ⟨hnone, -⟩ | ⟨b, hsome, hb⟩
    · simp [hnone] at h
    · obtain rfl : a = b := Option.some.inj (h.symm.trans hsome)
      exact hb
  rcases m.latestActivity_cases with ⟨hnone, -⟩ | ⟨c, hsome, hc, -⟩ |
    ⟨i, u, hsome, hdone, hcomments⟩
  · simp [hnone] at h
  · obtain rfl : a = .comment c := Option.some.inj (h.symm.trans hsome)
    refine ⟨hlatest, ?_, ?_, by simp⟩
    · exact iff_of_true ⟨c, rfl⟩ ⟨c, mem_of_latestBy hc, rfl⟩
    · intro d hd
      obtain rfl := Activity.comment.inj hd
      exact getLast?_filter_of_latestBy hc
  · obtain rfl : a = .resolution i u := Option.some.inj (h.symm.trans hsome)
    refine ⟨hlatest, ?_, by simp, ?_⟩
    · refine iff_of_false (by simp) ?_
      rintro ⟨c, hc, htime⟩
      obtain rfl : c.createdAt = u := htime
      exact Instant.lt_irrefl _ (hcomments c hc)
    · intro j t hj
      obtain ⟨rfl, rfl⟩ := Activity.resolution.inj hj
      obtain ⟨hi, hu⟩ := mem_completions_iff.1 (mem_of_latestBy hdone)
      exact ⟨hi, hu, fun j hj hju => isLE_of_latestBy_completions hdone hj hju⟩

/-- There is nothing to show exactly where there is no comment and no completed child; otherwise
what is shown is the one sign of life that comes before the others. -/
theorem latestActivity_shows_most_recent (m : Milestone) :
    (m.latestActivity = none ↔
      m.comments = [] ∧ ¬ ∃ i ∈ m.children, i.isCompleted = true) ∧
    ∀ a, m.latestActivity = some a ↔ m.IsMostRecent a := by
  refine ⟨latestActivity_eq_none_iff.trans forall_not_hasSignAt_iff, fun a => ?_⟩
  constructor
  · exact isMostRecent_of_latestActivity
  · intro ha
    cases hactivity : m.latestActivity with
    | none => exact absurd ha.latest.sign (latestActivity_eq_none_iff.1 hactivity a.time)
    | some b => rw [ha.unique (isMostRecent_of_latestActivity hactivity)]

end Milestone

end TeamDigest.Report
