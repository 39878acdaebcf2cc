import TeamDigest.Proofs.Gather.Sequential

/-!
# The milestones of a report

A milestone asks for its own children, on another way than the walk that finds the
work items of the project.  What it shows is still part of the report: the walk
has looked below every key that it came across, and the keys of the anchors are
among these (`mem_below_of_child`).  For that the tracker may not come up with
issues that nobody asked for, and it has to answer the same key alike both times.

The walk starts from the keys of the project, and not from the issues that the
tracker returns for them.  So a container below a key of which the tracker returns
no issue is an anchor, too.
-/

namespace TeamDigest.Gather

open Work Team Report

variable {scope : Scope} {account : List (Reply sources)} {children : String → List Issue}

/-- The issue stands below one of the keys, at any depth. -/
def Descends (children : String → List Issue) (keys : List String) (issue : Issue) : Prop :=
  ∃ key, Reachable (fun key => .ok (children key)) keys key ∧ issue ∈ children key

namespace Descends

variable {keys others : List String} {issue : Issue}

theorem of_mem {key : String} (hkey : key ∈ keys) (hissue : issue ∈ children key) :
    Descends children keys issue :=
  ⟨key, .parent hkey, hissue⟩

theorem child {child : Issue} (h : Descends children keys issue)
    (hchild : child ∈ children issue.key) : Descends children keys child := by
  obtain ⟨key, hreach, hissue⟩ := h
  exact ⟨issue.key, .child hreach rfl hissue, hchild⟩

theorem of_subset (hsub : ∀ key ∈ keys, key ∈ others) (h : Descends children keys issue) :
    Descends children others issue := by
  obtain ⟨key, hreach, hissue⟩ := h
  exact ⟨key, hreach.of_subset hsub, hissue⟩

theorem not_nil : ¬ Descends children [] issue := by
  rintro ⟨key, hreach, -⟩
  have hkey : key ∈ ([] : List String) :=
    hreach.mem_of_closed (fun _ h => h) fun _ h => absurd h List.not_mem_nil
  exact List.not_mem_nil hkey

end Descends

/-! ## The walk and the milestones -/

theorem mem_of_ends_below {project : Project} {below : List Issue}
    (hends : (scope.below project).Ends account below)
    (htold : ToldOf (fun key => .ok (children key)) account) {issue : Issue} :
    issue ∈ below ↔ Descends children project.issueKeys issue := by
  unfold Scope.below at hends
  split at hends
  · next hempty =>
      obtain ⟨-, rfl⟩ := Plan.ends_done_iff.1 hends
      rw [List.isEmpty_iff.1 hempty]
      exact iff_of_false List.not_mem_nil Descends.not_nil
  · obtain ⟨found, first, rest, rfl, hwalk, hdone⟩ := Plan.ends_bind_iff.1 hends
    obtain ⟨-, rfl⟩ := Plan.ends_done_iff.1 hdone
    obtain ⟨-, -, -, -, -, hfound⟩ := ends_descendants hwalk fun key below h =>
      htold key below (List.mem_append_left _ h)
    rw [← ValueSet.mem_def, hfound]
    constructor
    · rintro ⟨key, below, hreach, hfetch, hissue⟩
      exact ⟨key, hreach, Except.ok.inj hfetch ▸ hissue⟩
    · rintro ⟨key, hreach, hissue⟩
      exact ⟨key, _, hreach, rfl, hissue⟩

theorem ends_milestone {project : Project} {anchor : Issue} {milestone : Milestone}
    (hends : (scope.milestone project anchor).Ends account milestone) :
    ∃ below, ⟨.children anchor.key, below⟩ ∈ account ∧ milestone.anchor = anchor ∧
      milestone.children = .ofList (below.filter Issue.isWork) ∧
      milestone.changed = milestone.children.filter (·.changedWithin scope.window) := by
  obtain ⟨below, first, _, rfl, hbelow, hrest⟩ := Plan.ends_bind_iff.1 hends
  obtain rfl := Plan.ends_ask_done_iff.1 hbelow
  obtain ⟨comments, second, _, rfl, -, hdone⟩ := Plan.ends_bind_iff.1 hrest
  obtain ⟨-, rfl⟩ := Plan.ends_done_iff.1 hdone
  exact ⟨below, List.mem_append_left _ List.mem_cons_self, rfl, rfl, rfl⟩

/-- There is one milestone for each anchor, in the order of the anchors. -/
theorem ends_milestones {project : Project} {anchors : IssueSet} {milestones : List Milestone}
    (hends : (scope.milestones project anchors).Ends account milestones) :
    milestones.map Milestone.anchor = anchors.toList ∧
      ∀ m ∈ milestones, ∃ below, ⟨.children m.anchor.key, below⟩ ∈ account ∧
        m.children = .ofList (below.filter Issue.isWork) ∧
        m.changed = m.children.filter (·.changedWithin scope.window) := by
  obtain ⟨found, first, rest, rfl, hgather, hdone⟩ := Plan.ends_bind_iff.1 hends
  obtain ⟨rfl, rfl⟩ := Plan.ends_done_iff.1 hdone
  constructor
  · obtain ⟨parts, hparts, hperm, -⟩ := ends_gather hgather
    have hanchors : parts.map (fun part => part.2.anchor) = anchors.toList := by
      refine map_eq_of_forall₂ (List.forall₂_map_left_iff.1 hparts) fun anchor part hpart => ?_
      obtain ⟨_, -, hanchor, -⟩ := ends_milestone hpart
      exact hanchor
    have hfound : (found.map Milestone.anchor).Perm anchors.toList := by
      refine (hperm.map Milestone.anchor).trans (.of_eq ?_)
      rw [List.map_map]
      exact hanchors
    -- the anchors come from a set, so sorting by them puts them in its order
    have hsorted : (sortByAnchor found).Pairwise fun a b => compare a.anchor b.anchor = .lt :=
      increasing_mergeSort Milestone.anchor (hfound.nodup_iff.2 anchors.nodup)
    have hperm : ((sortByAnchor found).map Milestone.anchor).Perm anchors.toList :=
      ((List.mergeSort_perm found _).map Milestone.anchor).trans hfound
    exact eq_of_perm_of_increasing id hperm (List.pairwise_map.2 hsorted) anchors.increasing
  · intro m hm
    have hmem : m ∈ found := (List.mergeSort_perm found _).mem_iff.1 hm
    obtain ⟨task, htask, part, hsub, htaskEnds⟩ := exists_task_of_mem hgather hmem
    obtain ⟨anchor, -, rfl⟩ := List.mem_map.1 htask
    obtain ⟨below, hbelow, rfl, hchildren, hchanged⟩ := ends_milestone htaskEnds
    exact ⟨below, List.mem_append_left _ (hsub hbelow), hchildren, hchanged⟩

/-- What stands directly under an anchor was found by the walk, too. -/
theorem mem_below_of_child {keys : List String} {top below : List Issue} {anchor issue : Issue}
    (htop : ∀ issue ∈ top, issue.key ∈ keys)
    (hbelow : ∀ issue, issue ∈ below ↔ Descends children keys issue)
    (hanchor : anchor ∈ anchors (top ++ below)) (hissue : issue ∈ children anchor.key) :
    issue ∈ below := by
  rw [hbelow]
  rw [anchors, ValueSet.mem_ofList, List.mem_filter, List.mem_append] at hanchor
  rcases hanchor.1 with h | h
  · exact .of_mem (htop anchor h) hissue
  · exact ((hbelow anchor).1 h).child hissue

/-! ## Whole reports -/

/-- Of which issues a report that is not flat is made. -/
theorem exists_top_of_ends {project : Project} {known : PullRequestSet} {report : ProjectReport}
    (hends : (scope.report project known false).Ends account report)
    (hasked : ∀ keys found, ⟨.issues keys, found⟩ ∈ account → ∀ issue ∈ found, issue.key ∈ keys)
    (htold : ToldOf (fun key => .ok (children key)) account) :
    ∃ top below : List Issue, (project.issueKeys = [] → top = []) ∧
      (project.issueKeys ≠ [] → ⟨.issues project.issueKeys, top⟩ ∈ account) ∧
      (∀ issue ∈ top, issue.key ∈ project.issueKeys) ∧
      (∀ issue, issue ∈ below ↔ Descends children project.issueKeys issue) ∧
      report.milestones.map Milestone.anchor = (anchors (top ++ below)).toList ∧
      (∀ m ∈ report.milestones,
        m.children = .ofList ((children m.anchor.key).filter Issue.isWork) ∧
        m.changed = m.children.filter (·.changedWithin scope.window)) ∧
      report.issues = .ofList (below.filter Issue.isWork) ∧
      report.changed = report.issues.filter (·.changedWithin scope.window) := by
  obtain ⟨top, below, a₁, a₂, a₃, a₄, a₅, rfl, htop, hbelow, -, -, hmilestones, -,
    hissues, hchanged, -⟩ := ends_report hends
  obtain ⟨hempty, hsome⟩ := ends_roots htop
  obtain ⟨hanchors, hbuilt⟩ := ends_milestones hmilestones
  have hfound : ∀ issue, issue ∈ below ↔ Descends children project.issueKeys issue := fun _ =>
    mem_of_ends_below hbelow fun key below h => htold key below (by simp [h])
  have hkeys : ∀ issue ∈ top, issue.key ∈ project.issueKeys := by
    intro issue hissue
    by_cases hne : project.issueKeys = []
    · simp [(hempty hne).2] at hissue
    · exact hasked _ _ (by simp [hsome hne]) issue hissue
  refine ⟨top, below, fun h => (hempty h).2, fun h => by simp [hsome h], hkeys, hfound, hanchors,
    fun m hm => ?_, hissues, hchanged⟩
  obtain ⟨under, hunder, hchildren, hchangedOf⟩ := hbuilt m hm
  obtain rfl := Except.ok.inj (htold _ _ (List.mem_append_right _ hunder))
  exact ⟨hchildren, hchangedOf⟩

/-- The milestones of a report stand in the order of their anchors, each of which
comes once: all containers among the issues returned for the keys of the project
and the issues below these keys.  (These are the issues below the ones returned, if
there is one for every key.)  The work items of a milestone are work items of the
report, and those that changed in the window are the ones that did so in the
report.  No issue may be returned for a key that was not asked for, and the
children of a key have to be the same each time. -/
theorem milestones_of_run_report {σ : Type} (world : World sources σ) (s s' : σ) (scope : Scope)
    (project : Project) (known : PullRequestSet) (report : ProjectReport)
    (children : String → List Issue)
    (hrun : (scope.report project known false).run world s = (.ok report, s'))
    (hasked : ∀ keys found,
      ⟨.issues keys, found⟩ ∈ (scope.report project known false).replies world s →
        ∀ issue ∈ found, issue.key ∈ keys)
    (htold : ToldOf (fun key => .ok (children key))
      ((scope.report project known false).replies world s)) :
    ∃ top : List Issue,
      (project.issueKeys = [] → top = []) ∧
      (project.issueKeys ≠ [] →
        ⟨.issues project.issueKeys, top⟩ ∈ (scope.report project known false).replies world s) ∧
      report.milestones.Pairwise (fun a b => compare a.anchor b.anchor = .lt) ∧
      (∀ issue, (∃ m ∈ report.milestones, m.anchor = issue) ↔
        issue.isMilestone = true ∧ (issue ∈ top ∨ Descends children project.issueKeys issue)) ∧
      ((∀ key ∈ project.issueKeys, ∃ issue ∈ top, issue.key = key) → ∀ issue,
        Descends children project.issueKeys issue ↔
          Descends children (top.map Issue.key) issue) ∧
      ∀ m ∈ report.milestones, (∀ issue ∈ m.children, issue ∈ report.issues) ∧
        ∀ issue, issue ∈ m.changed ↔ issue ∈ m.children ∧ issue ∈ report.changed := by
  obtain ⟨top, below, hempty, hsome, hkeys, hfound, hanchors, hbuilt, hissues, hchanged⟩ :=
    exists_top_of_ends (Plan.ends_of_run hrun) hasked htold
  refine ⟨top, hempty, hsome, ?_, fun issue => ?_, fun hall issue => ⟨?_, ?_⟩, fun m hm => ?_⟩
  · have hincreasing : (report.milestones.map Milestone.anchor).Pairwise fun a b =>
        compare a b = .lt := by
      rw [hanchors]
      exact (anchors (top ++ below)).increasing
    exact List.pairwise_map.1 hincreasing
  · rw [← List.mem_map, hanchors, ← ValueSet.mem_def, anchors, ValueSet.mem_ofList,
      List.mem_filter, List.mem_append, hfound]
    exact and_comm
  · refine Descends.of_subset fun key hkey => ?_
    obtain ⟨issue, hissue, rfl⟩ := hall key hkey
    exact List.mem_map_of_mem hissue
  · refine Descends.of_subset fun key hkey => ?_
    obtain ⟨issue, hissue, rfl⟩ := List.mem_map.1 hkey
    exact hkeys issue hissue
  · obtain ⟨hchildren, hchangedOf⟩ := hbuilt m hm
    have hanchor : m.anchor ∈ anchors (top ++ below) := by
      rw [ValueSet.mem_def, ← hanchors]
      exact List.mem_map_of_mem hm
    have hsub : ∀ issue ∈ m.children, issue ∈ report.issues := by
      intro issue hissue
      rw [hchildren, ValueSet.mem_ofList, List.mem_filter] at hissue
      rw [hissues, ValueSet.mem_ofList, List.mem_filter]
      exact ⟨mem_below_of_child hkeys hfound hanchor hissue.1, hissue.2⟩
    refine ⟨hsub, fun issue => ?_⟩
    rw [hchangedOf, hchanged, ValueSet.mem_filter, ValueSet.mem_filter]
    constructor
    · rintro ⟨hissue, hwithin⟩
      exact ⟨hissue, hsub issue hissue, hwithin⟩
    · rintro ⟨hissue, -, hwithin⟩
      exact ⟨hissue, hwithin⟩

/-- The one milestone of the project of the overlap. -/
theorem milestones_of_run_overlap : ∃ report asked,
    (sampleScope.report (sampleProject 1 "Core" ["ENG-1"]) ∅ false).run
        (Plan.recording overlapSnapshot.answer?) [] = (.ok report, asked) ∧
      report.milestones.map Milestone.anchor = [sampleIssue "ENG-1" "Epic" none] ∧
      ∀ m ∈ report.milestones, ∀ issue ∈ m.children, issue ∈ report.issues := by
  have hshows : ((sampleScope.report (sampleProject 1 "Core" ["ENG-1"]) ∅ false).run
      (Plan.recording overlapSnapshot.answer?) []).1.toOption.map
        (fun report => report.milestones.map Milestone.anchor) =
          some [sampleIssue "ENG-1" "Epic" none] := by decide +kernel
  obtain ⟨report, asked, hrun, hshown⟩ := exists_run_of_shows hshows
  obtain ⟨_, -, -, -, -, -, hparts⟩ := milestones_of_run_report _ _ _ _ _ _ report
    (fun key => overlapSnapshot.answer (.children key)) hrun
    (fun keys _ h => Snapshot.eq_answer_of_mem_replies h ▸ overlapSnapshot.key_mem_of_returned keys)
    fun _ _ h => congrArg Except.ok (Snapshot.eq_answer_of_mem_replies h).symm
  exact ⟨report, asked, hrun, hshown, fun m hm => (hparts m hm).1⟩

/-- A container below a key for which no issue is returned. -/
def orphanSnapshot : Snapshot :=
  { Snapshot.blank with children := [("ENG-1", [sampleIssue "ENG-2" "Epic" none])] }

/-- So an anchor need neither be returned for a key of the project nor stand below
an issue that is. -/
theorem not_descends_of_returned :
    ¬ ∀ (scope : Scope) (project : Project) (snapshot : Snapshot) (report : ProjectReport)
      (asked : List Question),
      (scope.report project ∅ false).run (Plan.recording snapshot.answer?) [] =
        (.ok report, asked) →
      (∀ keys, ∀ issue ∈ snapshot.answer (.issues keys), issue.key ∈ keys) →
      ∀ m ∈ report.milestones, m.anchor ∈ snapshot.answer (.issues project.issueKeys) ∨
        Descends (fun key => snapshot.answer (.children key))
          ((snapshot.answer (.issues project.issueKeys)).map Issue.key) m.anchor := by
  intro hreturned
  have hshows : ((sampleScope.report (sampleProject 1 "Core" ["ENG-1"]) ∅ false).run
      (Plan.recording orphanSnapshot.answer?) []).1.toOption.map
        (fun report => report.milestones.map Milestone.anchor) =
          some [sampleIssue "ENG-2" "Epic" none] := by decide +kernel
  obtain ⟨report, asked, hrun, hshown⟩ := exists_run_of_shows hshows
  have hanchor : sampleIssue "ENG-2" "Epic" none ∈ report.milestones.map Milestone.anchor := by
    rw [hshown]
    exact List.mem_cons_self
  obtain ⟨m, hm, -⟩ := List.mem_map.1 hanchor
  have hnone : orphanSnapshot.answer (.issues ["ENG-1"]) = [] := rfl
  rcases hreturned _ _ orphanSnapshot report asked hrun orphanSnapshot.key_mem_of_returned m hm
    with h | h
  · rw [show (sampleProject 1 "Core" ["ENG-1"]).issueKeys = ["ENG-1"] from rfl, hnone] at h
    exact List.not_mem_nil h
  · exact Descends.not_nil h

end TeamDigest.Gather
