import TeamDigest.Proofs.Gather.Settled
import TeamDigest.Proofs.Gather.Untracked

/-!
# The digest as if gathered in sequence

Tasks of a digest go on side by side in three places: the projects and the people
of the digest, the searches for pull requests of each project, and its
milestones.  In a steady world none of these orders shows in the digest: it is
put together from the reports on the projects, each made on its own, and from the
report on what these leave untracked.

## Strategy

Each fan-in forgets the order in its own way.  Pull requests go into a set;
milestones are sorted by their anchors, which are distinct because they come from
a set (`sortByAnchor_of_perm`); reports are sorted by titles, which have to be
distinct (`sortByTitle_of_perm`).  What is untracked depends only on which
findings there are (`untrackedIssues_of_perm`), so the report on it is one and the
same task in every order.
-/

namespace TeamDigest.Gather

open Work Team Report

variable (scope : Scope) (answer : (q : Question) → q.Answer) {brief : Brief}

/-! ## Sorting by distinct keys -/

section Sorting

variable {α κ : Type} [Ord κ] [Std.TransOrd κ] [Std.LawfulEqOrd κ] {xs ys : List α}

theorem increasing_mergeSort (key : α → κ) (hdistinct : (xs.map key).Nodup) :
    (xs.mergeSort fun a b => (compare (key a) (key b)).isLE).Pairwise fun a b =>
      compare (key a) (key b) = .lt := by
  have hsorted : (xs.mergeSort fun a b => (compare (key a) (key b)).isLE).Pairwise fun a b =>
      (compare (key a) (key b)).isLE = true := by
    apply List.pairwise_mergeSort
    · intro a b c hab hbc
      exact Std.TransCmp.isLE_trans hab hbc
    · intro a b
      cases h : compare (key a) (key b) with
      | lt => rfl
      | eq => rfl
      | gt => simp [Std.OrientedCmp.gt_iff_lt.1 h]
  have hkeys : (xs.mergeSort fun a b => (compare (key a) (key b)).isLE).Pairwise fun a b =>
      key a ≠ key b :=
    List.pairwise_map.1 (((List.mergeSort_perm xs _).map key).nodup_iff.2 hdistinct)
  -- sorted, and no two keys equal: so each comparison is strict
  refine (hsorted.and hkeys).imp fun {a b} h => ?_
  cases hab : compare (key a) (key b) with
  | lt => rfl
  | eq => exact absurd (Std.LawfulEqOrd.eq_of_compare hab) h.2
  | gt => simp [hab] at h

/-- Only one order of some values has strictly increasing keys. -/
theorem eq_of_perm_of_increasing (key : α → κ) (hperm : xs.Perm ys)
    (hxs : xs.Pairwise fun a b => compare (key a) (key b) = .lt)
    (hys : ys.Pairwise fun a b => compare (key a) (key b) = .lt) : xs = ys := by
  refine List.Perm.eq_of_pairwise ?_ hxs hys hperm
  intro a b _ _ hab hba
  exact absurd (Std.TransCmp.lt_trans hab hba) (ValueSet.compare_self_ne_lt (key a))

/-- Where the keys are distinct, sorting by them forgets the order. -/
theorem mergeSort_of_perm (key : α → κ) (hperm : xs.Perm ys) (hdistinct : (ys.map key).Nodup) :
    (xs.mergeSort fun a b => (compare (key a) (key b)).isLE) =
      ys.mergeSort fun a b => (compare (key a) (key b)).isLE := by
  have hothers : (xs.map key).Nodup := (hperm.map key).nodup_iff.2 hdistinct
  apply eq_of_perm_of_increasing key
  · exact (List.mergeSort_perm xs _).trans (hperm.trans (List.mergeSort_perm ys _).symm)
  · exact increasing_mergeSort key hothers
  · exact increasing_mergeSort key hdistinct

end Sorting

theorem sortByAnchor_of_perm {found milestones : List Milestone} (hperm : found.Perm milestones)
    (hdistinct : (milestones.map Milestone.anchor).Nodup) :
    sortByAnchor found = sortByAnchor milestones :=
  mergeSort_of_perm Milestone.anchor hperm hdistinct

theorem sortByTitle_of_perm {found reports : List ProjectReport} (hperm : found.Perm reports)
    (hdistinct : (reports.map fun report => report.project.sortTitle).Nodup) :
    sortByTitle found = sortByTitle reports :=
  mergeSort_of_perm (fun report : ProjectReport => report.project.sortTitle) hperm hdistinct

/-! ## The stages of a report -/

/-- The children of each key, as the answers tell of them. -/
def childrenOf : String → Except Error (List Issue) := childrenBy fun q => .ok (answer q)

/-- The hierarchy below a project has an end: finitely many keys come up, no more
than the patience of the scope. -/
def Scope.Exhausts (project : Project) : Prop :=
  ∃ keys : List String, keys.length ≤ scope.patience ∧
    ∀ key, Reachable (childrenOf answer) project.issueKeys key → key ∈ keys

theorem exists_settles_walk {parents visited queue keys : List String} {found : IssueSet}
    {patience : Nat} (hkeys : ∀ key, Reachable (childrenOf answer) parents key → key ∈ keys)
    (hpatience : keys.length ≤ visited.length + patience)
    (h : WalkInvariant (childrenOf answer) parents visited queue found) :
    ∃ result, Settles answer (walk Task.children patience visited queue found) result := by
  induction patience generalizing visited queue found with
  | zero =>
      cases hqueue : queue.dropWhile (· ∈ visited) with
      | nil => exact ⟨found, walk_of_visited hqueue ▸ .pure found⟩
      | cons key rest =>
          have hleft := h.length_lt hqueue hkeys
          omega
  | succ patience ih =>
      cases hqueue : queue.dropWhile (· ∈ visited) with
      | nil => exact ⟨found, walk_of_visited hqueue ▸ .pure found⟩
      | cons key rest =>
          obtain ⟨result, hresult⟩ := ih
            (by rw [List.length_cons]; omega) (h.step hqueue rfl)
          rw [walk_succ_of_unvisited hqueue]
          exact ⟨result, (Settles.call (.children key) (by simp)).bind hresult⟩

theorem exists_settles_below {project : Project} (hproject : scope.Exhausts answer project) :
    ∃ below, Settles answer (scope.below project) below := by
  unfold Scope.below
  split
  · exact ⟨[], .pure []⟩
  · obtain ⟨keys, hlength, hkeys⟩ := hproject
    obtain ⟨found, hfound⟩ := exists_settles_walk answer hkeys (by simpa using hlength) .start
    exact ⟨found.toList, hfound.bind (.pure _)⟩

theorem exists_settles_roots (project : Project) : ∃ top, Settles answer (roots project) top := by
  unfold roots
  split
  · exact ⟨[], .pure []⟩
  · exact ⟨_, .call (.issues project.issueKeys) (by simp)⟩

theorem exists_settles_rollup (window : Window) (resolved : IssueSet) :
    ∃ text, Settles answer (rollupOf window resolved) text := by
  unfold rollupOf
  split
  · exact ⟨_, .pure _⟩
  · exact ⟨_, .call (.rollup (Rollup.issueText resolved)) (by simp)⟩

/-- The searches for pull requests go into a set, whatever their order. -/
theorem exists_settles_related (resolved : IssueSet) (known : PullRequestSet) :
    ∃ found, Settles answer (scope.relatedPullRequests resolved known) found := by
  let lists := resolved.toList.map fun issue =>
    answer (.mentioning issue.key scope.orgs scope.window)
  have hsearches : List.Forall₂ (Settles answer)
      (resolved.toList.map fun issue => Task.mentioning issue.key scope.orgs scope.window)
      lists := by
    rw [List.forall₂_map_left_iff, List.forall₂_map_right_iff, List.forall₂_same]
    exact fun issue _ => .call (.mentioning issue.key scope.orgs scope.window) (by simp)
  refine ⟨known.insertAll lists.flatten, Settles.gather_bind hsearches fun found hperm => ?_⟩
  have hsame : known.insertAll found.flatten = known.insertAll lists.flatten :=
    ValueSet.ext fun p => by
      rw [ValueSet.mem_insertAll, ValueSet.mem_insertAll, hperm.flatten.mem_iff]
  rw [hsame]
  exact .pure _

theorem exists_settles_milestone (project : Project) (anchor : Issue) :
    ∃ milestone, Settles answer (scope.milestone project anchor) milestone ∧
      milestone.anchor = anchor := by
  have hcomments : ∃ comments, Settles answer (recentComments anchor.key) comments := by
    unfold recentComments
    split
    · exact ⟨[], .pure []⟩
    · exact ⟨_, .call (.comments anchor.key commentLimit) (by simp)⟩
  obtain ⟨comments, hcomments⟩ := hcomments
  exact ⟨_, (Settles.call (.children anchor.key) (by simp)).bind (hcomments.bind (.pure _)), rfl⟩

/-- The milestones come in the order of their anchors, whichever is built first. -/
theorem exists_settles_milestones (project : Project) (anchors : IssueSet) :
    ∃ milestones, Settles answer (scope.milestones project anchors) milestones := by
  obtain ⟨milestones, hmilestones⟩ := exists_partners fun anchor (_ : anchor ∈ anchors.toList) =>
    exists_settles_milestone scope answer project anchor
  have hanchors : milestones.map Milestone.anchor = anchors.toList :=
    map_eq_of_forall₂ hmilestones fun _ _ h => h.2
  have hbuilt : List.Forall₂ (Settles answer) (anchors.toList.map (scope.milestone project))
      milestones :=
    List.forall₂_map_left_iff.2 (hmilestones.imp fun _ _ h => h.1)
  refine ⟨sortByAnchor milestones, Settles.gather_bind hbuilt fun found hperm => ?_⟩
  rw [sortByAnchor_of_perm hperm (by rw [hanchors]; exact anchors.nodup)]
  exact .pure _

/-- A report settles, flat or with a walk that does. -/
theorem exists_settles_report_of_below {project : Project} {flat : Bool} (known : PullRequestSet)
    (hproject : flat = true ∨ ∃ below, Settles answer (scope.below project) below) :
    ∃ report, Settles answer (scope.report project known flat) report := by
  obtain ⟨top, htop⟩ := exists_settles_roots answer project
  have hbelow : ∃ below, Settles answer (if flat then pure top else scope.below project) below := by
    cases flat with
    | true => exact ⟨top, .pure top⟩
    | false => exact hproject.resolve_left (by simp)
  obtain ⟨below, hbelow⟩ := hbelow
  obtain ⟨rollup, hrollup⟩ := exists_settles_rollup answer scope.window
    (resolvedWork scope.window below)
  obtain ⟨related, hrelated⟩ := exists_settles_related scope answer
    (resolvedWork scope.window below) known
  have hmilestones : ∃ milestones, Settles answer (if flat then pure [] else
      scope.milestones project (anchors (top ++ below))) milestones := by
    cases flat with
    | true => exact ⟨[], .pure []⟩
    | false => exact exists_settles_milestones scope answer project _
  obtain ⟨milestones, hmilestones⟩ := hmilestones
  rw [report_eq]
  exact ⟨_, htop.bind (hbelow.bind (hrollup.bind (hrelated.bind (hmilestones.bind (.pure _)))))⟩

/-- A report settles, flat or with a hierarchy that the patience is enough for. -/
theorem exists_settles_report {project : Project} {flat : Bool} (known : PullRequestSet)
    (hproject : flat = true ∨ scope.Exhausts answer project) :
    ∃ report, Settles answer (scope.report project known flat) report :=
  exists_settles_report_of_below scope answer known
    (hproject.imp_right (exists_settles_below scope answer))

variable {scope answer} in
theorem project_of_settles {project : Project} {known : PullRequestSet} {flat : Bool}
    {report : ProjectReport} (h : Settles answer (scope.report project known flat) report) :
    report.project = project := by
  obtain ⟨_, hends⟩ := h.exists_ends
  exact project_of_ends hends

/-! ## The findings of the tasks -/

/-- What the tasks about a person bring home. -/
def personFindings (user : User) : List Finding :=
  .issues (answer (.resolved user.lookupId scope.window)) ::
    (user.githubId.map fun login =>
      .pullRequests (answer (.mergedBy login scope.orgs scope.window))).toList

/-- What the tasks of a digest bring home, in the order in which they are
started. -/
def findingsOf (brief : Brief) (reports : List ProjectReport) : List Finding :=
  reports.map .report ++
    if brief.includeMisc then brief.people.flatMap (personFindings scope answer) else []

theorem settles_personTasks (user : User) :
    List.Forall₂ (Settles answer) (scope.personTasks user) (personFindings scope answer user) := by
  have hresolved : Settles answer (Task.resolved user.lookupId scope.window) _ :=
    .call (.resolved user.lookupId scope.window) (by simp)
  refine .cons (hresolved.map Finding.issues) ?_
  cases user.githubId with
  | none => exact .nil
  | some login =>
      have hmerged : Settles answer (Task.mergedBy login scope.orgs scope.window) _ :=
        .call (.mergedBy login scope.orgs scope.window) (by simp)
      exact .cons (hmerged.map Finding.pullRequests) .nil

theorem settles_tasks {reports : List ProjectReport}
    (hreports : List.Forall₂ (fun p report => Settles answer (scope.report p ∅ false) report)
      brief.projects reports) :
    List.Forall₂ (Settles answer) (scope.tasks brief) (findingsOf scope answer brief reports) := by
  refine List.rel_append ?_ ?_
  · rw [List.forall₂_map_left_iff, List.forall₂_map_right_iff]
    exact hreports.imp fun p report h => h.map Finding.report
  · cases brief.includeMisc with
    | false => exact .nil
    | true =>
        refine List.rel_flatMap (List.forall₂_same.2 fun user _ => (rfl : user = user)) ?_
        rintro user _ rfl
        exact settles_personTasks scope answer user

theorem reports_findingsOf (reports : List ProjectReport) :
    Finding.reports (findingsOf scope answer brief reports) = reports := by
  have hnone : Finding.reports
      (if brief.includeMisc then brief.people.flatMap (personFindings scope answer) else []) =
        [] := by
    refine List.filterMap_eq_nil_iff.2 fun finding hfinding => ?_
    split at hfinding
    · obtain ⟨user, -, hfinding⟩ := List.mem_flatMap.1 hfinding
      rcases List.mem_cons.1 hfinding with rfl | hfinding
      · rfl
      · obtain ⟨login, -, rfl⟩ := Option.map_eq_some_iff.1 (Option.mem_toList.1 hfinding)
        rfl
    · simp at hfinding
  have hall := reports_map id reports
  rw [findingsOf, reports_append, hnone, List.append_nil]
  simpa using hall

theorem mem_allIssues_findingsOf (hmisc : brief.includeMisc = true) {reports : List ProjectReport}
    {issue : Issue} :
    issue ∈ Finding.allIssues (findingsOf scope answer brief reports) ↔
      ∃ user ∈ brief.people, issue ∈ answer (.resolved user.lookupId scope.window) := by
  rw [mem_allIssues, findingsOf, hmisc, if_pos rfl]
  constructor
  · rintro ⟨issues, hissues, hissue⟩
    rcases List.mem_append.1 hissues with hreport | hperson
    · simp at hreport
    · obtain ⟨user, huser, hfinding⟩ := List.mem_flatMap.1 hperson
      refine ⟨user, huser, ?_⟩
      rcases List.mem_cons.1 hfinding with h | h
      · rwa [← Finding.issues.inj h]
      · simp at h
  · rintro ⟨user, huser, hissue⟩
    refine ⟨_, List.mem_append_right _ (List.mem_flatMap.2 ⟨user, huser, ?_⟩), hissue⟩
    exact List.mem_cons_self

theorem mem_allPullRequests_findingsOf (hmisc : brief.includeMisc = true)
    {reports : List ProjectReport} {p : PullRequest} :
    p ∈ Finding.allPullRequests (findingsOf scope answer brief reports) ↔
      ∃ user ∈ brief.people, ∃ login, user.githubId = some login ∧
        p ∈ answer (.mergedBy login scope.orgs scope.window) := by
  rw [mem_allPullRequests, findingsOf, hmisc, if_pos rfl]
  constructor
  · rintro ⟨pullRequests, hfound, hp⟩
    rcases List.mem_append.1 hfound with hreport | hperson
    · simp at hreport
    · obtain ⟨user, huser, hfinding⟩ := List.mem_flatMap.1 hperson
      rcases List.mem_cons.1 hfinding with h | h
      · exact absurd h (by simp)
      · obtain ⟨login, hlogin, h⟩ := Option.map_eq_some_iff.1 (Option.mem_toList.1 h)
        exact ⟨user, huser, login, hlogin, Finding.pullRequests.inj h ▸ hp⟩
  · rintro ⟨user, huser, login, hlogin, hp⟩
    refine ⟨_, List.mem_append_right _ (List.mem_flatMap.2 ⟨user, huser, ?_⟩), hp⟩
    exact List.mem_cons_of_mem _ (Option.mem_toList.2 (by rw [hlogin]; rfl))

theorem untrackedIssues_of_perm {found findings : List Finding} (hperm : found.Perm findings) :
    untrackedIssues found = untrackedIssues findings :=
  ValueSet.ext fun issue => by
    simp only [mem_untrackedIssues, mem_allIssues, hperm.mem_iff, (reports_perm hperm).mem_iff]

theorem untrackedPullRequests_of_perm {found findings : List Finding}
    (hperm : found.Perm findings) :
    untrackedPullRequests found = untrackedPullRequests findings :=
  ValueSet.ext fun p => by
    simp only [mem_untrackedPullRequests, mem_allPullRequests, hperm.mem_iff,
      (reports_perm hperm).mem_iff]

/-- The incidents of a digest, one service after the other. -/
def incidentsOf (window : Window) : Option (List String) → Option (List Incident)
  | none => none
  | some [] => none
  | some services => some (services.flatMap fun service => answer (.incidents service window))

theorem settles_allIncidents (window : Window) (services : Option (List String)) :
    Settles answer (allIncidents window services) (incidentsOf answer window services) := by
  rcases services with _ | _ | ⟨service, rest⟩
  · exact .pure none
  · exact .pure none
  · have hfound : List.Forall₂ (Settles answer)
        ((service :: rest).map fun service => Task.incidents service window)
        ((service :: rest).map fun service => answer (.incidents service window)) := by
      rw [List.forall₂_map_left_iff, List.forall₂_map_right_iff, List.forall₂_same]
      exact fun service _ => .call (.incidents service window) (by simp)
    rw [incidentsOf, List.flatMap_def]
    · exact (Settles.all hfound).bind (.pure _)
    · simp

/-! ## The digest -/

/-- The report on untracked work, if there is to be one, settles as well: it is
flat, so its keys need no walk. -/
theorem exists_settles_misc (findings : List Finding) (includeMisc : Bool) :
    ∃ misc, Settles answer
        (if includeMisc then (fun report => [report]) <$> scope.miscReport findings else pure [])
        misc ∧
      (includeMisc = false → misc = []) ∧
      (includeMisc = true → ∃ report, misc = [report] ∧
        Settles answer (scope.miscReport findings) report) := by
  cases includeMisc with
  | false => exact ⟨[], .pure [], fun _ => rfl, by simp⟩
  | true =>
      obtain ⟨report, hreport⟩ := exists_settles_report scope answer
        (untrackedPullRequests findings) (.inl rfl)
      exact ⟨[report], hreport.map _, by simp, fun _ => ⟨report, rfl, hreport⟩⟩

/-- The digest of a steady world is the same whatever order tasks end in, at any
level: it is put together as if everything were gathered in sequence.  The
reports on the projects, each made on its own, come in strictly increasing order
of their titles.  With untracked work there is one more report, a flat one on the
keys, in value order, of the issues that people resolved and that no other report
tracks; it starts from the pull requests of these people that no other report
shows.  As with any walk, the hierarchy below each project has to have an end. -/
theorem settles_digest (answer : (q : Question) → q.Answer) (scope : Scope) (brief : Brief)
    (htitles : (brief.projects.map Project.sortTitle).Nodup)
    (hprojects : ∀ p ∈ brief.projects, scope.Exhausts answer p) :
    ∃ reports named misc,
      List.Forall₂ (fun p report => Settles answer (scope.report p ∅ false) report)
        brief.projects reports ∧
      named.Perm reports ∧
      named.Pairwise (fun a b => compare a.project.sortTitle b.project.sortTitle = .lt) ∧
      (brief.includeMisc = false → misc = []) ∧
      (brief.includeMisc = true → ∃ issues seed report, misc = [report] ∧
        Settles answer (scope.report (miscProject issues) seed true) report ∧
        (∀ issue, issue ∈ issues ↔
          (∃ user ∈ brief.people, issue ∈ answer (.resolved user.lookupId scope.window)) ∧
            ∀ other ∈ named, ¬ Tracks other issue) ∧
        ∀ p, p ∈ seed ↔
          (∃ user ∈ brief.people, ∃ login, user.githubId = some login ∧
            p ∈ answer (.mergedBy login scope.orgs scope.window)) ∧
          ∀ other ∈ named, p ∉ other.pullRequests) ∧
      Settles answer (scope.digest brief)
        { window := scope.window, name := brief.name, projects := named ++ misc
          incidents := incidentsOf answer scope.window brief.services } := by
  obtain ⟨reports, hreports⟩ := exists_partners fun p hp =>
    exists_settles_report scope answer ∅ (.inr (hprojects p hp))
  have hdistinct : (reports.map fun report => report.project.sortTitle).Nodup := by
    rw [← map_eq_of_forall₂ hreports fun _ _ => project_of_settles, List.map_map] at htitles
    exact htitles
  let findings := findingsOf scope answer brief reports
  have hnamed : Finding.reports findings = reports := reports_findingsOf scope answer reports
  obtain ⟨misc, hmisc, hwithout, hwith⟩ :=
    exists_settles_misc scope answer findings brief.includeMisc
  refine ⟨reports, sortByTitle reports, misc, hreports, sortByTitle_perm reports,
    increasing_mergeSort (fun report : ProjectReport => report.project.sortTitle) hdistinct,
    hwithout, fun hinclude => ?_, ?_⟩
  · obtain ⟨report, hreport, hreportSettles⟩ := hwith hinclude
    refine ⟨_, _, report, hreport, hreportSettles, fun issue => ?_, fun p => ?_⟩
    · rw [mem_untrackedIssues, mem_allIssues_findingsOf scope answer hinclude, hnamed]
      simp only [mem_sortByTitle]
    · rw [mem_untrackedPullRequests, mem_allPullRequests_findingsOf scope answer hinclude, hnamed]
      simp only [mem_sortByTitle]
  · rw [digest_eq]
    refine Settles.gather_bind (settles_tasks scope answer hreports) fun found hperm => ?_
    -- in every order, what comes next is the same task
    have hsorted : sortByTitle (Finding.reports found) = sortByTitle reports :=
      sortByTitle_of_perm (hnamed ▸ reports_perm hperm) hdistinct
    have hsame : scope.miscReport found = scope.miscReport findings := by
      unfold Scope.miscReport
      rw [untrackedIssues_of_perm hperm, untrackedPullRequests_of_perm hperm]
    rw [hsorted, hsame]
    have hincidents := settles_allIncidents answer scope.window brief.services
    exact hmisc.bind (hincidents.bind (.pure _))

/-- Two projects, the titles of which are not in order, and the people of
`overlapBrief`. -/
def unorderedBrief : Brief :=
  { overlapBrief with
    projects := [sampleProject 2 "Web" ["OPS-1"], sampleProject 1 "Core" ["ENG-1", "ENG-1"]] }

theorem exhausts_unorderedBrief : ∀ p ∈ unorderedBrief.projects,
    sampleScope.Exhausts overlapSnapshot.answer p := by
  have hclosed : ∀ keys ∈ [["OPS-1"], ["ENG-1", "ENG-2"]], ∀ key ∈ keys,
      ∀ issue ∈ overlapSnapshot.answer (.children key), issue.key ∈ keys := by decide +kernel
  intro p hp
  simp only [unorderedBrief, List.mem_cons, List.not_mem_nil, or_false] at hp
  rcases hp with rfl | rfl
  · refine ⟨["OPS-1"], by decide, fun key hkey => hkey.mem_of_closed (by decide) ?_⟩
    rintro key hkey _ ⟨⟩
    exact hclosed _ (by simp) key hkey
  · refine ⟨["ENG-1", "ENG-2"], by decide, fun key hkey => hkey.mem_of_closed (by decide) ?_⟩
    rintro key hkey _ ⟨⟩
    exact hclosed _ (by simp) key hkey

/-- The report on "Core" stands before that on "Web", and both before the one on
untracked work. -/
theorem settles_unorderedBrief :
    (unorderedBrief.projects.map Project.sortTitle).Nodup ∧
      (∀ p ∈ unorderedBrief.projects, sampleScope.Exhausts overlapSnapshot.answer p) ∧
      ∃ digest core web misc,
        Settles overlapSnapshot.answer (sampleScope.digest unorderedBrief) digest ∧
        digest.projects = [core, web, misc] ∧ core.project.title = "Core" ∧
        web.project.title = "Web" ∧ misc.project.id = Project.miscId := by
  have htitles : (unorderedBrief.projects.map Project.sortTitle).Nodup := by decide +kernel
  obtain ⟨reports, named, misc, hreports, hperm, hincreasing, -, hmisc, hdigest⟩ :=
    settles_digest overlapSnapshot.answer sampleScope unorderedBrief htitles exhausts_unorderedBrief
  obtain ⟨_, _, report, rfl, hreport, -, -⟩ := hmisc rfl
  obtain ⟨web, _, hweb, hrest, rfl⟩ := List.forall₂_cons_left_iff.1 hreports
  obtain ⟨core, _, hcore, hnone, rfl⟩ := List.forall₂_cons_left_iff.1 hrest
  obtain rfl := List.forall₂_nil_left_iff.1 hnone
  have hordered : [core, web].Pairwise fun a b =>
      compare a.project.sortTitle b.project.sortTitle = .lt := by
    rw [List.pairwise_pair, project_of_settles hcore, project_of_settles hweb]
    decide +kernel
  have hnamed : named = [core, web] :=
    eq_of_perm_of_increasing (fun report : ProjectReport => report.project.sortTitle)
      (hperm.trans (.swap core web [])) hincreasing hordered
  refine ⟨htitles, exhausts_unorderedBrief, _, core, web, report, hdigest, by rw [hnamed]; rfl, ?_⟩
  rw [project_of_settles hcore, project_of_settles hweb, project_of_settles hreport]
  exact ⟨rfl, rfl, rfl⟩

end TeamDigest.Gather
