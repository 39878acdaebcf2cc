import TeamDigest.Proofs.Gather.Untracked

/-!
# Untracked work that is described twice

Where the tracker does not describe an issue alike each time, the detour of
untracked work by way of its keys shows.  What the projects account for is taken
out by value, but afterwards only keys are left, and the report on untracked work
holds whatever the tracker then returns for them (`mem_issues_iff_of_miscReport`).

So work that a project accounts for may come back, and there is one way for it to
do so: somebody resolved an issue of the same key under another description.
`editedSnapshot` is such a case.
-/

namespace TeamDigest.Gather

open Work Team Report

variable {scope : Scope} {account : List (Reply sources)}

/-- The report on untracked work holds the work items that are returned for the
keys of the untracked issues. -/
theorem mem_issues_iff_of_miscReport {findings : List Finding} {report : ProjectReport}
    (hends : (scope.miscReport findings).Ends account report) {issue : Issue} :
    issue ∈ report.issues ↔ issue.isWork = true ∧ ∃ keys again, keys = report.project.issueKeys ∧
      ⟨.issues keys, again⟩ ∈ account ∧ issue ∈ again := by
  rw [project_of_ends hends]
  obtain ⟨top, below, a₁, a₂, a₃, a₄, a₅, rfl, htop, hbelow, hrollup, hrelated, hmilestones, -,
    hissues, -⟩ := ends_report hends
  obtain ⟨rfl, rfl⟩ := Plan.ends_done_iff.1 hbelow
  obtain ⟨rfl, -⟩ := Plan.ends_done_iff.1 hmilestones
  obtain ⟨hempty, hsome⟩ := ends_roots htop
  rw [hissues, ValueSet.mem_ofList, List.mem_filter, and_comm]
  refine and_congr_right fun _ => ⟨fun hissue => ?_, ?_⟩
  · have hne : (miscProject (untrackedIssues findings)).issueKeys ≠ [] := by
      intro h
      rw [(hempty h).2] at hissue
      exact List.not_mem_nil hissue
    exact ⟨_, below, rfl, by simp [hsome hne], hissue⟩
  · rintro ⟨_, again, rfl, hreply, hissue⟩
    simp only [List.mem_append, List.not_mem_nil, or_false] at hreply
    -- no other stage of a flat report asks for issues
    rcases hreply with (hreply | hreply) | hreply
    · by_cases hne : (miscProject (untrackedIssues findings)).issueKeys = []
      · simp [(hempty hne).1] at hreply
      · rw [hsome hne, List.mem_singleton] at hreply
        obtain ⟨-, hanswer⟩ := Reply.mk.inj hreply
        rwa [← eq_of_heq hanswer]
    · exact absurd ((rollupOf_asksOnly _ _).of_mem hrollup hreply) (by simp)
    · exact absurd ((related_asksOnly _ _).of_mem hrelated hreply) (by simp)

/-- Work that a project accounts for stands in the project of untracked work too if
and only if it is a work item and was returned, just as it is, for the keys of the
untracked issues.  It has to share its key with one of these then, that is with an
issue of another description that was named for one of the people; no issue may be
returned for a key that was not asked for.  `later` tells of what is asked once the
tasks of the digest have ended. -/
theorem mem_misc_issues_iff_of_tracked {σ : Type} (world : World sources σ) (s s' : σ)
    (scope : Scope) (brief : Brief) (digest : Digest) (hmisc : brief.includeMisc = true)
    (hrun : (scope.digest brief).run world s = (.ok digest, s'))
    (hasked : ∀ keys found, ⟨.issues keys, found⟩ ∈ (scope.digest brief).replies world s →
      ∀ issue ∈ found, issue.key ∈ keys) :
    ∃ named misc earlier later findings, digest.projects = named ++ [misc] ∧
      (named.map ProjectReport.project).Perm brief.projects ∧
      misc.project.id = Project.miscId ∧
      (scope.digest brief).replies world s = earlier ++ later ∧
      (Task.gather (scope.tasks brief)).Ends earlier findings ∧
      ∀ report ∈ named, ∀ issue, Tracks report issue →
        (issue ∈ misc.issues ↔ issue.isWork = true ∧ ∃ keys again,
          keys = misc.project.issueKeys ∧ ⟨.issues keys, again⟩ ∈ later ∧ issue ∈ again) ∧
        (issue ∈ misc.issues → ∃ other, other ≠ issue ∧ other.key = issue.key ∧
          (∀ report ∈ named, ¬ Tracks report other) ∧
          ∃ user ∈ brief.people, ∃ issues,
            ⟨.resolved user.lookupId scope.window, issues⟩ ∈ earlier ∧ other ∈ issues) := by
  obtain ⟨findings, misc, earlier, later, last, haccount, htasks, hreport, hincidents, hprojects⟩ :=
    ends_digest hmisc (Plan.ends_of_run hrun)
  have hproject := project_of_ends hreport
  rw [haccount] at hasked
  -- nothing but incidents is asked for after the report on untracked work
  have hlast : ∀ keys again, ⟨Question.issues keys, again⟩ ∈ later ++ last ↔
      ⟨Question.issues keys, again⟩ ∈ later := by
    intro keys again
    rw [List.mem_append]
    exact or_iff_left fun h => absurd ((allIncidents_asksOnly _ _).of_mem hincidents h) (by simp)
  refine ⟨_, misc, earlier, later ++ last, findings, hprojects, projects_of_ends htasks, ?_,
    by rw [haccount, List.append_assoc], htasks, fun report hnamed issue htracks => ⟨?_, ?_⟩⟩
  · rw [hproject]
    rfl
  · simp only [hlast]
    exact mem_issues_iff_of_miscReport hreport
  · intro hissue
    obtain ⟨-, keys, again, rfl, hreply, hmem⟩ := (mem_issues_iff_of_miscReport hreport).1 hissue
    have hkey : issue.key ∈ misc.project.issueKeys :=
      hasked _ _ (List.mem_append_left _ (List.mem_append_right _ hreply)) issue hmem
    rw [hproject] at hkey
    obtain ⟨other, hother, hsame⟩ := List.mem_map.1 hkey
    obtain ⟨hcollected, huntracked⟩ := mem_untrackedIssues.1 hother
    refine ⟨other, ?_, hsame, fun report hnamed => huntracked report (mem_sortByTitle.1 hnamed),
      ((mem_allIssues_of_ends htasks).1 hcollected).2⟩
    rintro rfl
    exact huntracked report (mem_sortByTitle.1 hnamed) htracks

/-! ## An edit between two calls

One person resolved an issue that a project accounts for, but the tracker tells of
it as it was before its last edit. -/

def editedIssue : Issue := { sampleIssue "ENG-2" "Bug" (some ⟨9, 0⟩) with updatedAt := ⟨10, 0⟩ }

def editedSnapshot : Snapshot :=
  { Snapshot.blank with
    issues := [sampleIssue "ENG-1" "Epic" none, editedIssue]
    children := [("ENG-1", [editedIssue])]
    resolved := [("ada", [sampleIssue "ENG-2" "Bug" (some ⟨9, 0⟩)])] }

theorem run_edited : ∃ digest asked,
    (sampleScope.digest overlapBrief).run (Plan.recording editedSnapshot.answer?) [] =
      (.ok digest, asked) ∧
    digest.projects.map (fun report => report.issues.toList) = [[editedIssue], [editedIssue]] :=
  exists_run_of_shows (by decide +kernel)

theorem mem_misc_issues_of_edited : ∃ digest asked,
    (sampleScope.digest overlapBrief).run (Plan.recording editedSnapshot.answer?) [] =
      (.ok digest, asked) ∧
    ∃ named misc, digest.projects = named ++ [misc] ∧
      ∀ report ∈ named, ∀ issue, Tracks report issue → issue ∈ misc.issues →
        ∃ other, other ≠ issue ∧ other.key = issue.key := by
  obtain ⟨digest, asked, hrun, -⟩ := run_edited
  obtain ⟨named, misc, _, _, _, hprojects, -, -, -, -, hissues⟩ :=
    mem_misc_issues_iff_of_tracked _ _ _ sampleScope overlapBrief digest rfl hrun
      fun keys _ h => Snapshot.eq_answer_of_mem_replies h ▸ editedSnapshot.key_mem_of_returned keys
  refine ⟨digest, asked, hrun, named, misc, hprojects, fun report hnamed issue htracks hissue => ?_⟩
  obtain ⟨other, hne, hkey, -⟩ := (hissues report hnamed issue htracks).2 hissue
  exact ⟨other, hne, hkey⟩

/-- So the projects of a digest need not have issues of their own. -/
theorem not_disjoint_issues :
    ¬ ∀ (scope : Scope) (brief : Brief) (snapshot : Snapshot) (digest : Digest)
      (asked : List Question) (named : List ProjectReport) (misc : ProjectReport),
      brief.includeMisc = true →
      (scope.digest brief).run (Plan.recording snapshot.answer?) [] = (.ok digest, asked) →
      digest.projects = named ++ [misc] →
      ∀ report ∈ named, ∀ issue, Tracks report issue → issue ∉ misc.issues := by
  intro hdisjoint
  obtain ⟨digest, asked, hrun, hshown⟩ := run_edited
  obtain ⟨report, _, hprojects, hreport, hrest⟩ := List.map_eq_cons_iff.1 hshown
  obtain ⟨misc, _, rfl, hmisc, hnone⟩ := List.map_eq_cons_iff.1 hrest
  rw [List.map_eq_nil_iff.1 hnone] at hprojects
  refine hdisjoint sampleScope overlapBrief editedSnapshot digest asked [report] misc rfl hrun
    hprojects report List.mem_cons_self editedIssue (.inl ?_) ?_
  · rw [ValueSet.mem_def, hreport]
    exact List.mem_cons_self
  · rw [ValueSet.mem_def, hmisc]
    exact List.mem_cons_self

end TeamDigest.Gather
