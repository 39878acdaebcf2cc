import TeamDigest.Proofs.Gather.Accounts

/-!
# Untracked work

Work that some person resolved and that no project accounts for stands in a
project of its own.  It gets there on a detour: the resolved issues are put
together, what the projects account for is taken out by value, the keys of the
rest are asked for once more, and a flat report is made of the answers.

Where the tracker describes an issue alike both times, nothing is lost on the
detour and nothing comes in.  Pull requests take another way: those of the people
are cleaned in the same manner, but then the report searches for the keys of its
own work and adds what it finds, so a pull request that mentions tracked and
untracked work is reported twice.
-/

namespace TeamDigest.Gather

open Work Team Report

variable {scope : Scope} {brief : Brief} {account : List (Reply sources)}

/-! ## What projects account for -/

/-- A report accounts for its work items, for the anchors of its milestones and
for the work items under them. -/
def Tracks (report : ProjectReport) (issue : Issue) : Prop :=
  issue ∈ report.issues ∨ ∃ m ∈ report.milestones, issue = m.anchor ∨ issue ∈ m.children

theorem mem_trackedIssues {reports : List ProjectReport} {issue : Issue} :
    issue ∈ trackedIssues reports ↔ ∃ report ∈ reports, Tracks report issue := by
  simp only [trackedIssues, Tracks, List.mem_flatMap, List.mem_append, List.mem_cons,
    ValueSet.mem_def]

theorem mem_trackedPullRequests {reports : List ProjectReport} {p : PullRequest} :
    p ∈ trackedPullRequests reports ↔ ∃ report ∈ reports, p ∈ report.pullRequests := by
  simp only [trackedPullRequests, List.mem_flatMap, ValueSet.mem_def]

theorem mem_untrackedIssues {findings : List Finding} {issue : Issue} :
    issue ∈ untrackedIssues findings ↔ issue ∈ Finding.allIssues findings ∧
      ∀ report ∈ Finding.reports findings, ¬ Tracks report issue := by
  rw [untrackedIssues, ValueSet.mem_without, ValueSet.mem_ofList, mem_trackedIssues]
  simp only [not_exists, not_and]

theorem mem_untrackedPullRequests {findings : List Finding} {p : PullRequest} :
    p ∈ untrackedPullRequests findings ↔ p ∈ Finding.allPullRequests findings ∧
      ∀ report ∈ Finding.reports findings, p ∉ report.pullRequests := by
  rw [untrackedPullRequests, ValueSet.mem_without, ValueSet.mem_ofList, mem_trackedPullRequests]
  simp only [not_exists, not_and]

theorem mem_sortByTitle {reports : List ProjectReport} {report : ProjectReport} :
    report ∈ sortByTitle reports ↔ report ∈ reports :=
  (sortByTitle_perm reports).mem_iff

/-! ## Asking for the same issues again -/

/-- The tracker answers each key on its own, with the issues of `byKey`. -/
def KeyByKey (byKey : String → List Issue) (account : List (Reply sources)) : Prop :=
  ∀ keys found, ⟨Question.issues keys, found⟩ ∈ account → found = keys.flatMap byKey

/-- Where each issue comes back for its key, a set of issues comes back for its
keys. -/
theorem flatMap_keys {byKey : String → List Issue} {issues : List Issue}
    (h : ∀ issue ∈ issues, byKey issue.key = [issue]) :
    (issues.map Issue.key).flatMap byKey = issues := by
  rw [List.flatMap_map, List.flatMap_congr h]
  exact List.flatMap_singleton' issues

/-- The work items of the report on untracked work are those among the untracked
issues, when each of these comes back for its key. -/
theorem mem_issues_of_ends_miscReport {findings : List Finding} {report : ProjectReport}
    {byKey : String → List Issue} (hends : (scope.miscReport findings).Ends account report)
    (hkeyed : KeyByKey byKey account)
    (hback : ∀ issue ∈ untrackedIssues findings, byKey issue.key = [issue]) {issue : Issue} :
    issue ∈ report.issues ↔ issue ∈ untrackedIssues findings ∧ issue.isWork = true := by
  obtain ⟨top, below, a₁, a₂, a₃, a₄, a₅, rfl, htop, hbelow, -, -, -, -, hissues, -⟩ :=
    ends_report hends
  obtain ⟨-, rfl⟩ := Plan.ends_done_iff.1 hbelow
  have hkeys : (miscProject (untrackedIssues findings)).issueKeys.flatMap byKey =
      (untrackedIssues findings).toList := flatMap_keys hback
  have hsame : below = (untrackedIssues findings).toList := by
    -- without keys nothing is asked for, but then nothing is untracked either
    unfold roots at htop
    split at htop
    · next hempty =>
        obtain ⟨-, rfl⟩ := Plan.ends_done_iff.1 htop
        rw [List.isEmpty_iff.1 hempty] at hkeys
        exact hkeys
    · obtain rfl := Plan.ends_ask_done_iff.1 htop
      rw [← hkeys]
      exact hkeyed _ _ (by simp)
  rw [hissues, ValueSet.mem_ofList, List.mem_filter, hsame, ← ValueSet.mem_def]

/-- People are asked about only while the tasks go on side by side. -/
private theorem resolved_mem_iff {findings : List Finding} {report : ProjectReport}
    {services : Option (List String)} {incidents : Option (List Incident)}
    {earlier later last : List (Reply sources)} {person : String} {window : Window}
    {issues : List Issue} (hlater : (scope.miscReport findings).Ends later report)
    (hlast : (allIncidents scope.window services).Ends last incidents) :
    ⟨Question.resolved person window, issues⟩ ∈ earlier ++ later ++ last ↔
      ⟨Question.resolved person window, issues⟩ ∈ earlier := by
  simp only [List.mem_append]
  constructor
  · rintro ((h | h) | h)
    · exact h
    · exact absurd ((report_asksOnly _ _ true).of_mem hlater h) id
    · exact absurd ((allIncidents_asksOnly _ _).of_mem hlast h) (by simp)
  · exact fun h => .inl (.inl h)

/-- The issues of the project of untracked work are exactly the work items that
the tracker named for one of the people and that no other project accounts for,
by value; every one of the people is asked about.  The tracker has to answer key
by key, and for the key of an issue that it names for a person it has to answer
with that issue. -/
theorem mem_misc_issues_iff {σ : Type} (world : World sources σ) (s s' : σ) (scope : Scope)
    (brief : Brief) (digest : Digest) (byKey : String → List Issue)
    (hmisc : brief.includeMisc = true)
    (hrun : (scope.digest brief).run world s = (.ok digest, s'))
    (hkeyed : KeyByKey byKey ((scope.digest brief).replies world s))
    (hback : ∀ user ∈ brief.people, ∀ issues,
      ⟨.resolved user.lookupId scope.window, issues⟩ ∈ (scope.digest brief).replies world s →
        ∀ issue ∈ issues, byKey issue.key = [issue]) :
    ∃ named misc, digest.projects = named ++ [misc] ∧
      (named.map ProjectReport.project).Perm brief.projects ∧
      misc.project.id = Project.miscId ∧
      (∀ user ∈ brief.people, ∃ issues,
        ⟨.resolved user.lookupId scope.window, issues⟩ ∈ (scope.digest brief).replies world s) ∧
      ∀ issue, issue ∈ misc.issues ↔
        issue.isWork = true ∧
        (∃ user ∈ brief.people, ∃ issues,
          ⟨.resolved user.lookupId scope.window, issues⟩ ∈ (scope.digest brief).replies world s ∧
          issue ∈ issues) ∧
        ∀ report ∈ named, ¬ Tracks report issue := by
  obtain ⟨findings, misc, earlier, later, last, haccount, htasks, hreport, hincidents, hprojects⟩ :=
    ends_digest hmisc (Plan.ends_of_run hrun)
  rw [haccount] at hkeyed hback ⊢
  simp only [resolved_mem_iff hreport hincidents] at hback ⊢
  have hcollected : ∀ issue, issue ∈ Finding.allIssues findings ↔ ∃ user ∈ brief.people, ∃ issues,
      ⟨.resolved user.lookupId scope.window, issues⟩ ∈ earlier ∧ issue ∈ issues := by
    intro issue
    rw [mem_allIssues_of_ends htasks]
    exact and_iff_right hmisc
  have hkeyedLater : KeyByKey byKey later := fun keys found h =>
    hkeyed keys found (List.mem_append_left _ (List.mem_append_right _ h))
  -- what is untracked was named for one of the people, so it comes back for its key
  have huntracked : ∀ issue ∈ untrackedIssues findings, byKey issue.key = [issue] := by
    intro issue hissue
    obtain ⟨user, huser, issues, hreply, hmem⟩ :=
      (hcollected issue).1 (mem_untrackedIssues.1 hissue).1
    exact hback user huser issues hreply issue hmem
  refine ⟨_, misc, hprojects, projects_of_ends htasks, ?_,
    fun user => exists_reply_of_mem_people hmisc htasks, fun issue => ?_⟩
  · rw [project_of_ends hreport]
    rfl
  · rw [mem_issues_of_ends_miscReport hreport hkeyedLater huntracked, mem_untrackedIssues,
      hcollected]
    simp only [mem_sortByTitle]
    exact and_comm

/-! ## An overlap

One person resolved work that a project accounts for and work that none does,
and a pull request mentions both. -/

def samplePullRequest (number : Nat) : PullRequest :=
  { repository := "acme/web", number, title := "", url := "", author := none
    createdAt := ⟨0, 0⟩, mergedAt := none }

def sampleProject (id : Int) (title : String) (issueKeys : List String) : Project :=
  { id, title, parentId := none, links := [], leadUserId := none, tagMilestoneOwners := false
    issueKeys }

def sampleUser (id : String) : User :=
  { id, name := id, email := "", trackerId := none, githubId := some id, slackId := none
    misc := true }

def sampleScope : Scope :=
  { users := [], orgs := [], window := ⟨⟨0, 0⟩, ⟨604800, 0⟩⟩, patience := 2 }

def overlapBrief : Brief :=
  { name := "", projects := [sampleProject 1 "Core" ["ENG-1"]], people := [sampleUser "ada"]
    includeMisc := true, services := none }

def overlapSnapshot : Snapshot :=
  let tracked := sampleIssue "ENG-2" "Bug" (some ⟨9, 0⟩)
  let untracked := sampleIssue "OPS-9" "Task" (some ⟨9, 0⟩)
  { Snapshot.blank with
    issues := [sampleIssue "ENG-1" "Epic" none, tracked, untracked]
    children := [("ENG-1", [tracked])]
    resolved := [("ada", [tracked, untracked])]
    byText := [("ENG-2", [samplePullRequest 1]), ("OPS-9", [samplePullRequest 1])] }

/-- What a snapshot holds under a key. -/
def Snapshot.byKey (snapshot : Snapshot) (key : String) : List Issue :=
  (snapshot.issues.find? (·.key == key)).toList

theorem Snapshot.eq_answer_of_mem_replies {α : Type} {snapshot : Snapshot} {task : Task α}
    {s : List Question} {q : Question} {answer : q.Answer}
    (h : ⟨q, answer⟩ ∈ task.replies (Plan.recording snapshot.answer?) s) :
    answer = snapshot.answer q := by
  obtain ⟨_, hanswer⟩ := Plan.world_of_mem_replies h
  have hanswer : snapshot.answer? q = .ok answer := hanswer
  unfold Snapshot.answer? at hanswer
  split at hanswer
  · split at hanswer
    · simp at hanswer
    · exact (Except.ok.inj hanswer).symm
  · exact (Except.ok.inj hanswer).symm

theorem Snapshot.keyByKey {α : Type} (snapshot : Snapshot) (task : Task α) (s : List Question) :
    KeyByKey snapshot.byKey (task.replies (Plan.recording snapshot.answer?) s) := by
  intro keys found hreply
  rw [Snapshot.eq_answer_of_mem_replies hreply]
  exact List.filterMap_eq_flatMap_toList _ _

/-- No issue of a snapshot is returned for a key that was not asked for. -/
theorem Snapshot.key_mem_of_returned (snapshot : Snapshot) (keys : List String) :
    ∀ issue ∈ snapshot.answer (.issues keys), issue.key ∈ keys := by
  intro issue hissue
  obtain ⟨key, hkey, hfind⟩ := List.mem_filterMap.1 hissue
  have hkeyOf := List.find?_some hfind
  rwa [eq_of_beq hkeyOf]

theorem exists_run_of_isOk {α σ : Type} {world : World sources σ} {task : Task α} {s : σ}
    (h : (task.run world s).1.isOk = true) : ∃ a s', task.run world s = (.ok a, s') := by
  cases hrun : task.run world s with
  | mk outcome after =>
      cases outcome with
      | ok a => exact ⟨a, after, rfl⟩
      | error error => simp [hrun, Except.isOk, Except.toBool] at h

/-- A run shows what a reader makes of its result. -/
theorem exists_run_of_shows {α β σ : Type} {world : World sources σ} {task : Task α} {s : σ}
    {f : α → β} {b : β} (h : (task.run world s).1.toOption.map f = some b) :
    ∃ a s', task.run world s = (.ok a, s') ∧ f a = b := by
  obtain ⟨a, ha, hb⟩ := Option.map_eq_some_iff.1 h
  cases hrun : task.run world s with
  | mk outcome after =>
      rw [hrun] at ha
      cases outcome with
      | ok value =>
          obtain rfl := Option.some.inj ha
          exact ⟨value, after, rfl, hb⟩
      | error error => exact absurd ha (by simp [Except.toOption])

theorem run_overlap : ∃ digest asked, (sampleScope.digest overlapBrief).run
    (Plan.recording overlapSnapshot.answer?) [] = (.ok digest, asked) :=
  exists_run_of_isOk (by decide +kernel)

theorem mem_misc_issues_of_overlap :
    ∃ digest asked, (sampleScope.digest overlapBrief).run
        (Plan.recording overlapSnapshot.answer?) [] = (.ok digest, asked) ∧
      KeyByKey overlapSnapshot.byKey ((sampleScope.digest overlapBrief).replies
        (Plan.recording overlapSnapshot.answer?) []) ∧
      ∃ named misc, digest.projects = named ++ [misc] ∧
        ∀ issue, issue ∈ misc.issues ↔ issue.isWork = true ∧
          issue ∈ overlapSnapshot.answer (.resolved "ada" sampleScope.window) ∧
          ∀ report ∈ named, ¬ Tracks report issue := by
  obtain ⟨digest, asked, hrun⟩ := run_overlap
  have hkeyed := overlapSnapshot.keyByKey (sampleScope.digest overlapBrief) []
  have hanswers : ∀ user ∈ overlapBrief.people,
      ∀ issue ∈ overlapSnapshot.answer (.resolved user.lookupId sampleScope.window),
        overlapSnapshot.byKey issue.key = [issue] := by decide +kernel
  obtain ⟨named, misc, hprojects, -, -, hreplies, hissues⟩ := mem_misc_issues_iff _ _ _ sampleScope
    overlapBrief digest overlapSnapshot.byKey rfl hrun hkeyed fun user huser issues hreply =>
      Snapshot.eq_answer_of_mem_replies hreply ▸ hanswers user huser
  refine ⟨digest, asked, hrun, hkeyed, named, misc, hprojects, fun issue => ?_⟩
  rw [hissues]
  constructor
  · rintro ⟨hwork, ⟨user, huser, issues, hreply, hmem⟩, htracked⟩
    obtain rfl := List.mem_singleton.1 huser
    exact ⟨hwork, Snapshot.eq_answer_of_mem_replies hreply ▸ hmem, htracked⟩
  · rintro ⟨hwork, hmem, htracked⟩
    obtain ⟨issues, hreply⟩ := hreplies _ (List.mem_singleton_self _)
    exact ⟨hwork, ⟨_, List.mem_singleton_self _, issues, hreply,
      Snapshot.eq_answer_of_mem_replies hreply ▸ hmem⟩, htracked⟩

/-! ## Pull requests -/

/-- A pull request of a project stands in the project of untracked work too if
and only if a search of the latter found it: one for the key of an issue that is
reported there as resolved.  `later` tells of what is asked once the tasks of the
digest have ended. -/
theorem mem_misc_pullRequests_iff {σ : Type} (world : World sources σ) (s s' : σ) (scope : Scope)
    (brief : Brief) (digest : Digest) (hmisc : brief.includeMisc = true)
    (hrun : (scope.digest brief).run world s = (.ok digest, s')) :
    ∃ named misc earlier later findings, digest.projects = named ++ [misc] ∧
      (named.map ProjectReport.project).Perm brief.projects ∧
      misc.project.id = Project.miscId ∧
      (scope.digest brief).replies world s = earlier ++ later ∧
      (Task.gather (scope.tasks brief)).Ends earlier findings ∧
      ∀ report ∈ named, ∀ p ∈ report.pullRequests,
        (p ∈ misc.pullRequests ↔ ∃ issue ∈ misc.resolved, ∃ answer,
          ⟨.mentioning issue.key scope.orgs scope.window, answer⟩ ∈ later ∧ p ∈ answer) := by
  obtain ⟨findings, misc, earlier, later, last, haccount, htasks, hreport, hincidents, hprojects⟩ :=
    ends_digest hmisc (Plan.ends_of_run hrun)
  refine ⟨_, misc, earlier, later ++ last, findings, hprojects, projects_of_ends htasks, ?_,
    by rw [haccount, List.append_assoc], htasks, fun report hnamed p hp => ?_⟩
  · rw [project_of_ends hreport]
    rfl
  · have hseed : p ∉ untrackedPullRequests findings := fun h =>
      (mem_untrackedPullRequests.1 h).2 report (mem_sortByTitle.1 hnamed) hp
    -- nothing is searched for after the report on untracked work
    have hlast : ∀ text answer,
        ⟨Question.mentioning text scope.orgs scope.window, answer⟩ ∈ later ++ last ↔
          ⟨Question.mentioning text scope.orgs scope.window, answer⟩ ∈ later := by
      intro text answer
      rw [List.mem_append]
      exact or_iff_left fun h => absurd ((allIncidents_asksOnly _ _).of_mem hincidents h) (by simp)
    rw [mem_pullRequests_of_ends hreport, or_iff_right hseed]
    simp only [hlast]

theorem mem_misc_pullRequests_of_overlap :
    ∃ digest asked, (sampleScope.digest overlapBrief).run
        (Plan.recording overlapSnapshot.answer?) [] = (.ok digest, asked) ∧
      ∃ (named : List ProjectReport) (misc : ProjectReport) (account : List (Reply sources)),
        digest.projects = named ++ [misc] ∧
        ∀ report ∈ named, ∀ p ∈ report.pullRequests,
          (p ∈ misc.pullRequests ↔ ∃ issue ∈ misc.resolved, ∃ answer,
            ⟨.mentioning issue.key sampleScope.orgs sampleScope.window, answer⟩ ∈ account ∧
            p ∈ answer) := by
  obtain ⟨digest, asked, hrun⟩ := run_overlap
  obtain ⟨named, misc, _, later, _, hprojects, -, -, -, -, hmentioned⟩ :=
    mem_misc_pullRequests_iff _ _ _ sampleScope overlapBrief digest rfl hrun
  exact ⟨digest, asked, hrun, named, misc, later, hprojects, hmentioned⟩

/-- Both reports show the pull request that mentions work of both. -/
theorem run_overlap_pullRequests :
    ((sampleScope.digest overlapBrief).run
        (Plan.recording overlapSnapshot.answer?) []).1.toOption.map
          (fun digest => digest.projects.map fun report => report.pullRequests.toList) =
      some [[samplePullRequest 1], [samplePullRequest 1]] := by
  decide +kernel

/-- So the projects of a digest need not have pull requests of their own. -/
theorem not_disjoint_pullRequests :
    ¬ ∀ (scope : Scope) (brief : Brief) (snapshot : Snapshot) (digest : Digest)
      (asked : List Question) (named : List ProjectReport) (misc : ProjectReport),
      brief.includeMisc = true →
      (scope.digest brief).run (Plan.recording snapshot.answer?) [] = (.ok digest, asked) →
      digest.projects = named ++ [misc] →
      ∀ report ∈ named, ∀ p ∈ report.pullRequests, p ∉ misc.pullRequests := by
  intro hdisjoint
  obtain ⟨digest, asked, hrun⟩ := run_overlap
  have hshown : digest.projects.map (fun report => report.pullRequests.toList) =
      [[samplePullRequest 1], [samplePullRequest 1]] := by
    have h := run_overlap_pullRequests
    rw [hrun] at h
    exact Option.some.inj h
  obtain ⟨report, _, hprojects, hreport, hrest⟩ := List.map_eq_cons_iff.1 hshown
  obtain ⟨misc, _, rfl, hmisc, hnone⟩ := List.map_eq_cons_iff.1 hrest
  rw [List.map_eq_nil_iff.1 hnone] at hprojects
  refine hdisjoint sampleScope overlapBrief overlapSnapshot digest asked [report] misc rfl hrun
    hprojects report List.mem_cons_self (samplePullRequest 1) ?_ ?_
  · rw [ValueSet.mem_def, hreport]
    exact List.mem_cons_self
  · rw [ValueSet.mem_def, hmisc]
    exact List.mem_cons_self

end TeamDigest.Gather
