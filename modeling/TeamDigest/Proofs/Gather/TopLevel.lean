import TeamDigest.Proofs.Gather.AskedTwice
import TeamDigest.Proofs.Gather.Milestones

/-!
# Work at the top of a project

The keys of a project name the issues under which its work stands.  What these
issues are is left open: mostly containers, but a key may name a work item, too, and
a type that nobody knows counts as work.  Such an issue is not work of the project
for that.  A project accounts for a work item exactly if the tracker lists it
directly below some issue (`exists_tracks_iff`), be it in the walk down the
hierarchy or for a milestone.

So work at the top of a project, resolved by one of the people and listed below
nothing, is untracked work like any other, even where all answers of the tracker
describe each issue alike.  It would not be shown anywhere else.
-/

namespace TeamDigest.Gather

open Work Team Report

variable {scope : Scope} {brief : Brief} {account : List (Reply sources)} {issue : Issue}

/-! ## What is listed below something -/

/-- Some answer tells that the issue stands directly below another one. -/
def Listed (account : List (Reply sources)) (issue : Issue) : Prop :=
  ∃ key below, ⟨Question.children key, below⟩ ∈ account ∧ issue ∈ below

theorem not_listed_nil : ¬ Listed [] issue := by
  rintro ⟨key, below, hreply, -⟩
  exact List.not_mem_nil hreply

theorem listed_append {first second : List (Reply sources)} :
    Listed (first ++ second) issue ↔ Listed first issue ∨ Listed second issue := by
  simp only [Listed, List.mem_append, or_and_right, exists_or]

theorem listed_children {key : String} {below : List Issue} :
    Listed [⟨.children key, below⟩] issue ↔ issue ∈ below := by
  constructor
  · rintro ⟨other, others, hreply, hissue⟩
    obtain ⟨-, hanswer⟩ := Reply.mk.inj (List.mem_singleton.1 hreply)
    rwa [← eq_of_heq hanswer]
  · exact fun hissue => ⟨key, below, List.mem_singleton_self _, hissue⟩

theorem Listed.of_subset {part : List (Reply sources)} (h : Listed part issue)
    (hsub : part ⊆ account) : Listed account issue := by
  obtain ⟨key, below, hreply, hissue⟩ := h
  exact ⟨key, below, hsub hreply, hissue⟩

/-- A plan that asks for no children learns of none. -/
theorem not_listed_of_ends {α : Type} {task : Task α} {a : α} {allowed : Question → Prop}
    (hasks : task.AsksOnly allowed) (hends : task.Ends account a)
    (hnone : ∀ key, ¬ allowed (.children key)) : ¬ Listed account issue := by
  rintro ⟨key, below, hreply, -⟩
  exact hnone key (hasks.of_mem hends hreply)

/-- A walk finds just what the answers to it list. -/
theorem mem_iff_of_ends_walk {patience : Nat} {visited queue : List String}
    {found result : IssueSet}
    (hends : (walk Task.children patience visited queue found).Ends account result) :
    issue ∈ result ↔ issue ∈ found ∨ Listed account issue := by
  -- one answer is put into `found` at a time, and it stands first in the account
  induction account generalizing patience visited queue found with
  | nil =>
      obtain ⟨-, rfl⟩ := ends_walk_nil hends
      exact (or_iff_left not_listed_nil).symm
  | cons reply account ih =>
      obtain ⟨key, rest, below, fewer, -, -, rfl, hlater⟩ := ends_walk_cons hends
      rw [ih hlater, ValueSet.mem_insertAll, ← List.singleton_append, listed_append,
        listed_children, or_assoc]

theorem mem_iff_of_ends_below {project : Project} {below : List Issue}
    (hends : (scope.below project).Ends account below) :
    issue ∈ below ↔ Listed account issue := by
  unfold Scope.below at hends
  split at hends
  · obtain ⟨rfl, rfl⟩ := Plan.ends_done_iff.1 hends
    exact iff_of_false List.not_mem_nil not_listed_nil
  · obtain ⟨found, walked, rest, rfl, hwalk, hdone⟩ := Plan.ends_bind_iff.1 hends
    obtain ⟨rfl, rfl⟩ := Plan.ends_done_iff.1 hdone
    have hnone : issue ∉ (∅ : IssueSet) := List.not_mem_nil
    rw [List.append_nil, ← ValueSet.mem_def, mem_iff_of_ends_walk hwalk, or_iff_right hnone]

/-- A milestone shows the work items that the answer to it lists. -/
theorem mem_children_iff_of_ends {project : Project} {anchor : Issue} {milestone : Milestone}
    (hends : (scope.milestone project anchor).Ends account milestone) :
    issue ∈ milestone.children ↔ Listed account issue ∧ issue.isWork = true := by
  obtain ⟨below, first, _, rfl, hbelow, hrest⟩ := Plan.ends_bind_iff.1 hends
  obtain rfl := Plan.ends_ask_done_iff.1 hbelow
  obtain ⟨comments, second, _, rfl, hcomments, hdone⟩ := Plan.ends_bind_iff.1 hrest
  obtain ⟨rfl, rfl⟩ := Plan.ends_done_iff.1 hdone
  have hnone : ¬ Listed second issue :=
    not_listed_of_ends (recentComments_asksOnly anchor.key) hcomments (by simp)
  rw [List.append_nil, listed_append, listed_children, or_iff_left hnone]
  show issue ∈ ValueSet.ofList (below.filter Issue.isWork) ↔ _
  rw [ValueSet.mem_ofList, List.mem_filter]

/-- The milestones of a project together show the work items that the answers to
them list. -/
theorem exists_mem_children_iff_of_ends {project : Project} {anchors : IssueSet}
    {milestones : List Milestone}
    (hends : (scope.milestones project anchors).Ends account milestones) :
    (∃ m ∈ milestones, issue ∈ m.children) ↔ Listed account issue ∧ issue.isWork = true := by
  obtain ⟨found, first, rest, rfl, hgather, hdone⟩ := Plan.ends_bind_iff.1 hends
  obtain ⟨rfl, rfl⟩ := Plan.ends_done_iff.1 hdone
  rw [List.append_nil]
  constructor
  · rintro ⟨m, hm, hissue⟩
    obtain ⟨task, htask, part, hsub, htaskEnds⟩ :=
      exists_task_of_mem hgather ((List.mergeSort_perm found _).mem_iff.1 hm)
    obtain ⟨anchor, -, rfl⟩ := List.mem_map.1 htask
    obtain ⟨hlisted, hwork⟩ := (mem_children_iff_of_ends htaskEnds).1 hissue
    exact ⟨hlisted.of_subset hsub, hwork⟩
  · rintro ⟨⟨key, below, hreply, hissue⟩, hwork⟩
    obtain ⟨task, htask, part, m, hpart, hm, htaskEnds⟩ :=
      exists_task_of_reply hgather hreply (by simp)
    obtain ⟨anchor, -, rfl⟩ := List.mem_map.1 htask
    exact ⟨m, (List.mergeSort_perm found _).mem_iff.2 hm,
      (mem_children_iff_of_ends htaskEnds).2 ⟨⟨key, below, hpart, hissue⟩, hwork⟩⟩

/-! ## What projects account for -/

/-- A project accounts for a work item exactly if some answer lists it. -/
theorem tracks_iff_of_ends {project : Project} {known : PullRequestSet} {report : ProjectReport}
    (hends : (scope.report project known false).Ends account report)
    (hwork : issue.isWork = true) : Tracks report issue ↔ Listed account issue := by
  obtain ⟨top, below, a₁, a₂, a₃, a₄, a₅, rfl, htop, hbelow, hrollup, hrelated, hmilestones, -,
    hissues, -⟩ := ends_report hends
  -- only the walk and the milestones ask for children
  have h₁ : ¬ Listed a₁ issue := not_listed_of_ends (roots_asksOnly project) htop (by simp)
  have h₃ : ¬ Listed a₃ issue := not_listed_of_ends (rollupOf_asksOnly _ _) hrollup (by simp)
  have h₄ : ¬ Listed a₄ issue := not_listed_of_ends (related_asksOnly _ _) hrelated (by simp)
  have hanchor : ¬ ∃ m ∈ report.milestones, issue = m.anchor := by
    rintro ⟨m, hm, rfl⟩
    have hmem : m.anchor ∈ anchors (top ++ below) := by
      rw [ValueSet.mem_def, ← (ends_milestones hmilestones).1]
      exact List.mem_map_of_mem hm
    rw [anchors, ValueSet.mem_ofList, List.mem_filter] at hmem
    rw [Issue.isWork_eq_not_isMilestone, hmem.2] at hwork
    exact absurd hwork (by simp)
  have hissue : issue ∈ report.issues ↔ Listed a₂ issue := by
    rw [hissues, ValueSet.mem_ofList, List.mem_filter, mem_iff_of_ends_below hbelow,
      and_iff_left hwork]
  have hchild : (∃ m ∈ report.milestones, issue ∈ m.children) ↔ Listed a₅ issue := by
    rw [exists_mem_children_iff_of_ends hmilestones, and_iff_left hwork]
  simp only [Tracks, listed_append, h₁, h₃, h₄, hissue, ← hchild, false_or, or_false,
    and_or_left, exists_or, hanchor]

/-- The projects of a digest account for a work item exactly if it was listed below
some issue while they were gathered. -/
theorem exists_tracks_iff {findings : List Finding}
    (hends : (Task.gather (scope.tasks brief)).Ends account findings)
    (hwork : issue.isWork = true) :
    (∃ report ∈ Finding.reports findings, Tracks report issue) ↔ Listed account issue := by
  constructor
  · rintro ⟨report, hreport, htracks⟩
    obtain ⟨task, htask, part, hsub, htaskEnds⟩ :=
      exists_task_of_mem hends (mem_reports.1 hreport)
    rcases mem_tasks.1 htask with ⟨p, -, rfl⟩ | ⟨-, user, -, htask⟩
    · obtain ⟨_, hreportEnds, h⟩ := Plan.ends_map_iff.1 htaskEnds
      cases h
      exact ((tracks_iff_of_ends hreportEnds hwork).1 htracks).of_subset hsub
    · rcases ends_of_mem_personTasks htask htaskEnds with ⟨_, -, h⟩ | ⟨_, _, -, -, h⟩
      · cases h
      · cases h
  · rintro ⟨key, below, hreply, hissue⟩
    obtain ⟨task, htask, part, finding, hpart, hfinding, htaskEnds⟩ :=
      exists_task_of_reply hends hreply (by simp)
    rcases mem_tasks.1 htask with ⟨p, -, rfl⟩ | ⟨-, user, -, htask⟩
    · obtain ⟨report, hreportEnds, rfl⟩ := Plan.ends_map_iff.1 htaskEnds
      exact ⟨report, mem_reports.2 hfinding,
        (tracks_iff_of_ends hreportEnds hwork).2 ⟨key, below, hpart, hissue⟩⟩
    -- nobody is asked for children on account of a person
    · rcases ends_of_mem_personTasks htask htaskEnds with ⟨_, rfl, -⟩ | ⟨_, _, -, rfl, -⟩
      · exact absurd (Reply.mk.inj (List.mem_singleton.1 hpart)).1 (by simp)
      · exact absurd (Reply.mk.inj (List.mem_singleton.1 hpart)).1 (by simp)

/-! ## Answers that agree -/

/-- The issues that an answer describes. -/
def described : Reply sources → List Issue
  | ⟨.issues _, found⟩ => found
  | ⟨.children _, below⟩ => below
  | ⟨.resolved _ _, done⟩ => done
  | _ => []

/-- The answers describe each key alike. -/
def AllAgree (given : Reply sources → Prop) : Prop :=
  ∀ first second, given first → given second →
    ∀ issue ∈ described first, ∀ other ∈ described second, issue.key = other.key → issue = other

/-- One of the people resolved the issue, and it was listed below nothing. -/
def LeftOver (scope : Scope) (brief : Brief) (account : List (Reply sources)) (issue : Issue) :
    Prop :=
  (∃ user ∈ brief.people, ∃ issues,
    ⟨.resolved user.lookupId scope.window, issues⟩ ∈ account ∧ issue ∈ issues) ∧
  ¬ Listed account issue

/-- A work item is untracked exactly if it is left over. -/
theorem mem_untrackedIssues_iff_leftOver {findings : List Finding}
    (hmisc : brief.includeMisc = true)
    (hends : (Task.gather (scope.tasks brief)).Ends account findings)
    (hwork : issue.isWork = true) :
    issue ∈ untrackedIssues findings ↔ LeftOver scope brief account issue := by
  rw [mem_untrackedIssues, mem_allIssues_of_ends hends, and_iff_right hmisc, LeftOver,
    ← exists_tracks_iff hends hwork]
  simp only [not_exists, not_and]

/-- An issue that a key of some project names is in the project of untracked work if
and only if it is a work item, by its type, and is returned for the keys of that
project.  Where the answers describe each key alike, its own key is among them just
if it is left over: one of the people resolved it, and it was listed below nothing.
`later` is the account of the report on untracked work. -/
theorem mem_misc_issues_iff_of_topLevel {σ : Type} (world : World sources σ) (s s' : σ)
    (scope : Scope) (brief : Brief) (digest : Digest) (hmisc : brief.includeMisc = true)
    (hrun : (scope.digest brief).run world s = (.ok digest, s'))
    (hagree : AllAgree (· ∈ (scope.digest brief).replies world s)) :
    ∃ named misc findings earlier later last, digest.projects = named ++ [misc] ∧
      (named.map ProjectReport.project).Perm brief.projects ∧
      misc.project.id = Project.miscId ∧
      (scope.digest brief).replies world s = earlier ++ later ++ last ∧
      (Task.gather (scope.tasks brief)).Ends earlier findings ∧
      (scope.miscReport findings).Ends later misc ∧
      ∀ project ∈ brief.projects, ∀ issue, issue.key ∈ project.issueKeys →
        (issue ∈ misc.issues ↔ issue.isWork = true ∧ ∃ keys again,
          keys = misc.project.issueKeys ∧ ⟨.issues keys, again⟩ ∈ later ∧ issue ∈ again) ∧
        (issue ∈ misc.issues → issue.key ∈ misc.project.issueKeys →
          LeftOver scope brief earlier issue) ∧
        (issue.isWork = true → LeftOver scope brief earlier issue →
          issue.key ∈ misc.project.issueKeys) := by
  obtain ⟨findings, misc, earlier, later, last, haccount, htasks, hreport, -, hprojects⟩ :=
    ends_digest hmisc (Plan.ends_of_run hrun)
  have hproject := project_of_ends hreport
  rw [haccount] at hagree
  refine ⟨_, misc, findings, earlier, later, last, hprojects, projects_of_ends htasks, ?_,
    haccount, htasks, hreport, fun project _ issue _ => ⟨?_, ?_, ?_⟩⟩
  · rw [hproject]
    rfl
  · exact mem_issues_iff_of_miscReport hreport
  · intro hissue hkey
    obtain ⟨hwork, keys, again, -, hagain, hmem⟩ :=
      (mem_issues_iff_of_miscReport hreport).1 hissue
    rw [hproject] at hkey
    obtain ⟨other, hother, hsame⟩ := List.mem_map.1 hkey
    -- the key is there on account of an issue that somebody resolved, and the two agree
    obtain ⟨-, user, -, issues, hresolved, hmember⟩ :=
      (mem_allIssues_of_ends htasks).1 (mem_untrackedIssues.1 hother).1
    have hequal : other = issue :=
      hagree ⟨.resolved user.lookupId scope.window, issues⟩ ⟨.issues keys, again⟩
        (List.mem_append_left _ (List.mem_append_left _ hresolved))
        (List.mem_append_left _ (List.mem_append_right _ hagain)) other hmember issue hmem hsame
    exact (mem_untrackedIssues_iff_leftOver hmisc htasks hwork).1 (hequal ▸ hother)
  · intro hwork hleft
    rw [hproject]
    exact List.mem_map_of_mem ((mem_untrackedIssues_iff_leftOver hmisc htasks hwork).2 hleft)

/-! ## A story at the top

Two keys name the work of a project, a story and something below it.  One person
resolved both, and the tracker always describes them alike. -/

/-- All issues that a snapshot describes. -/
def Snapshot.allIssues (snapshot : Snapshot) : List Issue :=
  snapshot.issues ++ snapshot.children.flatMap Prod.snd ++ snapshot.resolved.flatMap Prod.snd

theorem Snapshot.mem_flatMap_of_under {α : Type} {key : String} {table : List (String × List α)}
    {a : α} (h : a ∈ Snapshot.under key table) : a ∈ table.flatMap Prod.snd := by
  unfold Snapshot.under at h
  cases hfound : table.lookup key with
  | none => simp [hfound] at h
  | some values =>
      rw [hfound] at h
      obtain ⟨before, after, rfl, -⟩ := List.lookup_eq_some_iff.1 hfound
      exact List.mem_flatMap.2 ⟨(key, values), by simp, h⟩

theorem Snapshot.mem_allIssues_of_described {snapshot : Snapshot} {reply : Reply sources}
    (hgiven : reply.answer = snapshot.answer reply.question) (h : issue ∈ described reply) :
    issue ∈ snapshot.allIssues := by
  obtain ⟨q, answer⟩ := reply
  obtain rfl : answer = snapshot.answer q := hgiven
  simp only [Snapshot.allIssues, List.mem_append]
  cases q with
  | issues keys =>
      obtain ⟨key, -, hfind⟩ := List.mem_filterMap.1 h
      exact .inl (.inl (List.mem_of_find?_eq_some hfind))
  | children key => exact .inl (.inr (Snapshot.mem_flatMap_of_under h))
  | resolved person window => exact .inr (Snapshot.mem_flatMap_of_under h)
  | comments => simp [described] at h
  | resolvedCount => simp [described] at h
  | mergedBy => simp [described] at h
  | mentioning => simp [described] at h
  | incidents => simp [described] at h
  | rollup => simp [described] at h
  | turns => simp [described] at h

/-- Where no two issues of a snapshot share their key, its answers agree. -/
theorem Snapshot.allAgree {snapshot : Snapshot}
    (h : ∀ issue ∈ snapshot.allIssues, ∀ other ∈ snapshot.allIssues,
      issue.key = other.key → issue = other) :
    AllAgree fun reply => reply.answer = snapshot.answer reply.question :=
  fun _ _ hfirst hsecond issue hissue other hother =>
    h issue (Snapshot.mem_allIssues_of_described hfirst hissue) other
      (Snapshot.mem_allIssues_of_described hsecond hother)

def topLevelBrief : Brief :=
  { overlapBrief with projects := [sampleProject 1 "Core" ["ENG-1", "ENG-2"]] }

def topLevelSnapshot : Snapshot :=
  let story := sampleIssue "ENG-1" "Story" (some ⟨9, 0⟩)
  let below := sampleIssue "ENG-2" "Initiative" (some ⟨9, 0⟩)
  { Snapshot.blank with
    issues := [story, below]
    children := [("ENG-1", [below])]
    resolved := [("ada", [story, below])] }

theorem allAgree_topLevelSnapshot :
    AllAgree fun reply => reply.answer = topLevelSnapshot.answer reply.question :=
  Snapshot.allAgree (by decide +kernel)

theorem run_topLevel : ∃ digest asked report misc,
    (sampleScope.digest topLevelBrief).run (Plan.recording topLevelSnapshot.answer?) [] =
      (.ok digest, asked) ∧
    digest.projects = [report] ++ [misc] ∧ misc.project.issueKeys = ["ENG-1"] ∧
    sampleIssue "ENG-1" "Story" (some ⟨9, 0⟩) ∈ misc.issues := by
  have hshows : ((sampleScope.digest topLevelBrief).run
      (Plan.recording topLevelSnapshot.answer?) []).1.toOption.map (fun digest =>
        digest.projects.map fun report => (report.project.issueKeys, report.issues.toList)) =
      some [(["ENG-1", "ENG-2"], [sampleIssue "ENG-2" "Initiative" (some ⟨9, 0⟩)]),
        (["ENG-1"], [sampleIssue "ENG-1" "Story" (some ⟨9, 0⟩)])] := by decide +kernel
  obtain ⟨digest, asked, hrun, hshown⟩ := exists_run_of_shows hshows
  obtain ⟨report, _, hprojects, -, hrest⟩ := List.map_eq_cons_iff.1 hshown
  obtain ⟨misc, _, rfl, hmisc, hnone⟩ := List.map_eq_cons_iff.1 hrest
  obtain ⟨hkeys, hissues⟩ := Prod.mk.inj hmisc
  rw [List.map_eq_nil_iff.1 hnone] at hprojects
  refine ⟨digest, asked, report, misc, hrun, hprojects, hkeys, ?_⟩
  rw [ValueSet.mem_def, hissues]
  exact List.mem_cons_self

theorem mem_misc_issues_of_topLevel :
    ∃ digest asked, (sampleScope.digest topLevelBrief).run
        (Plan.recording topLevelSnapshot.answer?) [] = (.ok digest, asked) ∧
      AllAgree (· ∈ (sampleScope.digest topLevelBrief).replies
        (Plan.recording topLevelSnapshot.answer?) []) ∧
      ∃ named misc earlier, digest.projects = named ++ [misc] ∧
        sampleIssue "ENG-1" "Story" (some ⟨9, 0⟩) ∈ misc.issues ∧
        LeftOver sampleScope topLevelBrief earlier (sampleIssue "ENG-1" "Story" (some ⟨9, 0⟩)) := by
  obtain ⟨digest, asked, report, shown, hrun, hpair, hkeys, hmem⟩ := run_topLevel
  have hagree : AllAgree (· ∈ (sampleScope.digest topLevelBrief).replies
      (Plan.recording topLevelSnapshot.answer?) []) := fun first second hfirst hsecond =>
    allAgree_topLevelSnapshot first second (Snapshot.eq_answer_of_mem_replies hfirst)
      (Snapshot.eq_answer_of_mem_replies hsecond)
  obtain ⟨named, misc, _, earlier, _, _, hprojects, -, -, -, -, -, hissues⟩ :=
    mem_misc_issues_iff_of_topLevel _ _ _ sampleScope topLevelBrief digest rfl hrun hagree
  obtain ⟨-, hsame⟩ := List.append_inj' (hprojects.symm.trans hpair) rfl
  obtain rfl : misc = shown := List.head_eq_of_cons_eq hsame
  obtain ⟨-, hleft, -⟩ := hissues (sampleProject 1 "Core" ["ENG-1", "ENG-2"]) List.mem_cons_self
    (sampleIssue "ENG-1" "Story" (some ⟨9, 0⟩)) (by decide)
  refine ⟨digest, asked, hrun, hagree, named, misc, earlier, hprojects, hmem, hleft hmem ?_⟩
  rw [hkeys]
  exact List.mem_cons_self

/-- So an issue that a key of a project names may be in the project of untracked
work, though all answers agree. -/
theorem not_absent_topLevel :
    ¬ ∀ (scope : Scope) (brief : Brief) (snapshot : Snapshot) (digest : Digest)
      (asked : List Question) (named : List ProjectReport) (misc : ProjectReport),
      brief.includeMisc = true →
      (scope.digest brief).run (Plan.recording snapshot.answer?) [] = (.ok digest, asked) →
      (AllAgree fun reply => reply.answer = snapshot.answer reply.question) →
      digest.projects = named ++ [misc] →
      ∀ project ∈ brief.projects, ∀ issue ∈ misc.issues, issue.key ∉ project.issueKeys := by
  intro habsent
  obtain ⟨digest, asked, report, misc, hrun, hprojects, -, hmem⟩ := run_topLevel
  exact habsent sampleScope topLevelBrief topLevelSnapshot digest asked [report] misc rfl hrun
    allAgree_topLevelSnapshot hprojects (sampleProject 1 "Core" ["ENG-1", "ENG-2"])
    List.mem_cons_self (sampleIssue "ENG-1" "Story" (some ⟨9, 0⟩)) hmem (by decide)

end TeamDigest.Gather
