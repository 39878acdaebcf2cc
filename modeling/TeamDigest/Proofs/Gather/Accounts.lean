import TeamDigest.Gather.Digest
import TeamDigest.Proofs.Gather.Hierarchy

/-!
# Accounts of a gathering

What the account of a gathering says of what was gathered, one statement for
each of its parts: tasks side by side (`ends_gather`), the searches for pull
requests (`ends_related`), the report on a project (`ends_report`), the
reports among the findings of a digest (`reports_of_ends`) and the digest
(`ends_digest`).

Tasks that go on side by side have one account each, and these may have been
answered in any way; only the order in which they stand is fixed here.  So a
statement about all accounts holds however the tasks take turns.
-/

namespace TeamDigest.Gather

open Work Team Report

variable {scope : Scope} {brief : Brief} {account : List (Reply sources)}

/-! ## Pairs of lists -/

section Pairs

variable {α β γ : Type} {R : α → β → Prop}

private theorem exists_right {xs : List α} {ys : List β} (h : List.Forall₂ R xs ys) {x : α}
    (hx : x ∈ xs) : ∃ y ∈ ys, R x y := by
  induction h with
  | nil => simp at hx
  | cons hhead _ ih =>
      rcases List.mem_cons.1 hx with rfl | hx
      · exact ⟨_, List.mem_cons_self, hhead⟩
      · obtain ⟨y, hy, hxy⟩ := ih hx
        exact ⟨y, List.mem_cons_of_mem _ hy, hxy⟩

private theorem exists_left {xs : List α} {ys : List β} (h : List.Forall₂ R xs ys) {y : β}
    (hy : y ∈ ys) : ∃ x ∈ xs, R x y := by
  obtain ⟨x, hx, hxy⟩ := exists_right h.flip hy
  exact ⟨x, hx, hxy⟩

/-- Where each partner of `xs` comes from some value, the values stand in a row
too. -/
theorem exists_origins {S : α → γ → Prop} {g : γ → β} {xs : List α} {ys : List β}
    (h : List.Forall₂ R xs ys) (horigin : ∀ x y, R x y → ∃ c, S x c ∧ y = g c) :
    ∃ cs, List.Forall₂ S xs cs ∧ ys = cs.map g := by
  induction h with
  | nil => exact ⟨[], .nil, rfl⟩
  | cons hhead _ ih =>
      obtain ⟨c, hc, rfl⟩ := horigin _ _ hhead
      obtain ⟨cs, hcs, rfl⟩ := ih
      exact ⟨c :: cs, .cons hc hcs, rfl⟩

private theorem exists_append {xs₁ xs₂ : List α} {ys : List β}
    (h : List.Forall₂ R (xs₁ ++ xs₂) ys) :
    ∃ ys₁ ys₂, ys = ys₁ ++ ys₂ ∧ List.Forall₂ R xs₁ ys₁ ∧ List.Forall₂ R xs₂ ys₂ :=
  ⟨ys.take xs₁.length, ys.drop xs₁.length, (List.take_append_drop ..).symm,
    (List.forall₂_take_append ys xs₁ xs₂ h.flip).flip,
    (List.forall₂_drop_append ys xs₁ xs₂ h.flip).flip⟩

/-- Where each member of `xs` has a partner, the partners stand in a row too. -/
theorem exists_partners {xs : List α} (h : ∀ x ∈ xs, ∃ y, R x y) :
    ∃ ys, List.Forall₂ R xs ys := by
  induction xs with
  | nil => exact ⟨[], .nil⟩
  | cons x xs ih =>
      obtain ⟨⟨y, hy⟩, hxs⟩ := List.forall_mem_cons.1 h
      obtain ⟨ys, hys⟩ := ih hxs
      exact ⟨y :: ys, .cons hy hys⟩

/-- Where partners know what they stand for, they give the list back. -/
theorem map_eq_of_forall₂ {f : β → α} {xs : List α} {ys : List β} (h : List.Forall₂ R xs ys)
    (hf : ∀ x y, R x y → f y = x) : ys.map f = xs := by
  induction h with
  | nil => rfl
  | cons hhead _ ih => rw [List.map_cons, hf _ _ hhead, ih]

end Pairs

/-! ## Tasks side by side -/

/-- Tasks side by side have one account each; their results stand in some order,
which is the last thing the account tells. -/
theorem ends_gather {α : Type} {tasks : List (Task α)} {found : List α}
    (hends : (Task.gather tasks).Ends account found) :
    ∃ parts : List (List (Reply sources) × α),
      List.Forall₂ (fun task part => task.Ends part.1 part.2) tasks parts ∧
      found.Perm (parts.map Prod.snd) ∧
      ∃ n turns, account = (parts.map Prod.fst).flatten ++ [⟨.turns n, turns⟩] := by
  obtain ⟨results, first, rest, rfl, hall, hturns⟩ := Plan.ends_bind_iff.1 hends
  obtain ⟨parts, hparts, rfl, rfl⟩ := Plan.ends_all_iff.1 hall
  obtain ⟨turns, last, rfl, hlast⟩ := Plan.ends_ask_iff.1 hturns
  obtain ⟨rfl, rfl⟩ := Plan.ends_done_iff.1 hlast
  exact ⟨parts, hparts, Turns.arrange_perm _ turns, _, turns, rfl⟩

/-- What was found side by side was found by one of the tasks. -/
theorem exists_task_of_mem {α : Type} {tasks : List (Task α)} {found : List α}
    (hends : (Task.gather tasks).Ends account found) {a : α} (ha : a ∈ found) :
    ∃ task ∈ tasks, ∃ part, part ⊆ account ∧ task.Ends part a := by
  obtain ⟨parts, hparts, hperm, n, turns, rfl⟩ := ends_gather hends
  obtain ⟨part, hpart, rfl⟩ := List.mem_map.1 (hperm.mem_iff.1 ha)
  obtain ⟨task, htask, htaskEnds⟩ := exists_left hparts hpart
  refine ⟨task, htask, part.1, fun reply hreply => ?_, htaskEnds⟩
  exact List.mem_append_left _ (List.mem_flatten.2 ⟨part.1, List.mem_map_of_mem hpart, hreply⟩)

/-- Each of the tasks side by side ends, on a part of the account. -/
theorem exists_part_of_task {α : Type} {tasks : List (Task α)} {found : List α}
    (hends : (Task.gather tasks).Ends account found) {task : Task α} (htask : task ∈ tasks) :
    ∃ part a, part ⊆ account ∧ task.Ends part a := by
  obtain ⟨parts, hparts, -, n, turns, rfl⟩ := ends_gather hends
  obtain ⟨part, hpart, htaskEnds⟩ := exists_right hparts htask
  refine ⟨part.1, part.2, fun reply hreply => ?_, htaskEnds⟩
  exact List.mem_append_left _ (List.mem_flatten.2 ⟨part.1, List.mem_map_of_mem hpart, hreply⟩)

/-- A reply to tasks side by side is a reply to one of them, unless it tells of
the order in which they end. -/
theorem exists_task_of_reply {α : Type} {tasks : List (Task α)} {found : List α}
    (hends : (Task.gather tasks).Ends account found) {reply : Reply sources}
    (hreply : reply ∈ account) (hturns : ∀ n, reply.question ≠ .turns n) :
    ∃ task ∈ tasks, ∃ part a, reply ∈ part ∧ a ∈ found ∧ task.Ends part a := by
  obtain ⟨parts, hparts, hperm, n, turns, rfl⟩ := ends_gather hends
  rcases List.mem_append.1 hreply with hreply | hreply
  · obtain ⟨first, hfirst, hmem⟩ := List.mem_flatten.1 hreply
    obtain ⟨part, hpart, rfl⟩ := List.mem_map.1 hfirst
    obtain ⟨task, htask, htaskEnds⟩ := exists_left hparts hpart
    exact ⟨task, htask, part.1, part.2, hmem,
      hperm.mem_iff.2 (List.mem_map_of_mem hpart), htaskEnds⟩
  · rw [List.mem_singleton] at hreply
    subst hreply
    exact absurd rfl (hturns n)

/-- There is one search for each resolved issue, in their order, and what goes
with the work are the pull requests known before and those found. -/
theorem ends_related {resolved : IssueSet} {known found : PullRequestSet}
    (hends : (scope.relatedPullRequests resolved known).Ends account found) :
    ∃ searches : List (Issue × List PullRequest), searches.map Prod.fst = resolved.toList ∧
      (∃ n turns, account = searches.map (fun search =>
        ⟨.mentioning search.1.key scope.orgs scope.window, search.2⟩) ++ [⟨.turns n, turns⟩]) ∧
      ∀ p, p ∈ found ↔ p ∈ known ∨ ∃ search ∈ searches, p ∈ search.2 := by
  obtain ⟨lists, first, rest, rfl, hgather, hdone⟩ := Plan.ends_bind_iff.1 hends
  obtain ⟨rfl, rfl⟩ := Plan.ends_done_iff.1 hdone
  obtain ⟨parts, hparts, hperm, n, turns, rfl⟩ := ends_gather hgather
  -- each part is the account of one search, with the answer to it
  obtain ⟨searches, hsearches, rfl⟩ := exists_origins
    (S := fun issue (search : Issue × List PullRequest) => search.1 = issue)
    (g := fun search => ([⟨.mentioning search.1.key scope.orgs scope.window, search.2⟩], search.2))
    (List.forall₂_map_left_iff.1 hparts) fun issue part hpart =>
      ⟨(issue, part.2), rfl, Prod.ext (Plan.ends_ask_done_iff.1 hpart) rfl⟩
  refine ⟨searches, map_eq_of_forall₂ hsearches fun _ _ h => h, ⟨n, turns, ?_⟩, fun p => ?_⟩
  · rw [List.append_nil, List.map_map]
    exact congrArg (· ++ _) (List.flatMap_pure_eq_map _ searches)
  · rw [ValueSet.mem_insertAll, hperm.flatten.mem_iff, List.map_map, ← List.flatMap_def,
      List.mem_flatMap]
    rfl

/-- The pull requests that go with resolved work are those known before and the
answers to the searches for the keys of that work. -/
theorem mem_of_ends_related {resolved : IssueSet} {known found : PullRequestSet}
    (hends : (scope.relatedPullRequests resolved known).Ends account found) {p : PullRequest} :
    p ∈ found ↔ p ∈ known ∨ ∃ issue ∈ resolved, ∃ answer,
      ⟨.mentioning issue.key scope.orgs scope.window, answer⟩ ∈ account ∧ p ∈ answer := by
  obtain ⟨searches, hissues, ⟨n, turns, rfl⟩, hfound⟩ := ends_related hends
  rw [hfound]
  refine or_congr_right ?_
  constructor
  · rintro ⟨search, hsearch, hp⟩
    refine ⟨search.1, ?_, search.2, ?_, hp⟩
    · rw [ValueSet.mem_def, ← hissues]
      exact List.mem_map_of_mem hsearch
    · exact List.mem_append_left _ (List.mem_map_of_mem hsearch)
  · rintro ⟨issue, hissue, answer, hanswer, hp⟩
    rcases List.mem_append.1 hanswer with hanswer | hanswer
    · obtain ⟨search, hsearch, h⟩ := List.mem_map.1 hanswer
      obtain ⟨-, hanswer⟩ := Reply.mk.inj h
      exact ⟨search, hsearch, by rwa [eq_of_heq hanswer]⟩
    · simp at hanswer

/-! ## The report on a project -/

/-- The stages of a report. -/
theorem report_eq (project : Project) (known : PullRequestSet) (flat : Bool) :
    scope.report project known flat =
      roots project >>= fun top =>
      (if flat then pure top else scope.below project) >>= fun below =>
      rollupOf scope.window (resolvedWork scope.window below) >>= fun rollup =>
      scope.relatedPullRequests (resolvedWork scope.window below) known >>= fun pullRequests =>
      (if flat then pure [] else scope.milestones project (anchors (top ++ below))) >>=
        fun milestones =>
      pure
        { project, rollup, issues := .ofList (below.filter Issue.isWork)
          changed :=
            (ValueSet.ofList (below.filter Issue.isWork)).filter (·.changedWithin scope.window)
          pullRequests, milestones
          tagOwners := project.tagMilestoneOwners
          window := scope.window } := by
  unfold Scope.report
  cases flat <;> rfl

/-- The account of a report is made up of those of its stages; the fields of the
report come from what these end with. -/
theorem ends_report {project : Project} {known : PullRequestSet} {flat : Bool}
    {report : ProjectReport} (hends : (scope.report project known flat).Ends account report) :
    ∃ top below a₁ a₂ a₃ a₄ a₅, account = a₁ ++ a₂ ++ a₃ ++ a₄ ++ a₅ ∧
      (roots project).Ends a₁ top ∧
      (if flat then pure top else scope.below project).Ends a₂ below ∧
      (rollupOf scope.window (resolvedWork scope.window below)).Ends a₃ report.rollup ∧
      (scope.relatedPullRequests (resolvedWork scope.window below) known).Ends a₄
        report.pullRequests ∧
      (if flat then pure [] else
        scope.milestones project (anchors (top ++ below))).Ends a₅ report.milestones ∧
      report.project = project ∧ report.issues = .ofList (below.filter Issue.isWork) ∧
      report.changed = report.issues.filter (·.changedWithin scope.window) ∧
      report.tagOwners = project.tagMilestoneOwners ∧ report.window = scope.window := by
  rw [report_eq] at hends
  obtain ⟨top, a₁, _, rfl, htop, hends⟩ := Plan.ends_bind_iff.1 hends
  obtain ⟨below, a₂, _, rfl, hbelow, hends⟩ := Plan.ends_bind_iff.1 hends
  obtain ⟨rollup, a₃, _, rfl, hrollup, hends⟩ := Plan.ends_bind_iff.1 hends
  obtain ⟨related, a₄, _, rfl, hrelated, hends⟩ := Plan.ends_bind_iff.1 hends
  obtain ⟨milestones, a₅, _, rfl, hmilestones, hends⟩ := Plan.ends_bind_iff.1 hends
  obtain ⟨rfl, rfl⟩ := Plan.ends_done_iff.1 hends
  exact ⟨top, below, a₁, a₂, a₃, a₄, a₅, by simp, htop, hbelow, hrollup, hrelated, hmilestones,
    rfl, rfl, rfl, rfl, rfl⟩

theorem project_of_ends {project : Project} {known : PullRequestSet} {flat : Bool}
    {report : ProjectReport} (hends : (scope.report project known flat).Ends account report) :
    report.project = project := by
  obtain ⟨_, _, _, _, _, _, _, _, _, _, _, _, _, hproject, _⟩ := ends_report hends
  exact hproject

/-- Without keys nothing is asked for, else the issues with just these keys. -/
theorem ends_roots {project : Project} {top : List Issue}
    (hends : (roots project).Ends account top) :
    (project.issueKeys = [] → account = [] ∧ top = []) ∧
      (project.issueKeys ≠ [] → account = [⟨.issues project.issueKeys, top⟩]) := by
  unfold roots at hends
  split at hends
  · next hempty =>
      exact ⟨fun _ => Plan.ends_done_iff.1 hends, fun h => absurd (List.isEmpty_iff.1 hempty) h⟩
  · next hsome =>
      have hne : project.issueKeys ≠ [] := fun h => hsome (List.isEmpty_iff.2 h)
      exact ⟨fun h => absurd h hne, fun _ => Plan.ends_ask_done_iff.1 hends⟩

/-- The work of a report that was resolved in the window is the work that the
report started from. -/
theorem mem_resolved_iff {report : ProjectReport} {below : List Issue}
    (hissues : report.issues = .ofList (below.filter Issue.isWork))
    (hchanged : report.changed = report.issues.filter (·.changedWithin scope.window))
    (hwindow : report.window = scope.window) {issue : Issue} :
    issue ∈ report.resolved ↔ issue ∈ resolvedWork scope.window below := by
  rw [ProjectReport.resolved, List.mem_filter, ← ValueSet.mem_def, hchanged, hissues, hwindow]
  simp only [resolvedWork, ValueSet.mem_filter, ValueSet.mem_ofList, List.mem_filter,
    Issue.changedWithin, Bool.and_eq_true, Bool.or_eq_true]
  constructor
  · rintro ⟨⟨⟨hbelow, hwork⟩, -⟩, hcompleted⟩
    exact ⟨hbelow, hcompleted, hwork⟩
  · rintro ⟨hbelow, hcompleted, hwork⟩
    exact ⟨⟨⟨hbelow, hwork⟩, .inl hcompleted⟩, hcompleted⟩

/-! ### The questions of each stage -/

private theorem ask_asksOnly {q : Question} {allowed : Question → Prop} (hq : allowed q) :
    (Plan.ask q Plan.done : Plan sources q.Answer).AsksOnly allowed :=
  ⟨hq, fun _ => trivial⟩

theorem gather_asksOnly {α : Type} {tasks : List (Task α)} {allowed : Question → Prop}
    (htasks : ∀ task ∈ tasks, task.AsksOnly allowed) (hturns : ∀ n, allowed (.turns n)) :
    (Task.gather tasks).AsksOnly allowed :=
  (Plan.AsksOnly.all htasks).bind fun results => ⟨hturns results.length, fun _ => trivial⟩

theorem roots_asksOnly (project : Project) :
    (roots project).AsksOnly fun q : Question => q = .issues project.issueKeys := by
  unfold roots
  split
  · trivial
  · exact ask_asksOnly rfl

theorem walk_asksOnly {patience : Nat} {visited queue : List String} {found : IssueSet} :
    (walk Task.children patience visited queue found).AsksOnly fun q : Question =>
      ∃ key, q = .children key := by
  induction patience generalizing visited queue found with
  | zero =>
      cases hqueue : queue.dropWhile (· ∈ visited) with
      | nil => rw [walk_of_visited hqueue]; trivial
      | cons key rest => rw [walk_zero_of_unvisited hqueue]; trivial
  | succ patience ih =>
      cases hqueue : queue.dropWhile (· ∈ visited) with
      | nil => rw [walk_of_visited hqueue]; trivial
      | cons key rest =>
          rw [walk_succ_of_unvisited hqueue]
          exact (ask_asksOnly (q := .children key) ⟨key, rfl⟩).bind fun _ => ih

theorem below_asksOnly (project : Project) :
    (scope.below project).AsksOnly fun q : Question => ∃ key, q = .children key := by
  unfold Scope.below
  split
  · trivial
  · exact walk_asksOnly.bind fun _ => trivial

theorem rollupOf_asksOnly (window : Window) (resolved : IssueSet) :
    (rollupOf window resolved).AsksOnly fun q : Question => ∃ text, q = .rollup text := by
  unfold rollupOf
  split
  · trivial
  · exact ask_asksOnly ⟨_, rfl⟩

theorem related_asksOnly (resolved : IssueSet) (known : PullRequestSet) :
    (scope.relatedPullRequests resolved known).AsksOnly fun q : Question =>
      (∃ issue ∈ resolved, q = .mentioning issue.key scope.orgs scope.window) ∨
        ∃ n, q = .turns n := by
  refine Plan.AsksOnly.bind (gather_asksOnly ?_ fun n => .inr ⟨n, rfl⟩) fun _ => trivial
  intro task htask
  obtain ⟨issue, hissue, rfl⟩ := List.mem_map.1 htask
  exact ask_asksOnly (.inl ⟨issue, hissue, rfl⟩)

theorem recentComments_asksOnly (key : String) :
    (recentComments key).AsksOnly fun q : Question => q = .comments key commentLimit := by
  unfold recentComments
  split
  · trivial
  · exact ask_asksOnly rfl

theorem milestone_asksOnly (project : Project) (anchor : Issue) :
    (scope.milestone project anchor).AsksOnly fun q : Question =>
      (∃ key, q = .children key) ∨ ∃ key limit, q = .comments key limit := by
  refine Plan.AsksOnly.bind (ask_asksOnly (.inl ⟨anchor.key, rfl⟩)) fun _ =>
    Plan.AsksOnly.bind ?_ fun _ => trivial
  exact (recentComments_asksOnly anchor.key).mono fun q hq => .inr ⟨_, _, hq⟩

theorem milestones_asksOnly (project : Project) (anchors : IssueSet) :
    (scope.milestones project anchors).AsksOnly fun q : Question =>
      (∃ key, q = .children key) ∨ (∃ key limit, q = .comments key limit) ∨
        ∃ n, q = .turns n := by
  refine Plan.AsksOnly.bind (gather_asksOnly ?_ fun n => .inr (.inr ⟨n, rfl⟩)) fun _ => trivial
  intro task htask
  obtain ⟨anchor, -, rfl⟩ := List.mem_map.1 htask
  exact (milestone_asksOnly project anchor).mono fun q hq => hq.imp_right .inl

/-- The questions that the report on a project may put. -/
def Question.ofReport : Question → Prop
  | .issues _ | .children _ | .comments _ _ | .mentioning _ _ _ | .rollup _ | .turns _ => True
  | _ => False

theorem report_asksOnly (project : Project) (known : PullRequestSet) (flat : Bool) :
    (scope.report project known flat).AsksOnly Question.ofReport := by
  rw [report_eq]
  refine Plan.AsksOnly.bind ?_ fun top => Plan.AsksOnly.bind ?_ fun below =>
    Plan.AsksOnly.bind ?_ fun rollup => Plan.AsksOnly.bind ?_ fun related =>
    Plan.AsksOnly.bind ?_ fun milestones => trivial
  · refine (roots_asksOnly project).mono ?_
    rintro _ rfl
    trivial
  · cases flat with
    | true => trivial
    | false =>
        refine (below_asksOnly project).mono ?_
        rintro _ ⟨key, rfl⟩
        trivial
  · refine (rollupOf_asksOnly _ _).mono ?_
    rintro _ ⟨text, rfl⟩
    trivial
  · refine (related_asksOnly _ _).mono ?_
    rintro _ (⟨issue, -, rfl⟩ | ⟨n, rfl⟩)
    · trivial
    · trivial
  · cases flat with
    | true => trivial
    | false =>
        refine (milestones_asksOnly project _).mono ?_
        rintro _ (⟨key, rfl⟩ | ⟨key, limit, rfl⟩ | ⟨n, rfl⟩)
        · trivial
        · trivial
        · trivial

/-- The pull requests of a report are those known before and the answers to the
searches for the keys of the work that it reports as resolved. -/
theorem mem_pullRequests_of_ends {project : Project} {known : PullRequestSet} {flat : Bool}
    {report : ProjectReport} (hends : (scope.report project known flat).Ends account report)
    {p : PullRequest} :
    p ∈ report.pullRequests ↔ p ∈ known ∨ ∃ issue ∈ report.resolved, ∃ answer,
      ⟨.mentioning issue.key scope.orgs scope.window, answer⟩ ∈ account ∧ p ∈ answer := by
  obtain ⟨top, below, a₁, a₂, a₃, a₄, a₅, rfl, htop, hbelow, hrollup, hrelated, hmilestones, -,
    hissues, hchanged, -, hwindow⟩ := ends_report hends
  rw [mem_of_ends_related hrelated]
  simp only [mem_resolved_iff hissues hchanged hwindow]
  refine or_congr_right (exists_congr fun issue => and_congr_right fun _ =>
    exists_congr fun answer => and_congr_left fun _ => ?_)
  simp only [List.mem_append]
  -- no other stage searches for pull requests
  constructor
  · exact fun h => .inl (.inr h)
  · rintro ((((h | h) | h) | h) | h)
    · exact absurd ((roots_asksOnly project).of_mem htop h) (by simp)
    · cases flat with
      | true => simp [(Plan.ends_done_iff.1 hbelow).1] at h
      | false => exact absurd ((below_asksOnly project).of_mem hbelow h) (by simp)
    · exact absurd ((rollupOf_asksOnly _ _).of_mem hrollup h) (by simp)
    · exact h
    · cases flat with
      | true => simp [(Plan.ends_done_iff.1 hmilestones).1] at h
      | false => exact absurd ((milestones_asksOnly project _).of_mem hmilestones h) (by simp)

/-! ## The tasks of a digest -/

/-- A task about a person ends with the answer to its one question. -/
theorem ends_of_mem_personTasks {user : User} {task : Task Finding} {finding : Finding}
    (htask : task ∈ scope.personTasks user) (hends : task.Ends account finding) :
    (∃ issues, account = [⟨.resolved user.lookupId scope.window, issues⟩] ∧
      finding = .issues issues) ∨
    ∃ login pullRequests, user.githubId = some login ∧
      account = [⟨.mergedBy login scope.orgs scope.window, pullRequests⟩] ∧
      finding = .pullRequests pullRequests := by
  rcases List.mem_cons.1 htask with rfl | htask
  · obtain ⟨issues, hissues, rfl⟩ := Plan.ends_map_iff.1 hends
    exact .inl ⟨issues, Plan.ends_ask_done_iff.1 hissues, rfl⟩
  · obtain ⟨login, hlogin, rfl⟩ := Option.map_eq_some_iff.1 (Option.mem_toList.1 htask)
    obtain ⟨found, hfound, rfl⟩ := Plan.ends_map_iff.1 hends
    exact .inr ⟨login, found, hlogin, Plan.ends_ask_done_iff.1 hfound, rfl⟩

/-- A task of a digest is the report on a project or a task about a person. -/
theorem mem_tasks {task : Task Finding} :
    task ∈ scope.tasks brief ↔
      (∃ p ∈ brief.projects, task = Finding.report <$> scope.report p ∅ false) ∨
      (brief.includeMisc = true ∧ ∃ user ∈ brief.people, task ∈ scope.personTasks user) := by
  rw [Scope.tasks, List.mem_append, List.mem_map]
  refine or_congr ?_ ?_
  · simp only [eq_comm]
  · cases brief.includeMisc with
    | false => simp
    | true => simp

theorem reports_perm {findings others : List Finding} (h : findings.Perm others) :
    (Finding.reports findings).Perm (Finding.reports others) :=
  h.filterMap _

theorem reports_append (findings others : List Finding) :
    Finding.reports (findings ++ others) = Finding.reports findings ++ Finding.reports others :=
  List.filterMap_append

theorem reports_map {α : Type} (f : α → ProjectReport) (xs : List α) :
    Finding.reports (xs.map fun x => .report (f x)) = xs.map f := by
  simp [Finding.reports, List.filterMap_map]

theorem mem_reports {findings : List Finding} {report : ProjectReport} :
    report ∈ Finding.reports findings ↔ .report report ∈ findings := by
  rw [Finding.reports, List.mem_filterMap]
  constructor
  · rintro ⟨finding, hfinding, hreport⟩
    cases finding with
    | report other => exact Option.some.inj hreport ▸ hfinding
    | issues issues => simp at hreport
    | pullRequests pullRequests => simp at hreport
  · exact fun hreport => ⟨_, hreport, rfl⟩

theorem mem_allIssues {findings : List Finding} {issue : Issue} :
    issue ∈ Finding.allIssues findings ↔ ∃ issues, .issues issues ∈ findings ∧ issue ∈ issues := by
  rw [Finding.allIssues, List.mem_flatMap]
  constructor
  · rintro ⟨finding, hfinding, hissue⟩
    cases finding with
    | issues issues => exact ⟨issues, hfinding, hissue⟩
    | report report => simp at hissue
    | pullRequests pullRequests => simp at hissue
  · rintro ⟨issues, hissues, hissue⟩
    exact ⟨_, hissues, hissue⟩

theorem mem_allPullRequests {findings : List Finding} {p : PullRequest} :
    p ∈ Finding.allPullRequests findings ↔
      ∃ pullRequests, .pullRequests pullRequests ∈ findings ∧ p ∈ pullRequests := by
  rw [Finding.allPullRequests, List.mem_flatMap]
  constructor
  · rintro ⟨finding, hfinding, hp⟩
    cases finding with
    | pullRequests pullRequests => exact ⟨pullRequests, hfinding, hp⟩
    | report report => simp at hp
    | issues issues => simp at hp
  · rintro ⟨pullRequests, hpullRequests, hp⟩
    exact ⟨_, hpullRequests, hp⟩

/-- The issues found by the tasks of a digest are the answers that were given
about the people whose untracked work is of interest. -/
theorem mem_allIssues_of_ends {findings : List Finding}
    (hends : (Task.gather (scope.tasks brief)).Ends account findings) {issue : Issue} :
    issue ∈ Finding.allIssues findings ↔ brief.includeMisc = true ∧
      ∃ user ∈ brief.people, ∃ issues,
        ⟨.resolved user.lookupId scope.window, issues⟩ ∈ account ∧ issue ∈ issues := by
  rw [mem_allIssues]
  constructor
  · rintro ⟨issues, hissues, hissue⟩
    obtain ⟨task, htask, part, hsub, htaskEnds⟩ := exists_task_of_mem hends hissues
    rcases mem_tasks.1 htask with ⟨p, -, rfl⟩ | ⟨hmisc, user, huser, htask⟩
    -- the task of a project brings home a report, not issues
    · obtain ⟨_, _, h⟩ := Plan.ends_map_iff.1 htaskEnds
      cases h
    · rcases ends_of_mem_personTasks htask htaskEnds with ⟨_, rfl, h⟩ | ⟨_, _, _, _, h⟩
      · cases h
        exact ⟨hmisc, user, huser, issues, hsub List.mem_cons_self, hissue⟩
      · cases h
  · rintro ⟨-, user, huser, issues, hreply, hissue⟩
    obtain ⟨task, htask, part, finding, hmem, hfinding, htaskEnds⟩ :=
      exists_task_of_reply hends hreply (by simp)
    -- the reply may belong to the task of someone else with the same id; what matters
    -- is that the issues of the reply are the finding of that task
    rcases mem_tasks.1 htask with ⟨p, -, rfl⟩ | ⟨-, other, -, htask⟩
    · exact absurd ((report_asksOnly p ∅ false).map.of_mem htaskEnds hmem) id
    · rcases ends_of_mem_personTasks htask htaskEnds with ⟨answer, rfl, rfl⟩ | ⟨_, _, _, rfl, _⟩
      · obtain ⟨-, hanswer⟩ := Reply.mk.inj (List.mem_singleton.1 hmem)
        rw [eq_of_heq hanswer] at hissue
        exact ⟨answer, hfinding, hissue⟩
      · exact absurd (Reply.mk.inj (List.mem_singleton.1 hmem)).1 (by simp)

/-- Every person whose untracked work is of interest is asked about. -/
theorem exists_reply_of_mem_people {findings : List Finding} (hmisc : brief.includeMisc = true)
    (hends : (Task.gather (scope.tasks brief)).Ends account findings) {user : User}
    (huser : user ∈ brief.people) :
    ∃ issues, ⟨.resolved user.lookupId scope.window, issues⟩ ∈ account := by
  obtain ⟨part, finding, hsub, htaskEnds⟩ := exists_part_of_task hends
    (mem_tasks.2 (.inr ⟨hmisc, user, huser, List.mem_cons_self⟩))
  obtain ⟨issues, hissues, -⟩ := Plan.ends_map_iff.1 htaskEnds
  obtain rfl := Plan.ends_ask_done_iff.1 hissues
  exact ⟨issues, hsub List.mem_cons_self⟩

/-- The reports found by the tasks of a digest are one for each project, in some
order. -/
theorem reports_of_ends {findings : List Finding}
    (hends : (Task.gather (scope.tasks brief)).Ends account findings) :
    ∃ parts : List (List (Reply sources) × ProjectReport),
      List.Forall₂ (fun p part => (scope.report p ∅ false).Ends part.1 part.2) brief.projects
        parts ∧
      (Finding.reports findings).Perm (parts.map Prod.snd) := by
  obtain ⟨parts, hparts, hperm, -, -, -⟩ := ends_gather hends
  obtain ⟨first, rest, rfl, hfirst, hrest⟩ := exists_append hparts
  obtain ⟨reports, hreports, rfl⟩ := exists_origins
    (S := fun p (part : List (Reply sources) × ProjectReport) =>
      (scope.report p ∅ false).Ends part.1 part.2)
    (g := fun part => (part.1, Finding.report part.2))
    (List.forall₂_map_left_iff.1 hfirst) fun p part hpart => by
      obtain ⟨report, hreport, h⟩ := Plan.ends_map_iff.1 hpart
      exact ⟨(part.1, report), hreport, Prod.ext rfl h⟩
  -- no task about a person brings a report home
  have hnone : Finding.reports (rest.map Prod.snd) = [] := by
    refine List.filterMap_eq_nil_iff.2 fun finding hfinding => ?_
    obtain ⟨part, hpart, rfl⟩ := List.mem_map.1 hfinding
    obtain ⟨task, htask, htaskEnds⟩ := exists_left hrest hpart
    cases hmisc : brief.includeMisc with
    | false => simp [hmisc] at htask
    | true =>
        rw [hmisc, if_pos rfl] at htask
        obtain ⟨user, -, htask⟩ := List.mem_flatMap.1 htask
        rcases ends_of_mem_personTasks htask htaskEnds with ⟨_, -, h⟩ | ⟨_, _, -, -, h⟩
        · rw [h]
        · rw [h]
  refine ⟨reports, hreports, (reports_perm hperm).trans (.of_eq ?_)⟩
  rw [List.map_append, reports_append, hnone, List.append_nil, List.map_map]
  exact reports_map Prod.snd reports

/-! ## The digest -/

theorem allIncidents_asksOnly (window : Window) (services : Option (List String)) :
    (allIncidents window services).AsksOnly fun q : Question =>
      ∃ service, q = .incidents service window := by
  unfold allIncidents
  split
  · trivial
  · trivial
  · refine Plan.AsksOnly.bind (Plan.AsksOnly.all ?_) fun _ => trivial
    intro task htask
    obtain ⟨service, -, rfl⟩ := List.mem_map.1 htask
    exact ask_asksOnly ⟨service, rfl⟩

/-- The stages of a digest. -/
theorem digest_eq : scope.digest brief =
    Task.gather (scope.tasks brief) >>= fun findings =>
    (if brief.includeMisc then (fun report => [report]) <$> scope.miscReport findings
      else pure []) >>= fun misc =>
    allIncidents scope.window brief.services >>= fun incidents =>
    pure
      { window := scope.window, name := brief.name
        projects := sortByTitle (Finding.reports findings) ++ misc, incidents } := by
  unfold Scope.digest
  cases brief.includeMisc with
  | false => rfl
  | true => simp [map_eq_pure_bind, bind_assoc]

/-- The account of a digest with a project of untracked work is made up of that
of the tasks side by side, that of the report on the project of untracked work,
and that of the incidents. -/
theorem ends_digest {digest : Digest} (hmisc : brief.includeMisc = true)
    (hends : (scope.digest brief).Ends account digest) :
    ∃ findings report earlier later last, account = earlier ++ later ++ last ∧
      (Task.gather (scope.tasks brief)).Ends earlier findings ∧
      (scope.miscReport findings).Ends later report ∧
      (allIncidents scope.window brief.services).Ends last digest.incidents ∧
      digest.projects = sortByTitle (Finding.reports findings) ++ [report] := by
  simp only [digest_eq, hmisc, if_true] at hends
  obtain ⟨findings, earlier, _, rfl, htasks, hends⟩ := Plan.ends_bind_iff.1 hends
  obtain ⟨misc, later, _, rfl, hlater, hends⟩ := Plan.ends_bind_iff.1 hends
  obtain ⟨report, hreport, rfl⟩ := Plan.ends_map_iff.1 hlater
  obtain ⟨incidents, last, _, rfl, hincidents, hends⟩ := Plan.ends_bind_iff.1 hends
  obtain ⟨rfl, rfl⟩ := Plan.ends_done_iff.1 hends
  exact ⟨findings, report, earlier, later, last, by simp, htasks, hreport, hincidents, rfl⟩

/-- Sorting by titles neither loses nor repeats a report. -/
theorem sortByTitle_perm (reports : List ProjectReport) : (sortByTitle reports).Perm reports :=
  List.mergeSort_perm _ _

/-- A digest holds one report for each of its projects. -/
theorem projects_of_ends {findings : List Finding}
    (hends : (Task.gather (scope.tasks brief)).Ends account findings) :
    ((sortByTitle (Finding.reports findings)).map ProjectReport.project).Perm brief.projects := by
  obtain ⟨parts, hparts, hperm⟩ := reports_of_ends hends
  have hprojects : parts.map (fun part => part.2.project) = brief.projects :=
    map_eq_of_forall₂ hparts fun _ _ => project_of_ends
  have hsorted := ((sortByTitle_perm _).trans hperm).map ProjectReport.project
  rw [List.map_map] at hsorted
  exact hsorted.trans (.of_eq hprojects)

end TeamDigest.Gather
