import TeamDigest.Proofs.Gather.Untracked

/-!
# The resolved work of a report

A report works out twice which work was resolved in the window: to begin with from
all the issues it found, and once more when it is shown, from the work items that
changed in the window.  The rollup and the searches for pull requests go by the
first set, the readers of a report see the second.

The two are one set (`resolvedIssues_eq`), so what a report shows as resolved is
what was acted on.  Its account tells what that was (`filter_aboutResolved`):
nothing at all for an empty set, else one request for a rollup of the whole set
and then one search for each of its members.
-/

namespace TeamDigest.Gather

open Work Team Report

variable {scope : Scope} {account : List (Reply sources)}

/-- Holds of the questions that a report puts because work was resolved. -/
def Question.aboutResolved : Question → Bool
  | .rollup _ | .mentioning _ _ _ => true
  | _ => false

/-- The work that a report shows as resolved, `ProjectReport.resolved` as a set. -/
def resolvedIssues (report : ProjectReport) : IssueSet :=
  report.changed.filter (·.completedWithin report.window)

theorem resolvedIssues_eq {report : ProjectReport} {below : List Issue}
    (hissues : report.issues = .ofList (below.filter Issue.isWork))
    (hchanged : report.changed = report.issues.filter (·.changedWithin scope.window))
    (hwindow : report.window = scope.window) :
    resolvedIssues report = resolvedWork scope.window below :=
  ValueSet.ext fun _ => mem_resolved_iff hissues hchanged hwindow

/-! ## What is asked because work was resolved -/

/-- A rollup of no work is not asked for; one of some work is, once. -/
theorem ends_rollupOf {window : Window} {resolved : IssueSet} {text : String}
    (hends : (rollupOf window resolved).Ends account text) :
    (resolved.toList = [] → account = [] ∧ text = window.noUpdates) ∧
      (resolved.toList ≠ [] → account = [⟨.rollup (Rollup.issueText resolved), text⟩]) := by
  unfold rollupOf at hends
  split at hends
  · next hempty =>
      have hnil : resolved.toList = [] := List.isEmpty_iff.1 hempty
      exact ⟨fun _ => Plan.ends_done_iff.1 hends, fun h => absurd hnil h⟩
  · next hsome =>
      have hne : resolved.toList ≠ [] := fun h => hsome (List.isEmpty_iff.2 h)
      exact ⟨fun h => absurd h hne, fun _ => Plan.ends_ask_done_iff.1 hends⟩

/-- Only two stages of a report put questions about resolved work. -/
theorem filter_aboutResolved {project : Project} {known : PullRequestSet} {flat : Bool}
    {report : ProjectReport} (hends : (scope.report project known flat).Ends account report) :
    ∃ rollups searches,
      (rollupOf scope.window (resolvedIssues report)).Ends rollups report.rollup ∧
      (scope.relatedPullRequests (resolvedIssues report) known).Ends searches
        report.pullRequests ∧
      account.filter (fun reply => reply.question.aboutResolved) =
        (rollups ++ searches).filter fun reply => reply.question.aboutResolved := by
  obtain ⟨top, below, a₁, a₂, a₃, a₄, a₅, rfl, htop, hbelow, hrollup, hrelated, hmilestones, -,
    hissues, hchanged, -, hwindow⟩ := ends_report hends
  rw [← resolvedIssues_eq hissues hchanged hwindow] at hrollup hrelated
  refine ⟨a₃, a₄, hrollup, hrelated, ?_⟩
  have h₁ : a₁.filter (fun reply => reply.question.aboutResolved) = [] := by
    refine (roots_asksOnly project).filter_eq_nil htop ?_
    rintro _ rfl
    rfl
  have h₂ : a₂.filter (fun reply => reply.question.aboutResolved) = [] := by
    cases flat with
    | true => rw [(Plan.ends_done_iff.1 hbelow).1, List.filter_nil]
    | false =>
        refine (below_asksOnly project).filter_eq_nil hbelow ?_
        rintro _ ⟨key, rfl⟩
        rfl
  have h₅ : a₅.filter (fun reply => reply.question.aboutResolved) = [] := by
    cases flat with
    | true => rw [(Plan.ends_done_iff.1 hmilestones).1, List.filter_nil]
    | false =>
        refine (milestones_asksOnly project _).filter_eq_nil hmilestones ?_
        rintro _ (⟨key, rfl⟩ | ⟨key, limit, rfl⟩ | ⟨n, rfl⟩)
        · rfl
        · rfl
        · rfl
  simp only [List.filter_append, h₁, h₂, h₅, List.nil_append, List.append_nil]

/-! ## Whole reports -/

/-- What a report shows as resolved in its window is what was acted on.  Where it
shows nothing, its rollup says so, and no question about resolved work was put.
Where it shows something, there was one request for a rollup, of just the issues
shown, and then one search for each of them, by its key.  The pull requests of the
report are those known before and those that these searches found. -/
theorem resolved_of_run_report {σ : Type} (world : World sources σ) (s s' : σ) (scope : Scope)
    (project : Project) (known : PullRequestSet) (flat : Bool) (report : ProjectReport)
    (hrun : (scope.report project known flat).run world s = (.ok report, s')) :
    (resolvedIssues report).toList = report.resolved ∧
    (report.resolved = [] → report.rollup = scope.window.noUpdates ∧
      ∀ reply ∈ (scope.report project known flat).replies world s,
        reply.question.aboutResolved = false) ∧
    ∃ searches : List (Issue × List PullRequest), searches.map Prod.fst = report.resolved ∧
      (report.resolved ≠ [] →
        ((scope.report project known flat).replies world s).filter
            (fun reply => reply.question.aboutResolved) =
          ⟨.rollup (Rollup.issueText (resolvedIssues report)), report.rollup⟩ ::
            searches.map fun search =>
              ⟨.mentioning search.1.key scope.orgs scope.window, search.2⟩) ∧
      ∀ p, p ∈ report.pullRequests ↔ p ∈ known ∨ ∃ search ∈ searches, p ∈ search.2 := by
  obtain ⟨rollups, account, hrollup, hrelated, hasked⟩ :=
    filter_aboutResolved (Plan.ends_of_run hrun)
  obtain ⟨searches, hissues, ⟨n, turns, rfl⟩, hfound⟩ := ends_related hrelated
  obtain ⟨hnothing, hsomething⟩ := ends_rollupOf hrollup
  refine ⟨rfl, fun hempty => ?_, searches, hissues, fun hne => ?_, hfound⟩
  · obtain ⟨rfl, hplaceholder⟩ := hnothing hempty
    obtain rfl : searches = [] := List.map_eq_nil_iff.1 (hissues.trans hempty)
    refine ⟨hplaceholder, fun reply hreply => ?_⟩
    have hnone := List.filter_eq_nil_iff.1 (hasked.trans rfl) reply hreply
    simpa using hnone
  · obtain rfl := hsomething hne
    have hall : (searches.map fun search =>
        (⟨.mentioning search.1.key scope.orgs scope.window, search.2⟩ : Reply sources)).filter
          (fun reply => reply.question.aboutResolved) =
        searches.map fun search =>
          ⟨.mentioning search.1.key scope.orgs scope.window, search.2⟩ := by
      refine List.filter_eq_self.2 fun reply hreply => ?_
      obtain ⟨search, -, rfl⟩ := List.mem_map.1 hreply
      rfl
    rw [hasked, List.singleton_append, List.filter_cons_of_pos rfl, List.filter_append, hall]
    exact congrArg (_ :: ·) (List.append_nil _)

/-- The report on the project of the overlap shows one issue, and two questions were
put about it. -/
theorem resolved_of_run_overlap : ∃ report asked,
    (sampleScope.report (sampleProject 1 "Core" ["ENG-1"]) ∅ false).run
        (Plan.recording overlapSnapshot.answer?) [] = (.ok report, asked) ∧
      report.resolved.length = 1 ∧
      (((sampleScope.report (sampleProject 1 "Core" ["ENG-1"]) ∅ false).replies
        (Plan.recording overlapSnapshot.answer?) []).filter
          fun reply => reply.question.aboutResolved).length = 2 := by
  have hshows : ((sampleScope.report (sampleProject 1 "Core" ["ENG-1"]) ∅ false).run
      (Plan.recording overlapSnapshot.answer?) []).1.toOption.map
        (fun report => report.resolved.length) = some 1 := by decide +kernel
  obtain ⟨report, asked, hrun, hshown⟩ := exists_run_of_shows hshows
  obtain ⟨-, -, searches, hissues, hasked, -⟩ := resolved_of_run_report _ _ _ _ _ _ _ report hrun
  have hne : report.resolved ≠ [] := List.ne_nil_of_length_pos (by omega)
  refine ⟨report, asked, hrun, hshown, ?_⟩
  rw [hasked hne, List.length_cons, List.length_map, ← List.length_map Prod.fst, hissues, hshown]

end TeamDigest.Gather
