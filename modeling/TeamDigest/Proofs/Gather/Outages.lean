import TeamDigest.Proofs.Gather.Sequential
import Mathlib.Data.Set.Defs

/-!
# Digests while some calls are down

Let some calls fail, by their names.  The digest is then gathered exactly if none
of them is made when nothing fails, and it is the same digest: no outage makes for
a digest with something left out.

## Strategy

For a single run this is a fact about plans (`Plan.run_of_outage_iff`), once the
run without the outage is known to end well.  It does, unless the hierarchy
outlasts the patience of the scope: no part of a digest fails for another reason
(`onlyAbandons_digest`).

More is to be said of tasks side by side.  When a call of one of them fails, the
others may have got any distance.  `MayAsk` takes in all they may ask: it follows
each task on its own, whatever becomes of the others.  Of a world that answers
the same call always alike, none of that goes beyond the calls of the one run
without the outage (`mem_calls_of_mayAsk`).  What is behind it is that these calls
do not depend on the orders in which tasks end, stage by stage (`keepsTo_report`,
`keepsTo_digest`).
-/

namespace TeamDigest.Gather

open Work Team Report

variable {scope : Scope} {brief : Brief} {answer : (q : Question) → q.Answer}
  {account part : List (Reply sources)} {α β σ : Type}

/-! ## Calls and tasks side by side -/

section Safe

variable {gives : Reply sources → Prop} {asks : Question → Prop} {fails : Error → Prop}

theorem safe_ask {q : Question} (hq : asks q) :
    (Plan.ask q Plan.done : Task q.Answer).Safe gives asks fails :=
  ⟨hq, fun _ _ => trivial⟩

theorem safe_gather {tasks : List (Task α)} (htasks : ∀ task ∈ tasks, task.Safe gives asks fails)
    (hturns : ∀ n, asks (.turns n)) : (Task.gather tasks).Safe gives asks fails :=
  (Plan.Safe.all htasks).bind fun results _ _ _ => ⟨hturns results.length, fun _ _ => trivial⟩

end Safe

/-! ## What a task fails for by itself -/

/-- Whatever the answers are, the task fails by itself only for want of patience. -/
def OnlyAbandons (task : Task α) : Prop :=
  task.Safe (fun _ => True) (fun _ => True) (· = .abandoned)

namespace OnlyAbandons

theorem ask (q : Question) : OnlyAbandons (Plan.ask q Plan.done : Task q.Answer) :=
  safe_ask trivial

theorem bind {task : Task α} {f : α → Task β} (h : OnlyAbandons task)
    (hf : ∀ a, OnlyAbandons (f a)) : OnlyAbandons (task >>= f) :=
  Plan.Safe.bind h fun a _ _ _ => hf a

theorem map {task : Task α} {f : α → β} (h : OnlyAbandons task) : OnlyAbandons (f <$> task) :=
  Plan.Safe.map h

theorem gather {tasks : List (Task α)} (h : ∀ task ∈ tasks, OnlyAbandons task) :
    OnlyAbandons (Task.gather tasks) :=
  safe_gather h fun _ => trivial

end OnlyAbandons

theorem onlyAbandons_walk {patience : Nat} {visited queue : List String} {found : IssueSet} :
    OnlyAbandons (walk Task.children patience visited queue found) := by
  induction patience generalizing visited queue found with
  | zero =>
      cases hqueue : queue.dropWhile (· ∈ visited) with
      | nil => rw [walk_of_visited hqueue]; trivial
      | cons key rest => rw [walk_zero_of_unvisited hqueue]; exact (rfl : Error.abandoned = _)
  | succ patience ih =>
      cases hqueue : queue.dropWhile (· ∈ visited) with
      | nil => rw [walk_of_visited hqueue]; trivial
      | cons key rest =>
          rw [walk_succ_of_unvisited hqueue]
          exact (OnlyAbandons.ask (.children key)).bind fun _ => ih

theorem onlyAbandons_roots (project : Project) : OnlyAbandons (roots project) := by
  unfold roots
  split
  · trivial
  · exact .ask (.issues project.issueKeys)

theorem onlyAbandons_below (project : Project) : OnlyAbandons (scope.below project) := by
  unfold Scope.below
  split
  · trivial
  · exact onlyAbandons_walk.bind fun _ => trivial

theorem onlyAbandons_rollup (window : Window) (resolved : IssueSet) :
    OnlyAbandons (rollupOf window resolved) := by
  unfold rollupOf
  split
  · trivial
  · exact .ask (.rollup _)

theorem onlyAbandons_related (resolved : IssueSet) (known : PullRequestSet) :
    OnlyAbandons (scope.relatedPullRequests resolved known) := by
  refine OnlyAbandons.bind (.gather ?_) fun _ => trivial
  intro task htask
  obtain ⟨issue, -, rfl⟩ := List.mem_map.1 htask
  exact .ask (.mentioning issue.key scope.orgs scope.window)

theorem onlyAbandons_milestone (project : Project) (anchor : Issue) :
    OnlyAbandons (scope.milestone project anchor) := by
  have hcomments : OnlyAbandons (recentComments anchor.key) := by
    unfold recentComments
    split
    · trivial
    · exact .ask (.comments anchor.key commentLimit)
  exact (OnlyAbandons.ask (.children anchor.key)).bind fun _ => hcomments.bind fun _ => trivial

theorem onlyAbandons_milestones (project : Project) (anchors : IssueSet) :
    OnlyAbandons (scope.milestones project anchors) := by
  refine OnlyAbandons.bind (.gather ?_) fun _ => trivial
  intro task htask
  obtain ⟨anchor, -, rfl⟩ := List.mem_map.1 htask
  exact onlyAbandons_milestone project anchor

theorem onlyAbandons_report (project : Project) (known : PullRequestSet) (flat : Bool) :
    OnlyAbandons (scope.report project known flat) := by
  rw [report_eq]
  refine (onlyAbandons_roots project).bind fun top => OnlyAbandons.bind ?_ fun below =>
    (onlyAbandons_rollup _ _).bind fun _ => (onlyAbandons_related _ _).bind fun _ =>
    OnlyAbandons.bind ?_ fun _ => trivial
  · cases flat with
    | true => trivial
    | false => exact onlyAbandons_below project
  · cases flat with
    | true => trivial
    | false => exact onlyAbandons_milestones project _

theorem onlyAbandons_of_mem_tasks {task : Task Finding} (htask : task ∈ scope.tasks brief) :
    OnlyAbandons task := by
  rcases mem_tasks.1 htask with ⟨p, -, rfl⟩ | ⟨-, user, -, htask⟩
  · exact (onlyAbandons_report p ∅ false).map
  · rcases List.mem_cons.1 htask with rfl | htask
    · exact (OnlyAbandons.ask (.resolved user.lookupId scope.window)).map
    · obtain ⟨login, -, rfl⟩ := Option.map_eq_some_iff.1 (Option.mem_toList.1 htask)
      exact (OnlyAbandons.ask (.mergedBy login scope.orgs scope.window)).map

theorem onlyAbandons_incidents (window : Window) (services : Option (List String)) :
    OnlyAbandons (allIncidents window services) := by
  unfold allIncidents
  split
  · trivial
  · trivial
  · refine OnlyAbandons.bind (Plan.Safe.all ?_) fun _ => trivial
    intro task htask
    obtain ⟨service, -, rfl⟩ := List.mem_map.1 htask
    exact OnlyAbandons.ask (.incidents service window)

/-- Whatever the answers are, gathering a digest fails by itself only for want of
patience. -/
theorem onlyAbandons_digest (scope : Scope) (brief : Brief) :
    OnlyAbandons (scope.digest brief) := by
  rw [digest_eq]
  refine (OnlyAbandons.gather fun task => onlyAbandons_of_mem_tasks).bind fun findings =>
    OnlyAbandons.bind ?_ fun misc => (onlyAbandons_incidents _ _).bind fun _ => trivial
  cases brief.includeMisc with
  | false => trivial
  | true => exact (onlyAbandons_report _ _ true).map

/-! ## The calls of a digest do not depend on orders -/

/-- The question stands in the account, or asks for an order. -/
def StandsIn (account : List (Reply sources)) (q : Question) : Prop :=
  (∃ n, q = .turns n) ∨ ∃ reply ∈ account, reply.question = q

/-- With the right answers the task puts no question but those of the account and
does not fail. -/
def KeepsTo (answer : (q : Question) → q.Answer) (account : List (Reply sources))
    (task : Task α) : Prop :=
  task.Safe (Truthful answer) (StandsIn account) fun _ => False

theorem keepsTo_gather {tasks : List (Task α)} (h : ∀ task ∈ tasks, KeepsTo answer account task) :
    KeepsTo answer account (Task.gather tasks) :=
  safe_gather h fun n => .inl ⟨n, rfl⟩

/-- Tasks that settle, each on its value, end side by side with these values in some
order. -/
theorem perm_of_ends_gather {tasks : List (Task α)} {found values : List α}
    (htasks : List.Forall₂ (Settles answer) tasks values)
    (hends : (Task.gather tasks).Ends part found)
    (hright : Plan.Given (Truthful answer) part) : found.Perm values := by
  -- whether it is a permutation is something that a task may settle on, too
  have hsettles : Settles answer
      (Task.gather tasks >>= fun found => pure (found.Perm values)) True :=
    Settles.gather_bind htasks fun found hperm => by
      rw [eq_true hperm]
      exact .pure True
  have hperm : (Task.gather tasks >>= fun found => pure (found.Perm values)).Ends part
      (found.Perm values) :=
    Plan.ends_bind_iff.2 ⟨found, part, [], by simp, hends, .done _⟩
  exact of_eq_true (hsettles.eq_of_ends hperm hright)

theorem roots_asksNoOrder (project : Project) : AsksNoOrder (roots project) :=
  .of_asksOnly (roots_asksOnly project) (by simp)

theorem below_asksNoOrder (project : Project) (top : List Issue) (flat : Bool) :
    AsksNoOrder (if flat then pure top else scope.below project) := by
  cases flat with
  | true => trivial
  | false => exact .of_asksOnly (below_asksOnly project) (by simp)

theorem personTasks_askNoOrder {user : User} {task : Task Finding}
    (htask : task ∈ scope.personTasks user) : AsksNoOrder task := by
  rcases List.mem_cons.1 htask with rfl | htask
  · exact Plan.AsksOnly.map ⟨by simp, fun _ => trivial⟩
  · obtain ⟨login, -, rfl⟩ := Option.map_eq_some_iff.1 (Option.mem_toList.1 htask)
    exact Plan.AsksOnly.map ⟨by simp, fun _ => trivial⟩

section Account

variable (hgiven : Plan.Given (Truthful answer) account)

include hgiven

/-- A task that asks for no order keeps to the account on which it ends. -/
theorem keepsTo_of_ends {task : Task α} {a : α} (hends : task.Ends part a) (hsub : part ⊆ account)
    (hcalls : AsksNoOrder task) : KeepsTo answer account task := by
  have hunique : ∀ reply ∈ part, ∀ given, Truthful answer ⟨reply.question, given⟩ →
      given = reply.answer := by
    intro reply hreply given htrue
    have hcall := hcalls.of_mem hends hreply
    exact (htrue hcall).trans (hgiven reply (hsub hreply) hcall).symm
  refine (hends.safe hunique).mono ?_
  rintro q ⟨reply, hreply, rfl⟩
  exact .inr ⟨reply, hsub hreply, rfl⟩

/-- What is searched for does not depend on the order in which searches end. -/
theorem keepsTo_related {resolved : IssueSet} {known found : PullRequestSet}
    (hends : (scope.relatedPullRequests resolved known).Ends part found) (hsub : part ⊆ account) :
    KeepsTo answer account (scope.relatedPullRequests resolved known) := by
  obtain ⟨lists, first, rest, rfl, hgather, -⟩ := Plan.ends_bind_iff.1 hends
  refine Plan.Safe.bind (keepsTo_gather fun task htask => ?_) fun _ _ _ _ => trivial
  obtain ⟨search, list, hsearch, htaskEnds⟩ := exists_part_of_task hgather htask
  obtain ⟨issue, -, rfl⟩ := List.mem_map.1 htask
  have hcalls : AsksNoOrder (Task.mentioning issue.key scope.orgs scope.window) :=
    ⟨by simp, fun _ => trivial⟩
  exact keepsTo_of_ends hgiven htaskEnds
    (fun _ hreply => hsub (List.mem_append_left _ (hsearch hreply))) hcalls

/-- What is asked for milestones does not depend on which is built first. -/
theorem keepsTo_milestones {project : Project} {anchors : IssueSet} {milestones : List Milestone}
    (hends : (scope.milestones project anchors).Ends part milestones) (hsub : part ⊆ account) :
    KeepsTo answer account (scope.milestones project anchors) := by
  obtain ⟨found, first, rest, rfl, hgather, -⟩ := Plan.ends_bind_iff.1 hends
  refine Plan.Safe.bind (keepsTo_gather fun task htask => ?_) fun _ _ _ _ => trivial
  obtain ⟨build, milestone, hbuild, htaskEnds⟩ := exists_part_of_task hgather htask
  obtain ⟨anchor, -, rfl⟩ := List.mem_map.1 htask
  exact keepsTo_of_ends hgiven htaskEnds
    (fun _ hreply => hsub (List.mem_append_left _ (hbuild hreply)))
    (.of_asksOnly (milestone_asksOnly project anchor) (by simp))

/-- What is asked for a report does not depend on the orders in which its tasks
end, and the report is one and the same. -/
theorem keepsTo_report {project : Project} {known : PullRequestSet} {flat : Bool}
    {report : ProjectReport} (hends : (scope.report project known flat).Ends part report)
    (hsub : part ⊆ account) :
    KeepsTo answer account (scope.report project known flat) ∧
      ∃ value, Settles answer (scope.report project known flat) value := by
  obtain ⟨top, below, a₁, a₂, a₃, a₄, a₅, rfl, htop, hbelow, hrollup, hrelated, hmilestones, -⟩ :=
    ends_report hends
  have h₁ : a₁ ⊆ account := fun reply hreply => hsub (by simp [hreply])
  have h₂ : a₂ ⊆ account := fun reply hreply => hsub (by simp [hreply])
  have h₃ : a₃ ⊆ account := fun reply hreply => hsub (by simp [hreply])
  have h₄ : a₄ ⊆ account := fun reply hreply => hsub (by simp [hreply])
  have h₅ : a₅ ⊆ account := fun reply hreply => hsub (by simp [hreply])
  have htops := Settles.of_ends htop (hgiven.of_subset h₁) (roots_asksNoOrder project)
  have hbelows := Settles.of_ends hbelow (hgiven.of_subset h₂) (below_asksNoOrder project top flat)
  constructor
  · -- the walk starts from the same issues each time, and what follows from the same work
    rw [report_eq]
    refine Plan.Safe.bind (keepsTo_of_ends hgiven htop h₁ (roots_asksNoOrder project))
      fun other _ hother hright => ?_
    obtain rfl := htops.eq_of_ends hother hright
    refine Plan.Safe.bind (keepsTo_of_ends hgiven hbelow h₂ (below_asksNoOrder project _ flat))
      fun other _ hother hright => ?_
    obtain rfl := hbelows.eq_of_ends hother hright
    refine Plan.Safe.bind (keepsTo_of_ends hgiven hrollup h₃
      (.of_asksOnly (rollupOf_asksOnly _ _) (by simp))) fun _ _ _ _ => ?_
    refine Plan.Safe.bind (keepsTo_related hgiven hrelated h₄) fun _ _ _ _ => ?_
    refine Plan.Safe.bind ?_ fun _ _ _ _ => trivial
    cases flat with
    | true => trivial
    | false => exact keepsTo_milestones hgiven hmilestones h₅
  · refine exists_settles_report_of_below scope answer known ?_
    cases flat with
    | true => exact .inl rfl
    | false => exact .inr ⟨below, hbelows⟩

/-- Each task of a digest keeps to what it asked in the one run, and it comes to
one value only. -/
theorem keepsTo_task {task : Task Finding} {finding : Finding} (htask : task ∈ scope.tasks brief)
    (hends : task.Ends part finding) (hsub : part ⊆ account) :
    KeepsTo answer account task ∧ ∃ value, Settles answer task value := by
  rcases mem_tasks.1 htask with ⟨p, -, rfl⟩ | ⟨-, user, -, htask⟩
  · obtain ⟨report, hreport, -⟩ := Plan.ends_map_iff.1 hends
    obtain ⟨hkeeps, value, hvalue⟩ := keepsTo_report hgiven hreport hsub
    exact ⟨Plan.Safe.map hkeeps, _, hvalue.map _⟩
  · have hcalls := personTasks_askNoOrder htask
    exact ⟨keepsTo_of_ends hgiven hends hsub hcalls, finding,
      .of_ends hends (hgiven.of_subset hsub) hcalls⟩

/-- What is asked for a digest does not depend on the orders in which its tasks
end. -/
theorem keepsTo_digest {digest : Digest} (hends : (scope.digest brief).Ends account digest) :
    KeepsTo answer account (scope.digest brief) := by
  rw [digest_eq] at hends ⊢
  obtain ⟨findings, earlier, _, rfl, htasks, hends⟩ := Plan.ends_bind_iff.1 hends
  obtain ⟨misc, later, _, rfl, hlater, hends⟩ := Plan.ends_bind_iff.1 hends
  obtain ⟨incidents, last, rest, rfl, hlast, -⟩ := Plan.ends_bind_iff.1 hends
  have h₁ : earlier ⊆ earlier ++ (later ++ (last ++ rest)) := fun _ hreply => by simp [hreply]
  have h₂ : later ⊆ earlier ++ (later ++ (last ++ rest)) := fun _ hreply => by simp [hreply]
  have h₃ : last ⊆ earlier ++ (later ++ (last ++ rest)) := fun _ hreply => by simp [hreply]
  have hkeeps : ∀ task ∈ scope.tasks brief,
      KeepsTo answer (earlier ++ (later ++ (last ++ rest))) task ∧
        ∃ value, Settles answer task value := by
    intro task htask
    obtain ⟨part, finding, hsub, htaskEnds⟩ := exists_part_of_task htasks htask
    exact keepsTo_task hgiven htask htaskEnds (List.Subset.trans hsub h₁)
  obtain ⟨values, hvalues⟩ := exists_partners fun task htask => (hkeeps task htask).2
  have hperm := perm_of_ends_gather hvalues htasks (hgiven.of_subset h₁)
  refine Plan.Safe.bind (keepsTo_gather fun task htask => (hkeeps task htask).1)
    fun found _ hfound hright => ?_
  -- the findings may come in another order, but the report on untracked work is the same task
  have hsame : scope.miscReport found = scope.miscReport findings := by
    have hother := (perm_of_ends_gather hvalues hfound hright).trans hperm.symm
    unfold Scope.miscReport
    rw [untrackedIssues_of_perm hother, untrackedPullRequests_of_perm hother]
  refine Plan.Safe.bind ?_ fun _ _ _ _ => Plan.Safe.bind ?_ fun _ _ _ _ => trivial
  · cases hmisc : brief.includeMisc with
    | false => trivial
    | true =>
        rw [hmisc] at hlater
        obtain ⟨report, hreport, -⟩ := Plan.ends_map_iff.1 hlater
        rw [if_pos rfl, hsame]
        exact Plan.Safe.map (keepsTo_report hgiven hreport h₂).1
  · exact keepsTo_of_ends hgiven hlast h₃ (.of_asksOnly (allIncidents_asksOnly _ _) (by simp))

end Account

/-! ## Tasks side by side, one of which fails -/

/-- What may be asked in the course of a task when tasks side by side take turns:
whatever comes up along the answers that the world may give, in each of these
tasks on its own, how far the others ever get. -/
inductive MayAsk (world : World sources σ) : {α : Type} → Task α → Question → Prop
  | now {α : Type} {q : Question} {next : q.Answer → Task α} :
      MayAsk world (.ask q next) q
  | later {α : Type} {q r : Question} {next : q.Answer → Task α} {s : σ} {given : q.Answer} :
      (world q s).1 = .ok given → MayAsk world (next given) r → MayAsk world (.ask q next) r
  | beside {α β : Type} {tasks : List (Task α)} {task : Task α} {f : List α → Task β}
      {r : Question} :
      task ∈ tasks → MayAsk world task r → MayAsk world (Task.gather tasks >>= f) r

/-- What a run asks for may be asked. -/
theorem mayAsk_of_mem_asked {world : World sources σ} {task : Task α} {s : σ} {q : Question}
    (h : q ∈ task.asked world s) : MayAsk world task q := by
  induction task generalizing s with
  | done value => simp [Plan.asked] at h
  | fail error => simp [Plan.asked] at h
  | ask r next ih =>
      cases hanswer : world r s with
      | mk outcome later =>
          cases outcome with
          | ok given =>
              rw [Plan.asked_ask_of_ok hanswer] at h
              rcases List.mem_cons.1 h with rfl | hrest
              · exact .now
              · exact .later (congrArg Prod.fst hanswer) (ih given hrest)
          | error error =>
              rw [Plan.asked_ask_of_error hanswer] at h
              obtain rfl := List.mem_singleton.1 h
              exact .now

/-- A task that puts no other questions and does not fail by itself does so however tasks
take turns, and also if some of them fail. -/
theorem asks_of_mayAsk {world : World sources σ} {gives : Reply sources → Prop}
    {asks : Question → Prop} {task : Task α} {r : Question}
    (hworld : ∀ (q : Question) s (given : q.Answer), (world q s).1 = .ok given → gives ⟨q, given⟩)
    (hgives : ∀ q : Question, ∃ given : q.Answer, gives ⟨q, given⟩)
    (h : MayAsk world task r) (hsafe : task.Safe gives asks fun _ => False) : asks r := by
  induction h with
  | now => exact hsafe.1
  | later hgiven _ ih => exact ih (hsafe.2 _ (hworld _ _ _ hgiven))
  | beside htask _ ih =>
      have hgather := hsafe.of_bind
      exact ih (hgather.of_bind.of_all hgives _ htask)

/-- A task that keeps to an account does so however tasks take turns. -/
theorem standsIn_of_mayAsk {world : World sources σ} {task : Task α} {r : Question}
    (hworld : ∀ (q : Question) s (given : q.Answer), (world q s).1 = .ok given →
      Truthful answer ⟨q, given⟩)
    (h : MayAsk world task r) (hkeeps : KeepsTo answer account task) : StandsIn account r :=
  asks_of_mayAsk hworld (exists_truthful answer) h hkeeps

/-- The names of the calls of a run, in their order. -/
def calls (world : World sources σ) (task : Task α) (s : σ) : List String :=
  (task.asked world s).filterMap Question.call?

theorem mem_calls_iff {world : World sources σ} {task : Task α} {s : σ} {call : String} :
    call ∈ calls world task s ↔ ∃ q ∈ task.asked world s, q.call? = some call :=
  List.mem_filterMap

/-- Of a world that answers the same call always alike, no call may be made with an
outage that is not made in the run without. -/
theorem mem_calls_of_mayAsk {world other : World sources σ} {s s' : σ} {digest : Digest}
    {down : Question → Prop} (hsteady : Steady answer world) (houtage : Outage down world other)
    (hrun : (scope.digest brief).run world s = (.ok digest, s')) {q : Question}
    (hmay : MayAsk other (scope.digest brief) q) {call : String} (hcall : q.call? = some call) :
    call ∈ calls world (scope.digest brief) s := by
  have hright : ∀ (q : Question) t (given : q.Answer), (other q t).1 = .ok given →
      Truthful answer ⟨q, given⟩ := by
    intro q t given hgiven hcalls
    by_cases hdown : down q
    · obtain ⟨error, herror⟩ := houtage.fails q t hdown
      rw [hgiven] at herror
      simp at herror
    · rw [houtage.same q t hdown, hsteady.call q t hcalls] at hgiven
      exact (Except.ok.inj hgiven).symm
  have hkeeps := keepsTo_digest (hsteady.given_replies _ s) (Plan.ends_of_run hrun)
  rcases standsIn_of_mayAsk hright hmay hkeeps with ⟨n, rfl⟩ | ⟨reply, hreply, rfl⟩
  · simp [Question.call?] at hcall
  · exact mem_calls_iff.2 ⟨_, Plan.mem_asked_of_mem_replies hreply, hcall⟩

/-! ## Outages of a snapshot -/

theorem Snapshot.answer?_of_up (snapshot : Snapshot) (q : Question) :
    { snapshot with down := [] }.answer? q = .ok (snapshot.answer q) := by
  unfold Snapshot.answer?
  cases q.call? with
  | none => rfl
  | some call => rfl

theorem Snapshot.steady (snapshot : Snapshot) :
    Steady snapshot.answer (Plan.recording { snapshot with down := [] }.answer?) where
  call q _ _ := snapshot.answer?_of_up q
  turns n _ := ⟨_, snapshot.answer?_of_up (.turns n)⟩

theorem Snapshot.outage_down (snapshot : Snapshot) (names : List String) :
    Outage (I := sources) (fun q => ∃ call ∈ {call | call ∈ names}, q.call? = some call)
      (Plan.recording { snapshot with down := [] }.answer?)
      (Plan.recording { snapshot with down := names }.answer?) where
  fails q s := by
    rintro ⟨call, hdown, hcall⟩
    refine ⟨Snapshot.outage call q, ?_⟩
    simp only [Plan.recording, Snapshot.answer?, hcall]
    exact if_pos hdown
  same q s hup := by
    cases hcall : q.call? with
    | none => simp only [Plan.recording, Snapshot.answer?, hcall]; rfl
    | some call =>
        have hnot : call ∉ names := fun hdown => hup ⟨call, hdown, hcall⟩
        simp only [Plan.recording, Snapshot.answer?, hcall, if_neg hnot]
        rfl

/-! ## Digests while some calls are down -/

/-- Let some calls be down by their names.  The digest is gathered if and only if
none of them is made in the run in which nothing fails, and then it is the digest of
that run.  No call is made that is not made there; in a world that answers the same
call always alike, not even by tasks that go on for a while after another one has
failed.  The run in which nothing fails has to come to its end. -/
theorem run_digest_of_outage (world other : World sources σ) (s : σ) (scope : Scope)
    (brief : Brief) (down : Set String)
    (hanswers : ∀ q s, ∃ given, (world q s).1 = .ok given)
    (houtage : Outage (fun q : Question => ∃ call ∈ down, q.call? = some call) world other)
    (hends : ((scope.digest brief).run world s).1 ≠ .error .abandoned) :
    ∃ digest s', (scope.digest brief).run world s = (.ok digest, s') ∧
      ((∃ result t, (scope.digest brief).run other s = (.ok result, t)) ↔
        ∀ call ∈ down, call ∉ calls world (scope.digest brief) s) ∧
      (∀ result t, (scope.digest brief).run other s = (.ok result, t) → result = digest) ∧
      (∀ call ∈ calls other (scope.digest brief) s, call ∈ calls world (scope.digest brief) s) ∧
      ∀ answer, Steady answer world → ∀ q call, MayAsk other (scope.digest brief) q →
        q.call? = some call → call ∈ calls world (scope.digest brief) s := by
  have hanswered : ∀ q s, ∃ given, (world q s).1 = .ok given ∧ True := fun q s =>
    (hanswers q s).imp fun _ hgiven => ⟨hgiven, trivial⟩
  rcases (onlyAbandons_digest scope brief).run hanswered with
    ⟨digest, s', hrun⟩ | ⟨error, t, hrun, rfl⟩
  · have hup : (∀ q ∈ (scope.digest brief).asked world s, ¬ ∃ call ∈ down, q.call? = some call) ↔
        ∀ call ∈ down, call ∉ calls world (scope.digest brief) s := by
      constructor
      · intro h call hdown hcall
        obtain ⟨q, hq, hname⟩ := mem_calls_iff.1 hcall
        exact h q hq ⟨call, hdown, hname⟩
      · rintro h q hq ⟨call, hdown, hname⟩
        exact h call hdown (mem_calls_iff.2 ⟨q, hq, hname⟩)
    refine ⟨digest, s', hrun, ?_, ?_, ?_, fun answer hsteady q call hmay hcall =>
      mem_calls_of_mayAsk hsteady houtage hrun hmay hcall⟩
    · rw [← hup]
      constructor
      · rintro ⟨result, t, hresult⟩
        exact ((Plan.run_of_outage_iff houtage).1 hresult).2
      · intro h
        exact ⟨digest, s', (Plan.run_of_outage_iff houtage).2 ⟨hrun, h⟩⟩
    · intro result t hresult
      have hsame := ((Plan.run_of_outage_iff houtage).1 hresult).1
      rw [hrun] at hsame
      exact (Except.ok.inj (congrArg Prod.fst hsame)).symm
    · intro call hcall
      obtain ⟨q, hq, hname⟩ := mem_calls_iff.1 hcall
      exact mem_calls_iff.2 ⟨q, (Plan.asked_prefix_of_outage houtage).subset hq, hname⟩
  · exact absurd (congrArg Prod.fst hrun) hends

/-- Of the same work no digest is made without the writer.  Nobody asks for
incidents, so these may be down. -/
theorem run_overlap_without_writer :
    (¬ ∃ digest asked, (sampleScope.digest overlapBrief).run
      (Plan.recording { overlapSnapshot with down := ["summarize"] }.answer?) [] =
        (.ok digest, asked)) ∧
    ∃ digest asked, (sampleScope.digest overlapBrief).run
      (Plan.recording { overlapSnapshot with down := ["incidents:web"] }.answer?) [] =
        (.ok digest, asked) := by
  have hends : ((sampleScope.digest overlapBrief).run
      (Plan.recording overlapSnapshot.answer?) []).1 ≠ .error .abandoned := by
    obtain ⟨digest, asked, hrun⟩ := run_overlap
    rw [hrun]
    simp
  have hrun := fun names : List String =>
    run_digest_of_outage _ _ [] sampleScope overlapBrief {call | call ∈ names}
      (fun q _ => ⟨_, overlapSnapshot.answer?_of_up q⟩) (overlapSnapshot.outage_down names) hends
  have hcalls : "summarize" ∈ calls (Plan.recording overlapSnapshot.answer?)
        (sampleScope.digest overlapBrief) [] ∧
      "incidents:web" ∉ calls (Plan.recording overlapSnapshot.answer?)
        (sampleScope.digest overlapBrief) [] := by
    decide +kernel
  obtain ⟨_, _, -, hwriter, -⟩ := hrun ["summarize"]
  obtain ⟨_, _, -, hincidents, -⟩ := hrun ["incidents:web"]
  constructor
  · intro hdigest
    exact hwriter.1 hdigest "summarize" List.mem_cons_self hcalls.1
  · refine hincidents.2 fun call hdown => ?_
    obtain rfl := List.mem_singleton.1 hdown
    exact hcalls.2

end TeamDigest.Gather
