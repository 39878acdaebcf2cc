import TeamDigest.Gather.Tally
import TeamDigest.Proofs.Gather.Outages
import TeamDigest.Proofs.Plan.Transcript

/-!
# Tallies of people

The tallies of people are gathered side by side, and any of the calls behind them
may fail.  There is one tally for each person then, or none at all: a call that fails
takes all tallies with it, however far the others have got.

## Strategy

In a world in which each call always comes to the same, a task comes to one value
wherever it is carried out (`Gives`), or it always fails (`Breaks`).  The tally of a
person does one or the other (`exists_gives_tally`, `breaks_tally`), and so does what
is gathered from all of them: where names are distinct, sorting by them forgets in
which order the tasks have ended (`gives_tallies`).  What may be asked on the way is
bounded for any answers (`StaysWithin`), as it has to be where a call has failed.
-/

namespace TeamDigest.Gather

open Work Team Report

variable {α β σ : Type} {world : World sources σ} {answer : (q : Question) → Except Error q.Answer}
  {scope : Scope} {user : User}

/-- A call always comes to what `answer` says, be it a value or an error.  Tasks that go
on side by side may end in any order. -/
structure Consistent (answer : (q : Question) → Except Error q.Answer) (world : World sources σ) :
    Prop where
  call : ∀ q s, (∀ n, q ≠ .turns n) → (world q s).1 = answer q
  turns : ∀ n s, ∃ order, (world (.turns n) s).1 = .ok order

/-! ## Tasks that come to a value and tasks that fail -/

/-- Whenever it is carried out, the task ends with the value. -/
def Gives (world : World sources σ) (task : Task α) (a : α) : Prop :=
  ∀ s, ∃ t, task.run world s = (.ok a, t)

/-- Whenever it is carried out, the task fails. -/
def Breaks (world : World sources σ) (task : Task α) : Prop :=
  ∀ s, ∃ error t, task.run world s = (.error error, t)

namespace Gives

theorem pure (a : α) : Gives world (Pure.pure a : Task α) a := fun s => ⟨s, rfl⟩

theorem bind {task : Task α} {f : α → Task β} {a : α} {b : β} (htask : Gives world task a)
    (hf : Gives world (f a) b) : Gives world (task >>= f) b := by
  intro s
  obtain ⟨t, hrun⟩ := htask s
  obtain ⟨u, hrest⟩ := hf t
  exact ⟨u, (Plan.run_bind_of_ok hrun).trans hrest⟩

theorem call (hworld : Consistent answer world) {q : Question} {given : q.Answer}
    (hq : ∀ n, q ≠ .turns n) (hgiven : answer q = .ok given) :
    Gives world (Plan.ask q Plan.done : Task q.Answer) given := by
  intro s
  have hanswer : world q s = (.ok given, (world q s).2) :=
    Prod.ext ((hworld.call q s hq).trans hgiven) rfl
  rw [Plan.run, hanswer]
  exact ⟨_, rfl⟩

theorem all {tasks : List (Task α)} {values : List α}
    (h : List.Forall₂ (Gives world) tasks values) : Gives world (Plan.all tasks) values := by
  induction h with
  | nil => exact .pure []
  | cons hhead _ ih => exact hhead.bind (ih.bind (.pure _))

/-- What follows on tasks side by side has to come to the same value on every
permutation of their results. -/
theorem gather_bind (hworld : Consistent answer world) {tasks : List (Task α)} {values : List α}
    {f : List α → Task β} {b : β} (htasks : List.Forall₂ (Gives world) tasks values)
    (hf : ∀ found : List α, found.Perm values → Gives world (f found) b) :
    Gives world (Task.gather tasks >>= f) b := by
  rw [Task.gather, bind_assoc]
  refine (all htasks).bind fun s => ?_
  obtain ⟨order, horder⟩ := hworld.turns values.length s
  have hturns : world (.turns values.length) s = (.ok order, (world (.turns values.length) s).2) :=
    Prod.ext horder rfl
  rw [Plan.bind_ask, Plan.run, hturns]
  exact hf _ (Turns.arrange_perm values order) _

end Gives

namespace Breaks

theorem bind {task : Task α} {f : α → Task β} (htask : Breaks world task) :
    Breaks world (task >>= f) := by
  intro s
  obtain ⟨error, t, hrun⟩ := htask s
  exact ⟨error, t, Plan.run_bind_of_error hrun⟩

/-- What comes second may fail as well, if it does so on every value. -/
theorem after {task : Task α} {f : α → Task β} (hf : ∀ a, Breaks world (f a)) :
    Breaks world (task >>= f) := by
  intro s
  rcases hrun : task.run world s with ⟨error | a, t⟩
  · exact ⟨error, t, Plan.run_bind_of_error hrun⟩
  · obtain ⟨error, u, hrest⟩ := hf a t
    exact ⟨error, u, (Plan.run_bind_of_ok hrun).trans hrest⟩

theorem call (hworld : Consistent answer world) {q : Question} {error : Error}
    (hq : ∀ n, q ≠ .turns n) (herror : answer q = .error error) :
    Breaks world (Plan.ask q Plan.done : Task q.Answer) := by
  intro s
  have hanswer : world q s = (.error error, (world q s).2) :=
    Prod.ext ((hworld.call q s hq).trans herror) rfl
  rw [Plan.run, hanswer]
  exact ⟨_, _, rfl⟩

/-- One of several tasks in a row is enough, wherever it stands. -/
theorem all {tasks : List (Task α)} {task : Task α} (htask : task ∈ tasks)
    (hbreaks : Breaks world task) : Breaks world (Plan.all tasks) := by
  induction tasks with
  | nil => simp at htask
  | cons head rest ih =>
      rcases List.mem_cons.1 htask with rfl | hrest
      · exact hbreaks.bind
      · -- whether the head ends or fails makes no difference
        exact .after fun _ => (ih hrest).bind

end Breaks

/-! ## Tasks that keep to some questions -/

/-- There is some answer to every question. -/
theorem exists_answer (q : Question) : ∃ _ : q.Answer, True := by
  cases q with
  | turns n => exact ⟨Turns.inOrder n, trivial⟩
  | resolvedCount person window => exact ⟨0, trivial⟩
  | rollup text => exact ⟨"", trivial⟩
  | _ => exact ⟨[], trivial⟩

/-- Whatever the answers are, the task puts no other questions and does not fail by
itself. -/
def StaysWithin (asks : Question → Prop) (task : Task α) : Prop :=
  task.Safe (fun _ => True) asks fun _ => False

namespace StaysWithin

variable {asks : Question → Prop}

theorem bind {task : Task α} {f : α → Task β} (htask : StaysWithin asks task)
    (hf : ∀ a, StaysWithin asks (f a)) : StaysWithin asks (task >>= f) :=
  Plan.Safe.bind htask fun a _ _ _ => hf a

/-- It does so however tasks take turns. -/
theorem of_mayAsk {task : Task α} {q : Question} (htask : StaysWithin asks task)
    (hq : MayAsk world task q) : asks q :=
  asks_of_mayAsk (fun _ _ _ _ => trivial) exists_answer hq htask

end StaysWithin

/-! ## The tally of one person -/

/-- The calls about one person. -/
def Scope.callsOn (scope : Scope) (user : User) : List Question :=
  .resolvedCount user.lookupId scope.window ::
    (user.githubId.map fun login => .mergedBy login scope.orgs scope.window).toList

/-- The tally says of its person what the answers to the calls about them say. -/
structure Scope.Counts (scope : Scope) (answer : (q : Question) → Except Error q.Answer)
    (tally : Tally) : Prop where
  resolved : answer (.resolvedCount (tally.user.trackerId.getD tally.user.id) scope.window) =
    .ok tally.resolved
  none_iff : tally.pullRequests = none ↔ tally.user.githubId = none
  merged : ∀ login, tally.user.githubId = some login → ∃ found,
    answer (.mergedBy login scope.orgs scope.window) = .ok found ∧
      tally.pullRequests = some found.length

theorem mem_callsOn {q : Question} : q ∈ scope.callsOn user ↔
    q = .resolvedCount user.lookupId scope.window ∨
      ∃ login, user.githubId = some login ∧ q = .mergedBy login scope.orgs scope.window := by
  rw [Scope.callsOn, List.mem_cons, Option.mem_toList, Option.map_eq_some_iff]
  simp only [eq_comm (a := q)]

/-- The tally of a person of whom no call fails. -/
theorem exists_gives_tally (hworld : Consistent answer world)
    (hcalls : ∀ q ∈ scope.callsOn user, ∃ given, answer q = .ok given) :
    ∃ tally, Gives world (scope.tally user) tally ∧ tally.user = user ∧
      scope.Counts answer tally := by
  obtain ⟨resolved, hresolved⟩ := hcalls _ (mem_callsOn.2 (.inl rfl))
  have hcount : Gives world (Task.resolvedCount user.lookupId scope.window) resolved :=
    .call hworld (by simp) hresolved
  cases hlogin : user.githubId with
  | none =>
      have hmerged : Gives world (scope.pullRequestCount user) none := by
        rw [Scope.pullRequestCount, hlogin]
        exact .pure none
      exact ⟨⟨user, resolved, none⟩, hcount.bind (hmerged.bind (.pure _)), rfl, hresolved,
        by simp [hlogin], by simp [hlogin]⟩
  | some login =>
      obtain ⟨found, hfound⟩ := hcalls _ (mem_callsOn.2 (.inr ⟨login, hlogin, rfl⟩))
      have hsearch : Gives world (Task.mergedBy login scope.orgs scope.window) found :=
        .call hworld (by simp) hfound
      have hmerged : Gives world (scope.pullRequestCount user) (some found.length) := by
        rw [Scope.pullRequestCount, hlogin]
        exact hsearch.bind (.pure _)
      refine ⟨⟨user, resolved, some found.length⟩, hcount.bind (hmerged.bind (.pure _)), rfl,
        hresolved, by simp [hlogin], fun other hother => ?_⟩
      obtain rfl := Option.some.inj (hlogin.symm.trans hother)
      exact ⟨found, hfound, rfl⟩

/-- There is no tally of a person of whom a call fails. -/
theorem breaks_tally (hworld : Consistent answer world) {q : Question} {error : Error}
    (hq : q ∈ scope.callsOn user) (herror : answer q = .error error) :
    Breaks world (scope.tally user) := by
  rcases mem_callsOn.1 hq with rfl | ⟨login, hlogin, rfl⟩
  · have hcount : Breaks world (Task.resolvedCount user.lookupId scope.window) :=
      .call hworld (by simp) herror
    exact hcount.bind
  · -- the search comes second, and the count before it may have failed already
    have hsearch : Breaks world (Task.mergedBy login scope.orgs scope.window) :=
      .call hworld (by simp) herror
    have hmerged : Breaks world (scope.pullRequestCount user) := by
      rw [Scope.pullRequestCount, hlogin]
      exact hsearch.bind
    exact .after fun _ => hmerged.bind

/-- For the tally of a person, there are only the calls about that person. -/
theorem tally_staysWithin (scope : Scope) (user : User) :
    StaysWithin (· ∈ scope.callsOn user) (scope.tally user) := by
  have hcount : StaysWithin (· ∈ scope.callsOn user)
      (Task.resolvedCount user.lookupId scope.window) :=
    safe_ask (mem_callsOn.2 (.inl rfl))
  have hmerged : StaysWithin (· ∈ scope.callsOn user) (scope.pullRequestCount user) := by
    unfold Scope.pullRequestCount
    cases hlogin : user.githubId with
    | none => trivial
    | some login =>
        have hsearch : StaysWithin (· ∈ scope.callsOn user)
            (Task.mergedBy login scope.orgs scope.window) :=
          safe_ask (mem_callsOn.2 (.inr ⟨login, hlogin, rfl⟩))
        exact hsearch.bind fun _ => trivial
  exact hcount.bind fun _ => hmerged.bind fun _ => trivial

/-! ## The tallies of all -/

theorem gives_tallies (hworld : Consistent answer world) {tallies : List Tally}
    (htallies : List.Forall₂ (fun user tally => Gives world (scope.tally user) tally)
      scope.users tallies)
    (hdistinct : (tallies.map fun tally => tally.user.name).Nodup) :
    Gives world scope.tallies (sortByName tallies) := by
  refine .gather_bind hworld (List.forall₂_map_left_iff.2 htallies) fun found hperm => ?_
  have hsorted : sortByName found = sortByName tallies :=
    mergeSort_of_perm (fun tally : Tally => tally.user.name) hperm hdistinct
  rw [hsorted]
  exact .pure _

theorem breaks_tallies (hworld : Consistent answer world) {q : Question} {error : Error}
    (huser : user ∈ scope.users) (hq : q ∈ scope.callsOn user) (herror : answer q = .error error) :
    Breaks world scope.tallies := by
  have htask : scope.tally user ∈ scope.users.map scope.tally := List.mem_map_of_mem huser
  have hgather : Breaks world (Task.gather (scope.users.map scope.tally)) :=
    (Breaks.all htask (breaks_tally hworld hq herror)).bind
  exact hgather.bind

theorem tallies_stayWithin (scope : Scope) :
    StaysWithin (fun q => (∃ n, q = .turns n) ∨ ∃ user ∈ scope.users, q ∈ scope.callsOn user)
      scope.tallies := by
  refine StaysWithin.bind (safe_gather ?_ fun n => .inl ⟨n, rfl⟩) fun _ => trivial
  intro task htask
  obtain ⟨user, huser, rfl⟩ := List.mem_map.1 htask
  exact (tally_staysWithin scope user).mono fun q hq => .inr ⟨user, huser, hq⟩

/-- Where no call fails, there is a tally for each person, in the order of their names. -/
theorem exists_gives_tallies (hworld : Consistent answer world)
    (hnames : (scope.users.map User.name).Nodup)
    (hcalls : ∀ user ∈ scope.users, ∀ q ∈ scope.callsOn user, ∃ given, answer q = .ok given) :
    ∃ tallies, Gives world scope.tallies tallies ∧
      (tallies.map Tally.user).Perm scope.users ∧
      tallies.Pairwise (fun a b => compare a.user.name b.user.name = .lt) ∧
      ∀ tally ∈ tallies, scope.Counts answer tally := by
  obtain ⟨tallies, htallies⟩ := exists_partners fun user huser =>
    exists_gives_tally hworld (hcalls user huser)
  have husers : tallies.map Tally.user = scope.users :=
    map_eq_of_forall₂ htallies fun _ _ h => h.2.1
  have hcounts : ∀ tally ∈ tallies, scope.Counts answer tally :=
    ((List.forall₂_and_left _ _).1 (htallies.flip.imp fun _ _ h => ⟨h.2.2, h⟩)).1
  have hdistinct : (tallies.map fun tally => tally.user.name).Nodup := by
    rw [← husers, List.map_map] at hnames
    exact hnames
  have hperm : (sortByName tallies).Perm tallies := List.mergeSort_perm _ _
  exact ⟨sortByName tallies, gives_tallies hworld (htallies.imp fun _ _ h => h.1) hdistinct,
    husers ▸ hperm.map Tally.user,
    increasing_mergeSort (fun tally : Tally => tally.user.name) hdistinct,
    fun tally htally => hcounts tally (hperm.mem_iff.1 htally)⟩

/-- Tallies fail exactly if some call fails, one about work resolved or, where a login is
known, one about pull requests.  Otherwise there is one tally for each person, in
increasing order of the names, with what the answers say of that person; so the order in
which tasks end makes no difference.  No call is made but those about the people, for each
of them in the task of that person, also when tasks go on after another one has failed. -/
theorem tallies_of_answers (answer : (q : Question) → Except Error q.Answer)
    (world : World sources σ) (s : σ) (scope : Scope) (hworld : Consistent answer world)
    (hnames : (scope.users.map User.name).Nodup) :
    ((∃ error t, scope.tallies.run world s = (.error error, t)) ↔
      ∃ user ∈ scope.users, ∃ q ∈ scope.callsOn user, ∃ error, answer q = .error error) ∧
    ((∀ user ∈ scope.users, ∀ q ∈ scope.callsOn user, ∃ given, answer q = .ok given) →
      ∃ tallies t, scope.tallies.run world s = (.ok tallies, t) ∧
        (tallies.map Tally.user).Perm scope.users ∧
        tallies.Pairwise (fun a b => compare a.user.name b.user.name = .lt) ∧
        ∀ tally ∈ tallies, scope.Counts answer tally) ∧
    (∀ q, q ∈ scope.tallies.asked world s ∨ MayAsk world scope.tallies q →
      (∃ n, q = .turns n) ∨ ∃ user ∈ scope.users, q ∈ scope.callsOn user) ∧
    ∀ user ∈ scope.users, ∀ q, MayAsk world (scope.tally user) q → q ∈ scope.callsOn user := by
  refine ⟨⟨?_, ?_⟩, fun hcalls => ?_, fun q hq => ?_, fun user _ q hmay => ?_⟩
  · rintro ⟨error, t, hrun⟩
    by_contra hnone
    have hcalls : ∀ user ∈ scope.users, ∀ q ∈ scope.callsOn user,
        ∃ given, answer q = .ok given := by
      intro user huser q hq
      cases hanswer : answer q with
      | ok given => exact ⟨given, rfl⟩
      | error error => exact absurd ⟨user, huser, q, hq, error, hanswer⟩ hnone
    obtain ⟨tallies, hgives, -⟩ := exists_gives_tallies hworld hnames hcalls
    obtain ⟨u, hok⟩ := hgives s
    simp [hrun] at hok
  · rintro ⟨user, huser, q, hq, error, herror⟩
    exact breaks_tallies hworld huser hq herror s
  · obtain ⟨tallies, hgives, hsorted⟩ := exists_gives_tallies hworld hnames hcalls
    obtain ⟨t, hrun⟩ := hgives s
    exact ⟨tallies, t, hrun, hsorted⟩
  · exact (tallies_stayWithin scope).of_mayAsk (hq.elim mayAsk_of_mem_asked id)
  · exact (tally_staysWithin scope user).of_mayAsk hmay

/-- The world in which the task that was started last ends first. -/
def lastFirst (answer : (q : Question) → Except Error q.Answer) : World sources (List Question) :=
  Plan.recording fun q =>
    match q with
    | .turns n => .ok ⟨(List.range n).reverse, List.reverse_perm _⟩
    | q => answer q

theorem consistent_lastFirst (answer : (q : Question) → Except Error q.Answer) :
    Consistent answer (lastFirst answer) where
  call q s hq := by
    cases q with
    | turns n => exact absurd rfl (hq n)
    | _ => rfl
  turns n s := ⟨_, rfl⟩

/-- Two people, one of whom has no login and goes by another id in the tracker. -/
def pairScope : Scope :=
  { sampleScope with
    users :=
      [sampleUser "zed", { sampleUser "ada" with trackerId := some "u-1", githubId := none }] }

def pairSnapshot : Snapshot :=
  let issue := sampleIssue "ENG-2" "Bug" (some ⟨9, 0⟩)
  { Snapshot.blank with
    resolved := [("zed", [issue, issue]), ("u-1", [issue])]
    byLogin := [("zed", [samplePullRequest 1])] }

/-- Ada stands before Zed, though her task was started after his; without the pull
requests of Zed there is no tally of Ada either. -/
theorem tallies_of_pair : (pairScope.users.map User.name).Nodup ∧
    (∀ snapshot : Snapshot, Consistent snapshot.answer? (lastFirst snapshot.answer?)) ∧
    (∃ ada zed t,
      pairScope.tallies.run (lastFirst pairSnapshot.answer?) [] = (.ok [ada, zed], t) ∧
      ada.user.name = "ada" ∧ ada.resolved = 1 ∧ ada.pullRequests = none ∧
      zed.user.name = "zed" ∧ zed.resolved = 2 ∧ zed.pullRequests = some 1) ∧
    ∃ error t, pairScope.tallies.run
      (lastFirst { pairSnapshot with down := ["user:zed"] }.answer?) [] = (.error error, t) := by
  have hnames : (pairScope.users.map User.name).Nodup := by decide
  refine ⟨hnames, fun snapshot => consistent_lastFirst snapshot.answer?, ?_, ?_⟩
  · obtain ⟨-, hgathered, -⟩ := tallies_of_answers pairSnapshot.answer? _ [] pairScope
      (consistent_lastFirst _) hnames
    obtain ⟨tallies, t, hrun, hperm, hincreasing, hcounts⟩ := hgathered fun _ _ q _ =>
      ⟨_, pairSnapshot.answer?_of_up q⟩
    have husers : tallies.map Tally.user = pairScope.users.reverse :=
      eq_of_perm_of_increasing User.name (hperm.trans (List.reverse_perm _).symm)
        (List.pairwise_map.2 hincreasing) (by decide +kernel)
    obtain ⟨ada, rest, rfl, hada, hrest⟩ := List.map_eq_cons_iff.1 husers
    obtain ⟨zed, rest, rfl, hzed, hrest⟩ := List.map_eq_cons_iff.1 hrest
    obtain rfl := List.map_eq_nil_iff.1 hrest
    have hadas := hcounts ada (by simp)
    have hzeds := hcounts zed (by simp)
    have hresolvedAda := hadas.resolved
    have hresolvedZed := hzeds.resolved
    rw [hada] at hresolvedAda
    rw [hzed] at hresolvedZed
    obtain ⟨found, hfound, hmerged⟩ := hzeds.merged "zed" (by rw [hzed]; rfl)
    refine ⟨ada, zed, t, hrun, by rw [hada]; rfl, Except.ok.inj hresolvedAda.symm,
      hadas.none_iff.2 (by rw [hada]), by rw [hzed]; rfl, Except.ok.inj hresolvedZed.symm, ?_⟩
    rw [hmerged, ← Except.ok.inj hfound]
    rfl
  · obtain ⟨hfails, -⟩ := tallies_of_answers { pairSnapshot with down := ["user:zed"] }.answer? _
      [] pairScope (consistent_lastFirst _) hnames
    refine hfails.2 ⟨sampleUser "zed", by simp [pairScope],
      .mergedBy "zed" pairScope.orgs pairScope.window, mem_callsOn.2 (.inr ⟨"zed", rfl, rfl⟩), ?_⟩
    exact ⟨_, rfl⟩

end TeamDigest.Gather
