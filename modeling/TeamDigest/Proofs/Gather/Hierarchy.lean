import TeamDigest.Gather.Scope
import TeamDigest.Gather.Snapshot
import TeamDigest.Proofs.Plan.Account
import Mathlib.Data.List.Nodup
import Mathlib.Data.List.TakeWhile

/-!
# The walk down a hierarchy

Nothing is assumed of the hierarchy: it may have cycles, an issue may stand
under several others or under itself, and the keys to begin with may repeat.
`Reachable` are the keys that come up below them.

## Strategy

The queue may hold a key many times, and keys that were visited since they were
put there, so its length says nothing.  `WalkInvariant` relates the visited
keys, the queue and the issues found, and is closed under the step that fetches
the children of the first key not yet visited (`WalkInvariant.step`).  Once no
such key is left, the visited keys are exactly the reachable ones
(`WalkInvariant.complete`).  What decreases is the number of reachable keys that
are not visited: the visited keys are distinct and reachable, so the patience
runs out only if it is smaller than the number of reachable keys.
-/

namespace TeamDigest.Gather

open Work

/-- The keys that come up below some parents: the parents, and the keys of the
issues under a key that comes up. -/
inductive Reachable (children : String → Except Error (List Issue)) (parents : List String) :
    String → Prop
  | parent {key : String} : key ∈ parents → Reachable children parents key
  | child {key : String} {below : List Issue} {issue : Issue} :
      Reachable children parents key → children key = .ok below → issue ∈ below →
        Reachable children parents issue.key

variable {children : String → Except Error (List Issue)} {parents visited queue rest : List String}
  {found : IssueSet} {key : String} {below : List Issue}

/-- Only the members of the list of parents matter. -/
theorem Reachable.of_subset {others : List String} (hsub : ∀ key ∈ parents, key ∈ others)
    (h : Reachable children parents key) : Reachable children others key := by
  induction h with
  | parent hkey => exact .parent (hsub _ hkey)
  | child _ hfetch hissue ih => exact .child ih hfetch hissue

/-- A set of keys that holds the parents and the children of its members holds
whatever comes up. -/
theorem Reachable.mem_of_closed {keys : List String} (hparents : ∀ key ∈ parents, key ∈ keys)
    (hclosed : ∀ key ∈ keys, ∀ below, children key = .ok below → ∀ issue ∈ below, issue.key ∈ keys)
    (h : Reachable children parents key) : key ∈ keys := by
  induction h with
  | parent hkey => exact hparents _ hkey
  | child _ hfetch hissue ih => exact hclosed _ ih _ hfetch _ hissue

/-! ## One step of the walk -/

section Step

variable {I : Interface} {ask : String → Plan I (List Issue)} {patience : Nat}

theorem walk_of_visited (hqueue : queue.dropWhile (· ∈ visited) = []) :
    walk ask patience visited queue found = pure found := by
  unfold walk
  rw [hqueue]

theorem walk_zero_of_unvisited (hqueue : queue.dropWhile (· ∈ visited) = key :: rest) :
    walk ask 0 visited queue found = .fail .abandoned := by
  unfold walk
  rw [hqueue]

theorem walk_succ_of_unvisited (hqueue : queue.dropWhile (· ∈ visited) = key :: rest) :
    walk ask (patience + 1) visited queue found = ask key >>= fun below =>
      walk ask patience (key :: visited) (rest ++ newKeys (key :: visited) below)
        (found.insertAll below) := by
  conv_lhs => unfold walk
  rw [hqueue]

end Step

private theorem mem_visited_or_dropWhile (visited : List String) (h : key ∈ queue) :
    key ∈ visited ∨ key ∈ queue.dropWhile (· ∈ visited) := by
  rw [← List.takeWhile_append_dropWhile (p := (· ∈ visited)) (l := queue)] at h
  rcases List.mem_append.1 h with htaken | hdropped
  · exact .inl (by simpa using List.mem_takeWhile_imp htaken)
  · exact .inr hdropped

private theorem not_mem_visited (hqueue : queue.dropWhile (· ∈ visited) = key :: rest) :
    key ∉ visited := by
  have h := List.head?_dropWhile_not (· ∈ visited) queue
  rw [hqueue] at h
  simpa using h

theorem mem_newKeys {issue : Issue} (hissue : issue ∈ below) :
    issue.key ∈ visited ∨ issue.key ∈ newKeys visited below := by
  by_cases h : issue.key ∈ visited
  · exact .inl h
  · exact .inr (List.mem_filter.2 ⟨List.mem_map_of_mem hissue, by simpa using h⟩)

/-! ## The invariant -/

/-- What holds of a walk below `parents` whenever it looks at its queue. -/
structure WalkInvariant (children : String → Except Error (List Issue))
    (parents visited queue : List String) (found : IssueSet) : Prop where
  visited_reachable : ∀ key ∈ visited, Reachable children parents key
  queue_reachable : ∀ key ∈ queue, Reachable children parents key
  visited_nodup : visited.Nodup
  parents_covered : ∀ key ∈ parents, key ∈ visited ∨ key ∈ queue
  children_covered : ∀ key ∈ visited, ∃ below, children key = .ok below ∧
    ∀ issue ∈ below, issue.key ∈ visited ∨ issue.key ∈ queue
  mem_found : ∀ issue, issue ∈ found ↔
    ∃ key ∈ visited, ∃ below, children key = .ok below ∧ issue ∈ below

namespace WalkInvariant

theorem start : WalkInvariant children parents [] parents ∅ where
  visited_reachable := by simp
  queue_reachable _ := .parent
  visited_nodup := .nil
  parents_covered _ := .inr
  children_covered := by simp
  mem_found := by simp [ValueSet.mem_def]

theorem step (h : WalkInvariant children parents visited queue found)
    (hqueue : queue.dropWhile (· ∈ visited) = key :: rest) (hfetch : children key = .ok below) :
    WalkInvariant children parents (key :: visited) (rest ++ newKeys (key :: visited) below)
      (found.insertAll below) := by
  have hsub : ∀ other ∈ key :: rest, other ∈ queue := by
    intro other hother
    rw [← hqueue] at hother
    exact List.dropWhile_subset _ hother
  have hreach : Reachable children parents key := h.queue_reachable key (hsub key (by simp))
  -- a key that was covered stays so: it is visited, or it is still in the queue
  have hcovered : ∀ other, other ∈ visited ∨ other ∈ queue →
      other ∈ key :: visited ∨ other ∈ rest ++ newKeys (key :: visited) below := by
    rintro other (hvisited | hqueued)
    · exact .inl (List.mem_cons_of_mem _ hvisited)
    · rcases mem_visited_or_dropWhile visited hqueued with hvisited | hleft
      · exact .inl (List.mem_cons_of_mem _ hvisited)
      · rw [hqueue] at hleft
        rcases List.mem_cons.1 hleft with rfl | hrest
        · exact .inl List.mem_cons_self
        · exact .inr (List.mem_append_left _ hrest)
  refine ⟨?_, ?_, ?_, ?_, ?_, ?_⟩
  · intro other hother
    rcases List.mem_cons.1 hother with rfl | hvisited
    · exact hreach
    · exact h.visited_reachable other hvisited
  · intro other hother
    rcases List.mem_append.1 hother with hrest | hnew
    · exact h.queue_reachable other (hsub other (List.mem_cons_of_mem _ hrest))
    · obtain ⟨issue, hissue, rfl⟩ := List.mem_map.1 (List.mem_filter.1 hnew).1
      exact .child hreach hfetch hissue
  · exact List.nodup_cons.2 ⟨not_mem_visited hqueue, h.visited_nodup⟩
  · exact fun other hother => hcovered other (h.parents_covered other hother)
  · intro other hother
    rcases List.mem_cons.1 hother with rfl | hvisited
    · exact ⟨below, hfetch, fun issue hissue =>
        (mem_newKeys hissue).imp_right (List.mem_append_right _)⟩
    · obtain ⟨others, hothers, hkeys⟩ := h.children_covered other hvisited
      exact ⟨others, hothers, fun issue hissue => hcovered _ (hkeys issue hissue)⟩
  · intro issue
    simp only [ValueSet.mem_insertAll, h.mem_found, List.mem_cons, exists_eq_or_imp, hfetch,
      Except.ok.injEq, exists_eq_left']
    exact or_comm

/-- A walk that has nothing left to visit has visited the reachable keys. -/
theorem complete (h : WalkInvariant children parents visited queue found)
    (hqueue : queue.dropWhile (· ∈ visited) = []) :
    key ∈ visited ↔ Reachable children parents key := by
  have hvisited : ∀ other, other ∈ visited ∨ other ∈ queue → other ∈ visited := by
    rintro other (hother | hother)
    · exact hother
    · simpa using List.dropWhile_eq_nil_iff.1 hqueue other hother
  constructor
  · exact h.visited_reachable key
  · intro hreach
    induction hreach with
    | parent hparent => exact hvisited _ (h.parents_covered _ hparent)
    | child _ hfetch hissue ih =>
        obtain ⟨below, hbelow, hkeys⟩ := h.children_covered _ ih
        rw [hfetch, Except.ok.injEq] at hbelow
        subst hbelow
        exact hvisited _ (hkeys _ hissue)

/-- As long as there is a key to visit, the patience is not used up. -/
theorem length_lt (h : WalkInvariant children parents visited queue found)
    (hqueue : queue.dropWhile (· ∈ visited) = key :: rest) {keys : List String}
    (hkeys : ∀ key, Reachable children parents key → key ∈ keys) :
    visited.length < keys.length := by
  -- the next key is as good as visited: it is reachable, and not visited before
  have hmem : key ∈ queue := List.dropWhile_subset _ (hqueue ▸ List.mem_cons_self)
  have hnodup : (key :: visited).Nodup :=
    List.nodup_cons.2 ⟨not_mem_visited hqueue, h.visited_nodup⟩
  refine hnodup.length_le_of_subset fun other hother => hkeys other ?_
  rcases List.mem_cons.1 hother with rfl | hvisited
  · exact h.queue_reachable _ hmem
  · exact h.visited_reachable other hvisited

end WalkInvariant

/-! ## Whole walks -/

/-- The account tells of the children of a key what `children` says. -/
def ToldOf (children : String → Except Error (List Issue)) (account : List (Reply sources)) :
    Prop :=
  ∀ key below, ⟨Question.children key, below⟩ ∈ account → children key = .ok below

section Ends

variable {patience : Nat} {account : List (Reply sources)} {result : IssueSet}

/-- A walk that asks for nothing has nothing left to visit. -/
theorem ends_walk_nil
    (hends : (walk Task.children patience visited queue found).Ends [] result) :
    queue.dropWhile (· ∈ visited) = [] ∧ result = found := by
  cases hqueue : queue.dropWhile (· ∈ visited) with
  | nil =>
      rw [walk_of_visited hqueue] at hends
      exact ⟨rfl, (Plan.ends_done_iff.1 hends).2⟩
  | cons key rest =>
      cases patience with
      | zero =>
          rw [walk_zero_of_unvisited hqueue] at hends
          exact absurd hends Plan.not_ends_fail
      | succ patience =>
          rw [walk_succ_of_unvisited hqueue] at hends
          obtain ⟨below, first, later, haccount, hfirst, -⟩ := Plan.ends_bind_iff.1 hends
          obtain rfl := Plan.ends_ask_done_iff.1 hfirst
          exact absurd haccount (by simp)

/-- Otherwise it asks for the children of the first key that is not visited, and goes on. -/
theorem ends_walk_cons {reply : Reply sources}
    (hends : (walk Task.children patience visited queue found).Ends (reply :: account) result) :
    ∃ key rest below fewer, queue.dropWhile (· ∈ visited) = key :: rest ∧
      patience = fewer + 1 ∧ reply = ⟨.children key, below⟩ ∧
      (walk Task.children fewer (key :: visited) (rest ++ newKeys (key :: visited) below)
        (found.insertAll below)).Ends account result := by
  cases hqueue : queue.dropWhile (· ∈ visited) with
  | nil =>
      rw [walk_of_visited hqueue] at hends
      exact absurd (Plan.ends_done_iff.1 hends).1 (by simp)
  | cons key rest =>
      cases patience with
      | zero =>
          rw [walk_zero_of_unvisited hqueue] at hends
          exact absurd hends Plan.not_ends_fail
      | succ patience =>
          rw [walk_succ_of_unvisited hqueue] at hends
          obtain ⟨below, first, later, haccount, hfirst, hlater⟩ := Plan.ends_bind_iff.1 hends
          obtain rfl := Plan.ends_ask_done_iff.1 hfirst
          obtain ⟨rfl, rfl⟩ := List.cons.inj haccount
          exact ⟨key, rest, below, patience, rfl, rfl, rfl, hlater⟩

/-- A walk that ends has asked for the children of some keys, one after the
other, and nothing is left to visit then.  What every fetch of the children of
the first key not yet visited keeps, the walk keeps. -/
theorem kept_of_ends_walk (Kept : List String → List String → IssueSet → Prop)
    (hstep : ∀ {visited queue rest found key below}, Kept visited queue found →
      queue.dropWhile (· ∈ visited) = key :: rest → children key = .ok below →
        Kept (key :: visited) (rest ++ newKeys (key :: visited) below) (found.insertAll below))
    (h : Kept visited queue found)
    (hends : (walk Task.children patience visited queue found).Ends account result)
    (htold : ToldOf children account) :
    ∃ asked left : List String, account.map Reply.question = asked.map Question.children ∧
      Kept (asked.reverse ++ visited) left result ∧
      left.dropWhile (· ∈ asked.reverse ++ visited) = [] := by
  -- behind each reply the walk goes on from a state in which the same holds again
  induction account generalizing patience visited queue found with
  | nil =>
      obtain ⟨hqueue, rfl⟩ := ends_walk_nil hends
      exact ⟨[], queue, rfl, h, hqueue⟩
  | cons reply account ih =>
      obtain ⟨key, rest, below, fewer, hqueue, -, rfl, hlater⟩ := ends_walk_cons hends
      have hfetch : children key = .ok below := htold key below List.mem_cons_self
      obtain ⟨asked, left, hasked, hkept, hleft⟩ :=
        ih (hstep h hqueue hfetch) hlater fun other others hother =>
          htold other others (List.mem_cons_of_mem _ hother)
      refine ⟨key :: asked, left, congrArg (Question.children key :: ·) hasked, ?_, ?_⟩
      · simpa using hkept
      · simpa using hleft

end Ends

/-- What a walk from the start comes to, on any account of its replies. -/
theorem ends_descendants {patience : Nat} {account : List (Reply sources)}
    (hends : (descendants Task.children patience parents).Ends account found)
    (htold : ToldOf children account) :
    ∃ asked : List String, account.map Reply.question = asked.map Question.children ∧
      asked.Nodup ∧ (∀ key, key ∈ asked ↔ Reachable children parents key) ∧
      (∀ key, Reachable children parents key → ∃ below, children key = .ok below) ∧
      ∀ issue, issue ∈ found ↔ ∃ key below, Reachable children parents key ∧
        children key = .ok below ∧ issue ∈ below := by
  obtain ⟨asked, left, hasked, hinvariant, hleft⟩ :=
    kept_of_ends_walk (WalkInvariant children parents) WalkInvariant.step .start hends htold
  have hreach : ∀ key, key ∈ asked.reverse ++ [] ↔ Reachable children parents key :=
    fun key => hinvariant.complete hleft
  refine ⟨asked, hasked, ?_, ?_, ?_, ?_⟩
  · simpa using hinvariant.visited_nodup
  · simpa using hreach
  · intro key hkey
    obtain ⟨below, hfetch, -⟩ := hinvariant.children_covered key ((hreach key).2 hkey)
    exact ⟨below, hfetch⟩
  · intro issue
    rw [hinvariant.mem_found]
    simp only [hreach]
    constructor
    · rintro ⟨key, hkey, below, hfetch, hissue⟩
      exact ⟨key, below, hkey, hfetch, hissue⟩
    · rintro ⟨key, below, hkey, hfetch, hissue⟩
      exact ⟨key, hkey, below, hfetch, hissue⟩

/-- With enough patience a walk fails only where the fetch of a reachable key
does. -/
theorem error_of_run_walk {σ : Type} {world : World sources σ} {patience : Nat}
    {keys : List String} {s s' : σ} {error : Error}
    (hworld : ∀ key s, (world (.children key) s).1 = children key)
    (hkeys : ∀ key, Reachable children parents key → key ∈ keys)
    (hpatience : keys.length ≤ visited.length + patience)
    (h : WalkInvariant children parents visited queue found)
    (hrun : (walk Task.children patience visited queue found).run world s = (.error error, s')) :
    ∃ key, Reachable children parents key ∧ children key = .error error := by
  induction patience generalizing visited queue found s with
  | zero =>
      cases hqueue : queue.dropWhile (· ∈ visited) with
      | nil => simp [walk_of_visited hqueue] at hrun
      | cons key rest =>
          -- a key that is left to visit is one of `keys` that the patience still covers
          have hleft := h.length_lt hqueue hkeys
          omega
  | succ patience ih =>
      cases hqueue : queue.dropWhile (· ∈ visited) with
      | nil => simp [walk_of_visited hqueue] at hrun
      | cons key rest =>
          have hreach : Reachable children parents key :=
            h.queue_reachable key (List.dropWhile_subset _ (hqueue ▸ List.mem_cons_self))
          rw [walk_succ_of_unvisited hqueue] at hrun
          have hanswer := hworld key s
          cases houtcome : world (.children key) s with
          | mk outcome later =>
              rw [houtcome] at hanswer
              cases outcome with
              | error cause =>
                  have hstop := (Plan.run_ask_bind_of_error houtcome).symm.trans hrun
                  simp only [Prod.mk.injEq, Except.error.injEq] at hstop
                  obtain ⟨rfl, -⟩ := hstop
                  exact ⟨key, hreach, hanswer.symm⟩
              | ok below =>
                  refine ih ?_ (h.step hqueue hanswer.symm)
                    ((Plan.run_ask_bind_of_ok houtcome).symm.trans hrun)
                  simp only [List.length_cons]
                  omega

/-! ## Walks in a world that keeps to its answers -/

/-- The children of each key, as the sources tell of them. -/
def childrenBy (answer : (q : Question) → Except Error q.Answer) (key : String) :
    Except Error (List Issue) :=
  answer (.children key)

variable {answer : (q : Question) → Except Error q.Answer} {patience : Nat} {keys : List String}

theorem toldOf_replies {α : Type} {task : Task α} {s : List Question} :
    ToldOf (childrenBy answer) (task.replies (Plan.recording answer) s) := by
  intro key below hmem
  obtain ⟨_, hanswer⟩ := Plan.world_of_mem_replies hmem
  exact hanswer

/-- The fetch of every reachable key of a walk that ends succeeds, and the issues
found are those under the reachable keys. -/
theorem mem_of_run_descendants {before after : List Question}
    (hrun : (descendants Task.children patience parents).run (Plan.recording answer) before =
      (.ok found, after)) :
    (∀ key, Reachable (childrenBy answer) parents key →
      ∃ below, childrenBy answer key = .ok below) ∧
    ∀ issue, issue ∈ found ↔ ∃ key below, Reachable (childrenBy answer) parents key ∧
      childrenBy answer key = .ok below ∧ issue ∈ below := by
  obtain ⟨_, _, _, _, hfetched, hfound⟩ :=
    ends_descendants (Plan.ends_of_run hrun) toldOf_replies
  exact ⟨hfetched, hfound⟩

/-- With enough patience a walk fails exactly when the fetch of a reachable key
does. -/
theorem run_descendants_error_iff {before : List Question}
    (hkeys : ∀ key, Reachable (childrenBy answer) parents key → key ∈ keys)
    (hpatience : keys.length ≤ patience) :
    (∃ error after, (descendants Task.children patience parents).run (Plan.recording answer)
        before = (.error error, after)) ↔
    ∃ key error, Reachable (childrenBy answer) parents key ∧
      childrenBy answer key = .error error := by
  constructor
  · rintro ⟨error, after, hrun⟩
    obtain ⟨key, hreach, hfetch⟩ :=
      error_of_run_walk (fun _ _ => rfl) hkeys (by simpa using hpatience) .start hrun
    exact ⟨key, error, hreach, hfetch⟩
  · rintro ⟨key, error, hreach, hfetch⟩
    cases hrun : (descendants Task.children patience parents).run (Plan.recording answer)
        before with
    | mk outcome after =>
        cases outcome with
        | error cause => exact ⟨cause, after, rfl⟩
        | ok found =>
            obtain ⟨below, hbelow⟩ := (mem_of_run_descendants hrun).1 key hreach
            rw [hfetch] at hbelow
            exact absurd hbelow (by simp)

/-- Of a hierarchy in which finitely many keys come up, whatever its shape, the
walk fails exactly when the fetch of one of these keys does.  Otherwise it asks
for the children of each of them exactly once, and it finds the union of these
children, in value order and without repetition; so only the set of the parents
matters for what is found. -/
theorem run_descendants_of_finite (answer : (q : Question) → Except Error q.Answer)
    (parents keys : List String) (patience : Nat)
    (hkeys : ∀ key, Reachable (childrenBy answer) parents key → key ∈ keys)
    (hpatience : keys.length ≤ patience) :
    ((∃ error asked, (descendants Task.children patience parents).run (Plan.recording answer) [] =
        (.error error, asked)) ↔
      ∃ key error, Reachable (childrenBy answer) parents key ∧
        childrenBy answer key = .error error) ∧
    ∀ found asked, (descendants Task.children patience parents).run (Plan.recording answer) [] =
        (.ok found, asked) →
      asked.Nodup ∧
      (∀ q, q ∈ asked ↔ ∃ key, Reachable (childrenBy answer) parents key ∧ q = .children key) ∧
      found.toList.Pairwise (fun a b => compare a b = .lt) ∧
      (∀ issue, issue ∈ found ↔ ∃ key below, Reachable (childrenBy answer) parents key ∧
        childrenBy answer key = .ok below ∧ issue ∈ below) ∧
      ∀ others : List String, (∀ key, key ∈ others ↔ key ∈ parents) →
        ((descendants Task.children patience others).run (Plan.recording answer) []).1 =
          .ok found := by
  refine ⟨run_descendants_error_iff hkeys hpatience, ?_⟩
  intro found log hrun
  obtain ⟨asked, hasked, hnodup, hreach, hfetched, hfound⟩ :=
    ends_descendants (Plan.ends_of_run hrun) toldOf_replies
  have hlog : log = (asked.map Question.children).reverse := by
    rw [Plan.recorded_of_run hrun, hasked, List.append_nil]
  refine ⟨?_, ?_, found.increasing, hfound, ?_⟩
  · rw [hlog, List.nodup_reverse]
    exact hnodup.map fun _ _ h => Question.children.inj h
  · intro q
    rw [hlog, List.mem_reverse, List.mem_map]
    simp only [hreach, eq_comm]
  · intro others hothers
    have hsame : ∀ key, Reachable (childrenBy answer) others key ↔
        Reachable (childrenBy answer) parents key := fun key =>
      ⟨Reachable.of_subset fun key => (hothers key).1,
        Reachable.of_subset fun key => (hothers key).2⟩
    cases hother : (descendants Task.children patience others).run (Plan.recording answer) [] with
    | mk outcome after =>
        cases outcome with
        | error cause =>
            -- the fetch that failed would have failed below `parents` too
            obtain ⟨key, error, hkey, hfetch⟩ := (run_descendants_error_iff
              (fun key hkey => hkeys key ((hsame key).1 hkey)) hpatience).1 ⟨cause, after, hother⟩
            obtain ⟨below, hbelow⟩ := hfetched key ((hsame key).1 hkey)
            rw [hfetch] at hbelow
            exact absurd hbelow (by simp)
        | ok result =>
            have hresult : result = found := ValueSet.ext fun issue => by
              rw [(mem_of_run_descendants hother).2, hfound]
              simp only [hsame]
            rw [hresult]

/-- An issue that was completed at the given time, with nothing to be said of
its other fields. -/
def sampleIssue (key typeName : String) (completedAt : Option Time.Instant) : Issue :=
  { id := key, key, url := "", title := key, description := none, status := "", typeName
    progression := .todo, priority := none, estimate := none, assigneeId := none
    assigneeName := none, creatorId := none, creatorName := none, parentKey := none
    createdAt := ⟨0, 0⟩, updatedAt := ⟨0, 0⟩, completedAt, dueAt := none }

/-- A snapshot that holds nothing. -/
def Snapshot.blank : Snapshot :=
  { issues := [], children := [], comments := [], resolved := [], byText := [], byLogin := []
    incidents := [], orgs := [], reply := "", down := [] }

/-- A snapshot in which no call is down tells of the children of each key. -/
theorem childrenBy_of_up {s : Snapshot} (hup : s.down = []) (key : String) :
    childrenBy s.answer? key = .ok (Snapshot.under key s.children) := by
  simp [childrenBy, Snapshot.answer?, Question.call?, hup, Snapshot.answer]

/-- The keys that come up in a snapshot are among those that hold the parents and the keys
under each of them. -/
theorem mem_of_reachable_of_up {s : Snapshot} (hup : s.down = [])
    (hparents : ∀ key ∈ parents, key ∈ keys)
    (hclosed : ∀ key ∈ keys, ∀ issue ∈ Snapshot.under key s.children, issue.key ∈ keys)
    (h : Reachable (childrenBy s.answer?) parents key) : key ∈ keys := by
  refine h.mem_of_closed hparents fun key hkey below hbelow => ?_
  rw [childrenBy_of_up hup, Except.ok.injEq] at hbelow
  rw [← hbelow]
  exact hclosed key hkey

/-- Two containers, each under the other, and one of them under itself too. -/
def cyclicSnapshot : Snapshot :=
  { Snapshot.blank with
    children :=
      [("ENG-1", [sampleIssue "ENG-2" "Epic" none]),
       ("ENG-2", [sampleIssue "ENG-1" "Epic" none, sampleIssue "ENG-2" "Epic" none])] }

theorem reachable_cyclicSnapshot {key : String}
    (h : Reachable (childrenBy cyclicSnapshot.answer?) ["ENG-1", "ENG-1"] key) :
    key ∈ ["ENG-1", "ENG-2"] :=
  mem_of_reachable_of_up rfl (by decide) (by decide) h

theorem run_descendants_of_cycle :
    ∃ found asked, (descendants Task.children 2 ["ENG-1", "ENG-1"]).run
        (Plan.recording cyclicSnapshot.answer?) [] = (.ok found, asked) ∧ asked.Nodup ∧
      ∀ q, q ∈ asked ↔ ∃ key, Reachable (childrenBy cyclicSnapshot.answer?) ["ENG-1", "ENG-1"] key ∧
        q = .children key := by
  obtain ⟨hfail, hsuccess⟩ := run_descendants_of_finite cyclicSnapshot.answer? ["ENG-1", "ENG-1"]
    ["ENG-1", "ENG-2"] 2 (fun _ => reachable_cyclicSnapshot) (by decide)
  cases hrun : (descendants Task.children 2 ["ENG-1", "ENG-1"]).run
      (Plan.recording cyclicSnapshot.answer?) [] with
  | mk outcome asked =>
      cases outcome with
      | error error =>
          obtain ⟨key, cause, -, hfetch⟩ := hfail.1 ⟨error, asked, hrun⟩
          rw [childrenBy_of_up rfl] at hfetch
          exact absurd hfetch (by simp)
      | ok found =>
          obtain ⟨hnodup, hasked, -⟩ := hsuccess found asked hrun
          exact ⟨found, asked, rfl, hnodup, hasked⟩

end TeamDigest.Gather
