import TeamDigest.Proofs.Gather.Hierarchy
import Mathlib.Data.List.Induction
import Mathlib.Data.Nat.Find

/-!
# The order of a walk down a hierarchy

A walk comes upon the parents first, and then upon the keys of the issues under each key
that it expands: `discoveries`.  It may come upon a key many times.  The keys are expanded
in the order in which the walk first comes upon them (`isDiscoveryOrder_of_ends`).  There is
only one such order (`IsDiscoveryOrder.unique`), and along it the distance from the parents
never decreases (`IsDiscoveryOrder.depth_le`).

## Strategy

The queue holds keys many times, and keys that were visited since they were put there.  What
counts of it is the first place of each key that is not visited: `Discovered` says that the
visited keys, and behind them the queue, are the discoveries so far once repetitions are
left out.  The step keeps this (`Discovered.step`): the keys that it skips and those that it
does not put into the queue stand further in front already.

The distances follow from the order alone.  Where a key at distance `n + 1` is discovered,
a key at distance `n` is expanded; whatever was discovered earlier is a parent, or is under
a key that was expanded no later.
-/

namespace TeamDigest.Gather

open Work

/-! ## First places -/

section FirstPlaces

variable {α : Type} [BEq α] [LawfulBEq α] {as bs cs : List α} {a b : α} {p : α → Bool}

private theorem eraseDups_concat :
    (as ++ [a]).eraseDups = if a ∈ as then as.eraseDups else as.eraseDups ++ [a] := by
  rw [List.eraseDups_append]
  split
  · next h => simp [List.removeAll, h]
  · next h => simp [List.removeAll, h, List.eraseDups_cons]

theorem nodup_eraseDups (as : List α) : as.eraseDups.Nodup := by
  induction as using List.reverseRecOn with
  | nil => simp
  | append_singleton as a ih =>
      rw [eraseDups_concat]
      split
      · exact ih
      · next h =>
          have hnew : ∀ b ∈ as.eraseDups, b ≠ a := by
            rintro b hb rfl
            exact h (List.mem_eraseDups.1 hb)
          exact List.nodup_append.2 ⟨ih, List.nodup_singleton a, by simpa using hnew⟩

theorem eraseDups_of_nodup (h : as.Nodup) : as.eraseDups = as := by
  induction as using List.reverseRecOn with
  | nil => rfl
  | append_singleton as a ih =>
      have hnew : a ∉ as := fun ha => List.disjoint_of_nodup_append h ha List.mem_cons_self
      rw [eraseDups_concat, if_neg hnew, ih (List.Nodup.of_append_left h)]

theorem eraseDups_append_congr (h : as.eraseDups = bs.eraseDups) (cs : List α) :
    (as ++ cs).eraseDups = (bs ++ cs).eraseDups := by
  have hmem : ∀ c, c ∈ as ↔ c ∈ bs := by
    intro c
    rw [← List.mem_eraseDups, h, List.mem_eraseDups]
  rw [List.eraseDups_append, List.eraseDups_append, h]
  simp only [List.removeAll, List.elem_eq_mem, hmem]

/-- What is left out stands further in front. -/
theorem eraseDups_append_filter (h : ∀ c ∈ cs, p c = false → c ∈ as) :
    (as ++ cs.filter p).eraseDups = (as ++ cs).eraseDups := by
  have hsame : (cs.filter p).removeAll as = cs.removeAll as := by
    unfold List.removeAll
    rw [List.filter_filter]
    refine List.filter_congr fun c hc => ?_
    cases hp : p c with
    | true => simp
    | false => simp [h c hc hp]
  rw [List.eraseDups_append, List.eraseDups_append, hsame]

theorem eraseDups_append_of_subset (h : ∀ b ∈ bs, b ∈ as) :
    (as ++ bs).eraseDups = as.eraseDups := by
  rw [← eraseDups_append_filter (p := fun _ => false) fun c hc _ => h c hc]
  simp

theorem eraseDups_append_dropWhile (h : ∀ b, p b = true → b ∈ as) :
    (as ++ bs.dropWhile p).eraseDups = (as ++ bs).eraseDups := by
  have hskipped : ∀ b ∈ bs.takeWhile p, b ∈ as := fun b hb => h b (List.mem_takeWhile_imp hb)
  calc (as ++ bs.dropWhile p).eraseDups
      = (as ++ bs.takeWhile p ++ bs.dropWhile p).eraseDups :=
        eraseDups_append_congr (eraseDups_append_of_subset hskipped).symm _
    _ = (as ++ bs).eraseDups := by rw [List.append_assoc, List.takeWhile_append_dropWhile]

end FirstPlaces

/-- Of a list without repetition, what stands before a member of its front is in the front. -/
private theorem mem_front_of_sublist {α : Type} {as bs : List α} {a b : α}
    (hnodup : (as ++ bs).Nodup) (hb : b ∈ as) (hab : [a, b].Sublist (as ++ bs)) : a ∈ as := by
  obtain ⟨first, second, hsplit, hfirst, hsecond⟩ := List.sublist_append_iff.1 hab
  cases first with
  | nil =>
      have hback : b ∈ bs := hsecond.subset (by rw [← List.nil_append second, ← hsplit]; simp)
      exact absurd hback (List.disjoint_of_nodup_append hnodup hb)
  | cons head tail =>
      obtain ⟨rfl, -⟩ := List.cons.inj hsplit
      exact hfirst.subset List.mem_cons_self

/-! ## The order of discovery -/

/-- The keys of the issues under a key. -/
def childKeys (children : String → Except Error (List Issue)) (key : String) : List String :=
  match children key with
  | .ok below => below.map Issue.key
  | .error _ => []

/-- The keys that a walk comes upon, one after the other, while it expands some keys: the
parents, and then the keys of the issues under each. -/
def discoveries (children : String → Except Error (List Issue)) (parents expanded : List String) :
    List String :=
  parents ++ expanded.flatMap (childKeys children)

/-- The keys that come up, each once, in the order of their discovery: a walk that expands them
in this order first comes upon them in this order. -/
structure IsDiscoveryOrder (children : String → Except Error (List Issue))
    (parents order : List String) : Prop where
  mem_iff : ∀ key, key ∈ order ↔ Reachable children parents key
  eraseDups_eq : (discoveries children parents order).eraseDups = order

variable {children : String → Except Error (List Issue)}
  {parents visited queue rest order other front : List String} {key a b : String}
  {below : List Issue}

theorem childKeys_of_ok (hfetch : children key = .ok below) :
    childKeys children key = below.map Issue.key := by
  rw [childKeys, hfetch]

theorem mem_childKeys_iff : a ∈ childKeys children key ↔
    ∃ below, children key = .ok below ∧ ∃ issue ∈ below, issue.key = a := by
  unfold childKeys
  cases children key with
  | ok below => simp
  | error error => simp

theorem discoveries_append (front back : List String) :
    discoveries children parents (front ++ back) =
      discoveries children parents front ++ back.flatMap (childKeys children) := by
  simp [discoveries]

theorem mem_discoveries_iff : a ∈ discoveries children parents front ↔
    a ∈ parents ∨ ∃ key ∈ front, a ∈ childKeys children key := by
  simp [discoveries]

namespace IsDiscoveryOrder

theorem nodup (h : IsDiscoveryOrder children parents order) : order.Nodup := by
  rw [← h.eraseDups_eq]
  exact nodup_eraseDups _

/-- What is discovered while a front of the order is expanded is a front of the order. -/
theorem eraseDups_prefix (h : IsDiscoveryOrder children parents order)
    (hfront : front <+: order) : (discoveries children parents front).eraseDups <+: order := by
  obtain ⟨back, rfl⟩ := hfront
  refine ⟨((back.flatMap (childKeys children)).removeAll
    (discoveries children parents front)).eraseDups, ?_⟩
  rw [← List.eraseDups_append, ← discoveries_append]
  exact h.eraseDups_eq

/-- The distinct parents come first. -/
theorem parents_prefix (h : IsDiscoveryOrder children parents order) :
    parents.eraseDups <+: order := by
  have hstart := h.eraseDups_prefix List.nil_prefix
  rwa [discoveries, List.flatMap_nil, List.append_nil] at hstart

/-- What stands before a discovery is discovered no later. -/
theorem mem_discoveries_of_sublist (h : IsDiscoveryOrder children parents order)
    (hfront : front <+: order) (hab : [a, b].Sublist order)
    (hb : b ∈ discoveries children parents front) : a ∈ discoveries children parents front := by
  obtain ⟨back, hback⟩ := h.eraseDups_prefix hfront
  rw [← hback] at hab
  have hnodup : ((discoveries children parents front).eraseDups ++ back).Nodup := by
    rw [hback]
    exact h.nodup
  exact List.mem_eraseDups.1 (mem_front_of_sublist hnodup (List.mem_eraseDups.2 hb) hab)

/-- The next key of the order has been discovered once those before it are expanded. -/
theorem concat_prefix (h : IsDiscoveryOrder children parents order)
    (hfront : front ++ [key] <+: order) :
    front ++ [key] <+: (discoveries children parents front).eraseDups := by
  have hshorter : front <+: order := (List.prefix_append front [key]).trans hfront
  rcases List.prefix_or_prefix_of_prefix hfront (h.eraseDups_prefix hshorter) with hdone | hless
  · exact hdone
  · rcases List.prefix_concat_iff.1 hless with heq | hclosed
    · exact heq ▸ List.prefix_rfl
    · -- nothing leads out of the front, so the key that follows it cannot come up
      have hmem : ∀ a ∈ discoveries children parents front, a ∈ front :=
        fun a ha => hclosed.subset (List.mem_eraseDups.2 ha)
      have hreach : Reachable children parents key :=
        (h.mem_iff key).1 (hfront.subset (by simp))
      have hkey : key ∈ front := by
        refine hreach.mem_of_closed ?_ ?_
        · intro parent hparent
          exact hmem _ (mem_discoveries_iff.2 (.inl hparent))
        · intro k hk below hbelow issue hissue
          refine hmem _ (mem_discoveries_iff.2 (.inr ⟨k, hk, ?_⟩))
          exact mem_childKeys_iff.2 ⟨below, hbelow, issue, hissue, rfl⟩
      have hnodup : (front ++ [key]).Nodup := h.nodup.sublist hfront.sublist
      exact absurd List.mem_cons_self (List.disjoint_of_nodup_append hnodup hkey)

private theorem prefix_of (h : IsDiscoveryOrder children parents order)
    (hother : IsDiscoveryOrder children parents other) : order <+: other := by
  have hall : ∀ front, front <+: order → front <+: other := by
    intro front
    induction front using List.reverseRecOn with
    | nil =>
        intro _
        exact List.nil_prefix
    | append_singleton front key ih =>
        intro hfront
        have hshorter : front <+: other := ih ((List.prefix_append front [key]).trans hfront)
        exact (h.concat_prefix hfront).trans (hother.eraseDups_prefix hshorter)
  exact hall order List.prefix_rfl

/-- There is one order of discovery at most. -/
theorem unique (h : IsDiscoveryOrder children parents order)
    (hother : IsDiscoveryOrder children parents other) : other = order := by
  have hle : order.length ≤ other.length := (h.prefix_of hother).length_le
  exact (hother.prefix_of h).eq_of_length_le hle

end IsDiscoveryOrder

/-! ## Distances -/

/-- The keys that come up some number of steps below the parents. -/
inductive ReachableIn (children : String → Except Error (List Issue)) (parents : List String) :
    Nat → String → Prop
  | parent {key : String} : key ∈ parents → ReachableIn children parents 0 key
  | child {n : Nat} {key : String} {below : List Issue} {issue : Issue} :
      ReachableIn children parents n key → children key = .ok below → issue ∈ below →
        ReachableIn children parents (n + 1) issue.key

/-- The distance of a key from the parents: the fewest steps in which it comes up. -/
structure IsDepth (children : String → Except Error (List Issue)) (parents : List String)
    (key : String) (n : Nat) : Prop where
  reachable : ReachableIn children parents n key
  le : ∀ m, ReachableIn children parents m key → n ≤ m

theorem reachable_iff_exists_reachableIn :
    Reachable children parents key ↔ ∃ n, ReachableIn children parents n key := by
  constructor
  · intro h
    induction h with
    | parent hkey => exact ⟨0, .parent hkey⟩
    | child _ hfetch hissue ih =>
        obtain ⟨n, hn⟩ := ih
        exact ⟨n + 1, .child hn hfetch hissue⟩
  · rintro ⟨n, hn⟩
    induction hn with
    | parent hkey => exact .parent hkey
    | child _ hfetch hissue ih => exact .child ih hfetch hissue

theorem exists_isDepth (h : Reachable children parents key) :
    ∃ n, IsDepth children parents key n := by
  classical
  have hsome : ∃ n, ReachableIn children parents n key := reachable_iff_exists_reachableIn.1 h
  exact ⟨Nat.find hsome, Nat.find_spec hsome, fun m hm => Nat.find_min' hsome hm⟩

/-- No key is further from the parents than one that is discovered later. -/
theorem IsDiscoveryOrder.depth_le (h : IsDiscoveryOrder children parents order) {m n : Nat}
    (hab : [a, b].Sublist order) (ha : IsDepth children parents a m)
    (hb : ReachableIn children parents n b) : m ≤ n := by
  -- on the way down to `b`: the key above `b` is expanded no earlier than one above `a`
  induction hb generalizing a m with
  | parent hparent =>
      have hdiscovered : a ∈ discoveries children parents [] :=
        h.mem_discoveries_of_sublist List.nil_prefix hab (mem_discoveries_iff.2 (.inl hparent))
      have hroot : a ∈ parents := by simpa [discoveries] using hdiscovered
      exact ha.le 0 (.parent hroot)
  | @child n above below issue habove hfetch hissue ih =>
      have hreach : Reachable children parents above :=
        reachable_iff_exists_reachableIn.2 ⟨n, habove⟩
      obtain ⟨front, back, hsplit⟩ := List.append_of_mem ((h.mem_iff above).2 hreach)
      have hfront : front ++ [above] <+: order := ⟨back, by simp [hsplit]⟩
      have hissueKey : issue.key ∈ childKeys children above :=
        mem_childKeys_iff.2 ⟨below, hfetch, issue, hissue, rfl⟩
      have hdiscovered : a ∈ discoveries children parents (front ++ [above]) :=
        h.mem_discoveries_of_sublist hfront hab
          (mem_discoveries_iff.2 (.inr ⟨above, by simp, hissueKey⟩))
      rcases mem_discoveries_iff.1 hdiscovered with hroot | ⟨other, hother, hchild⟩
      · exact (ha.le 0 (.parent hroot)).trans (Nat.zero_le _)
      · obtain ⟨others, hothers, child, hmember, rfl⟩ := mem_childKeys_iff.1 hchild
        -- no key that is expanded up to `above` is further away than `above`
        have hnear : ∃ d, d ≤ n ∧ ReachableIn children parents d other := by
          rcases List.mem_append.1 hother with hearlier | hsame
          · have hbefore : [other, above].Sublist order := by
              rw [hsplit]
              exact (List.singleton_sublist.2 hearlier).append
                (List.singleton_sublist.2 List.mem_cons_self)
            have hreachOther : Reachable children parents other :=
              (h.mem_iff other).1 (hbefore.subset List.mem_cons_self)
            obtain ⟨d, hd⟩ := exists_isDepth hreachOther
            exact ⟨d, ih hbefore hd, hd.reachable⟩
          · obtain rfl := List.mem_singleton.1 hsame
            exact ⟨n, Nat.le_refl n, habove⟩
        obtain ⟨d, hd, hdown⟩ := hnear
        calc m ≤ d + 1 := ha.le _ (.child hdown hothers hmember)
          _ ≤ n + 1 := Nat.succ_le_succ hd

theorem exists_depths (children : String → Except Error (List Issue)) (parents : List String) :
    ∃ depth : String → Nat, ∀ key, Reachable children parents key →
      IsDepth children parents key (depth key) := by
  choose! depth hdepth using fun key (hreach : Reachable children parents key) =>
    exists_isDepth hreach
  exact ⟨depth, hdepth⟩

theorem IsDiscoveryOrder.pairwise_depth (h : IsDiscoveryOrder children parents order)
    {depth : String → Nat} (hdepth : ∀ key ∈ order, IsDepth children parents key (depth key)) :
    order.Pairwise fun a b => depth a ≤ depth b := by
  rw [List.pairwise_iff_forall_sublist]
  intro a b hab
  have ha : a ∈ order := hab.subset (by simp)
  have hb : b ∈ order := hab.subset (by simp)
  exact h.depth_le hab (hdepth a ha) (hdepth b hb).reachable

/-! ## The walk -/

/-- The visited keys, in the order of their visits, and behind them the queue are the
discoveries so far, once repetitions are left out. -/
def Discovered (children : String → Except Error (List Issue))
    (parents visited queue : List String) : Prop :=
  (discoveries children parents visited.reverse).eraseDups = (visited.reverse ++ queue).eraseDups

theorem Discovered.start : Discovered children parents [] parents := by
  simp [Discovered, discoveries]

theorem Discovered.step (h : Discovered children parents visited queue)
    (hqueue : queue.dropWhile (· ∈ visited) = key :: rest) (hfetch : children key = .ok below) :
    Discovered children parents (key :: visited) (rest ++ newKeys (key :: visited) below) := by
  have hlive : (visited.reverse ++ queue).eraseDups =
      (visited.reverse ++ key :: rest).eraseDups := by
    rw [← hqueue]
    exact (eraseDups_append_dropWhile (by simp)).symm
  calc (discoveries children parents (key :: visited).reverse).eraseDups
      = (discoveries children parents visited.reverse ++ below.map Issue.key).eraseDups := by
        rw [List.reverse_cons, discoveries_append, List.flatMap_singleton, childKeys_of_ok hfetch]
    _ = (visited.reverse ++ key :: rest ++ below.map Issue.key).eraseDups :=
        eraseDups_append_congr (h.trans hlive) _
    _ = (visited.reverse ++ key :: rest ++ newKeys (key :: visited) below).eraseDups := by
        refine (eraseDups_append_filter fun c _ hc => ?_).symm
        have hvisited : c ∈ key :: visited := Decidable.not_not.1 (of_decide_eq_false hc)
        rcases List.mem_cons.1 hvisited with rfl | hearlier
        · simp
        · exact List.mem_append_left _ (List.mem_reverse.2 hearlier)
    _ = ((key :: visited).reverse ++ (rest ++ newKeys (key :: visited) below)).eraseDups := by
        simp

/-- A walk that ends has expanded the keys in the order of their discovery. -/
theorem isDiscoveryOrder_of_ends {patience : Nat} {account : List (Reply sources)}
    {found : IssueSet}
    (hends : (descendants Task.children patience parents).Ends account found)
    (htold : ToldOf children account) :
    ∃ order : List String, account.map Reply.question = order.map Question.children ∧
      IsDiscoveryOrder children parents order := by
  obtain ⟨order, left, hasked, ⟨hwalk, hdiscovered⟩, hleft⟩ := kept_of_ends_walk
    (fun visited queue found => WalkInvariant children parents visited queue found ∧
      Discovered children parents visited queue)
    (fun h hqueue hfetch => ⟨h.1.step hqueue hfetch, h.2.step hqueue hfetch⟩)
    ⟨.start, .start⟩ hends htold
  have hmem : ∀ key, key ∈ order ↔ Reachable children parents key := by
    intro key
    rw [← hwalk.complete hleft]
    simp
  have hnodup : order.Nodup := by simpa using hwalk.visited_nodup
  have hvisited : ∀ key ∈ left, key ∈ order := by
    simpa [List.dropWhile_eq_nil_iff] using hleft
  refine ⟨order, hasked, hmem, ?_⟩
  calc (discoveries children parents order).eraseDups
      = (order ++ left).eraseDups := by simpa [Discovered] using hdiscovered
    _ = order.eraseDups := eraseDups_append_of_subset hvisited
    _ = order := eraseDups_of_nodup hnodup

/-! ## Walks in a world that keeps to its answers -/

variable {answer : (q : Question) → Except Error q.Answer} {patience : Nat} {keys : List String}

/-- With enough patience a walk ends well exactly when the fetch of every reachable key does. -/
theorem run_descendants_ok_iff
    (hkeys : ∀ key, Reachable (childrenBy answer) parents key → key ∈ keys)
    (hpatience : keys.length ≤ patience) :
    (∃ found asked, (descendants Task.children patience parents).run (Plan.recording answer) [] =
        (.ok found, asked)) ↔
      ∀ key, Reachable (childrenBy answer) parents key →
        ∃ below, childrenBy answer key = .ok below := by
  constructor
  · rintro ⟨found, asked, hrun⟩
    exact (mem_of_run_descendants hrun).1
  · intro hfetched
    cases hrun : (descendants Task.children patience parents).run (Plan.recording answer) [] with
    | mk outcome asked =>
        cases outcome with
        | ok found => exact ⟨found, asked, rfl⟩
        | error cause =>
            obtain ⟨key, error, hreach, hfetch⟩ :=
              (run_descendants_error_iff hkeys hpatience).1 ⟨cause, asked, hrun⟩
            obtain ⟨below, hbelow⟩ := hfetched key hreach
            rw [hfetch] at hbelow
            exact absurd hbelow (by simp)

/-- Of a hierarchy in which finitely many keys come up, whatever its shape, a walk that ends
well, as it does exactly when every fetch does, asks for the children of the keys in the one
order in which they are discovered.  The distinct parents come first, and the distance from
the parents never decreases on the way. -/
theorem expands_in_order_of_discovery (answer : (q : Question) → Except Error q.Answer)
    (parents keys : List String) (patience : Nat)
    (hkeys : ∀ key, Reachable (childrenBy answer) parents key → key ∈ keys)
    (hpatience : keys.length ≤ patience) :
    ((∃ found asked, (descendants Task.children patience parents).run (Plan.recording answer) [] =
        (.ok found, asked)) ↔
      ∀ key, Reachable (childrenBy answer) parents key →
        ∃ below, childrenBy answer key = .ok below) ∧
    ∀ found asked, (descendants Task.children patience parents).run (Plan.recording answer) [] =
        (.ok found, asked) →
      ∃ order : List String, asked.reverse = order.map Question.children ∧
        (∀ other, IsDiscoveryOrder (childrenBy answer) parents other ↔ other = order) ∧
        parents.eraseDups <+: order ∧
        ∃ depth : String → Nat,
          (∀ key ∈ order, IsDepth (childrenBy answer) parents key (depth key)) ∧
          order.Pairwise fun a b => depth a ≤ depth b := by
  refine ⟨run_descendants_ok_iff hkeys hpatience, ?_⟩
  intro found log hrun
  obtain ⟨order, hasked, horder⟩ := isDiscoveryOrder_of_ends (Plan.ends_of_run hrun) toldOf_replies
  have hlog : log.reverse = order.map Question.children := by
    rw [Plan.recorded_of_run hrun, hasked, List.append_nil, List.reverse_reverse]
  obtain ⟨depth, hdepth⟩ := exists_depths (childrenBy answer) parents
  have hmember : ∀ key ∈ order, IsDepth (childrenBy answer) parents key (depth key) :=
    fun key hkey => hdepth key ((horder.mem_iff key).1 hkey)
  refine ⟨order, hlog, ?_, horder.parents_prefix, depth, hmember, horder.pairwise_depth hmember⟩
  intro other
  constructor
  · exact horder.unique
  · rintro rfl
    exact horder

/-- Two containers with a child in common, which is listed twice under the first; the first
is also under one of its own children, and the second is under the first. -/
def sharedSnapshot : Snapshot :=
  { Snapshot.blank with
    children :=
      [("ENG-1", [sampleIssue "ENG-4" "Epic" none, sampleIssue "ENG-3" "Epic" none,
         sampleIssue "ENG-4" "Epic" none, sampleIssue "ENG-2" "Epic" none]),
       ("ENG-2", [sampleIssue "ENG-3" "Epic" none, sampleIssue "ENG-5" "Task" none]),
       ("ENG-4", [sampleIssue "ENG-1" "Epic" none, sampleIssue "ENG-6" "Bug" none])] }

theorem expands_sharedSnapshot_in_order :
    ∃ found asked, (descendants Task.children 6 ["ENG-1", "ENG-2", "ENG-1"]).run
        (Plan.recording sharedSnapshot.answer?) [] = (.ok found, asked) ∧
      asked.reverse =
        ["ENG-1", "ENG-2", "ENG-4", "ENG-3", "ENG-5", "ENG-6"].map Question.children ∧
      IsDiscoveryOrder (childrenBy sharedSnapshot.answer?) ["ENG-1", "ENG-2", "ENG-1"]
        ["ENG-1", "ENG-2", "ENG-4", "ENG-3", "ENG-5", "ENG-6"] := by
  obtain ⟨hok, hordered⟩ := expands_in_order_of_discovery sharedSnapshot.answer?
    ["ENG-1", "ENG-2", "ENG-1"] ["ENG-1", "ENG-2", "ENG-4", "ENG-3", "ENG-5", "ENG-6"] 6
    (fun _ => mem_of_reachable_of_up rfl (by decide) (by decide)) (by decide)
  obtain ⟨found, asked, hrun⟩ := hok.2 fun key _ => ⟨_, childrenBy_of_up rfl key⟩
  have hasked : asked.reverse =
      ["ENG-1", "ENG-2", "ENG-4", "ENG-3", "ENG-5", "ENG-6"].map Question.children := by
    have hrecord : ((descendants Task.children 6 ["ENG-1", "ENG-2", "ENG-1"]).run
        (Plan.recording sharedSnapshot.answer?) []).2 = asked := by rw [hrun]
    rw [← hrecord]
    decide
  obtain ⟨order, horder, hunique, -⟩ := hordered found asked hrun
  have heq : ["ENG-1", "ENG-2", "ENG-4", "ENG-3", "ENG-5", "ENG-6"] = order :=
    List.map_injective_iff.2 (fun _ _ => Question.children.inj) (hasked.symm.trans horder)
  exact ⟨found, asked, hrun, hasked, (hunique _).2 heq⟩

end TeamDigest.Gather
