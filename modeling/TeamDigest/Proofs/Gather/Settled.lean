import TeamDigest.Gather.Sources
import TeamDigest.Proofs.Plan.Outage

/-!
# Tasks that settle on a value

Of a steady world no call fails, and what it answers to a question does not
depend on when the question comes.  It may still let tasks that go on side by
side end in any order, in each place differently, and change with every
question the order that it takes next.  A task settles on a value if it comes to
that value in every steady world: it ends well, and no order of completion, at
any level, makes a difference.

## Strategy

`Settles` is closed under the ways in which tasks are built.  The one place where
an order comes in is `Settles.gather_bind`: what follows on tasks side by side has
to come to the same value on every permutation of their results.  Nested tasks
need no more than that, as the inner ones have settled on values by then.
-/

namespace TeamDigest.Gather

variable {α β σ : Type} {answer : (q : Question) → q.Answer}

/-- The world answers every call as `answer` says, whenever it is put, and names
some order for tasks that go on side by side. -/
structure Steady (answer : (q : Question) → q.Answer) (world : World sources σ) : Prop where
  call : ∀ q s, (∀ n, q ≠ .turns n) → (world q s).1 = .ok (answer q)
  turns : ∀ n s, ∃ order, (world (.turns n) s).1 = .ok order

/-- The task comes to the value in every steady world. -/
def Settles (answer : (q : Question) → q.Answer) (task : Task α) (a : α) : Prop :=
  ∀ (σ : Type) (world : World sources σ) (s : σ), Steady answer world →
    (task.run world s).1 = .ok a

/-! ## One task after the other -/

/-- The world in which tasks end in the order in which they were started. -/
def sequential (answer : (q : Question) → q.Answer) : World sources Unit := fun q _ =>
  match q with
  | .turns n => (.ok (Turns.inOrder n), ())
  | q => (.ok (answer q), ())

theorem steady_sequential (answer : (q : Question) → q.Answer) :
    Steady answer (sequential answer) where
  call q s hq := by
    cases q with
    | turns n => exact absurd rfl (hq n)
    | _ => rfl
  turns n s := ⟨Turns.inOrder n, rfl⟩

namespace Settles

theorem run_sequential {task : Task α} {a : α} (h : Settles answer task a) :
    (task.run (sequential answer) ()).1 = .ok a :=
  h Unit (sequential answer) () (steady_sequential answer)

/-- A task settles on one value at most. -/
theorem unique {task : Task α} {a b : α} (ha : Settles answer task a)
    (hb : Settles answer task b) : a = b :=
  Except.ok.inj (ha.run_sequential.symm.trans hb.run_sequential)

/-- What a task settles on is what it ends with on some account. -/
theorem exists_ends {task : Task α} {a : α} (h : Settles answer task a) :
    ∃ account, task.Ends account a := by
  have hrun : task.run (sequential answer) () = (.ok a, ()) := Prod.ext h.run_sequential rfl
  exact ⟨_, Plan.ends_of_run hrun⟩

/-! ## How tasks are built -/

theorem pure (a : α) : Settles answer (Pure.pure a : Task α) a := fun _ _ _ _ => rfl

theorem bind {task : Task α} {f : α → Task β} {a : α} {b : β} (htask : Settles answer task a)
    (hf : Settles answer (f a) b) : Settles answer (task >>= f) b := by
  intro σ world s hworld
  have hrun : task.run world s = (.ok a, (task.run world s).2) :=
    Prod.ext (htask σ world s hworld) rfl
  rw [Plan.run_bind, hrun]
  exact hf σ world _ hworld

theorem map {task : Task α} {a : α} (f : α → β) (h : Settles answer task a) :
    Settles answer (f <$> task) (f a) := by
  rw [map_eq_pure_bind]
  exact h.bind (.pure (f a))

/-- A call settles on its answer. -/
theorem call (q : Question) (hq : ∀ n, q ≠ .turns n) :
    Settles answer (Plan.ask q Plan.done : Task q.Answer) (answer q) := by
  intro σ world s hworld
  have hanswer : world q s = (.ok (answer q), (world q s).2) := Prod.ext (hworld.call q s hq) rfl
  rw [Plan.run, hanswer]
  rfl

theorem all {tasks : List (Task α)} {values : List α}
    (h : List.Forall₂ (Settles answer) tasks values) : Settles answer (Plan.all tasks) values := by
  induction h with
  | nil => exact .pure []
  | cons hhead _ ih => exact hhead.bind (ih.bind (.pure _))

/-- What follows on tasks side by side settles if it settles on the same value
for every permutation of their results. -/
theorem gather_bind {tasks : List (Task α)} {values : List α} {f : List α → Task β} {b : β}
    (htasks : List.Forall₂ (Settles answer) tasks values)
    (hf : ∀ found : List α, found.Perm values → Settles answer (f found) b) :
    Settles answer (Task.gather tasks >>= f) b := by
  rw [Task.gather, bind_assoc]
  refine (all htasks).bind fun σ world s hworld => ?_
  obtain ⟨order, horder⟩ := hworld.turns values.length s
  have hturns : world (.turns values.length) s = (.ok order, (world (.turns values.length) s).2) :=
    Prod.ext horder rfl
  rw [Plan.bind_ask, Plan.run, hturns]
  exact hf _ (Turns.arrange_perm values order) σ world _ hworld

end Settles

/-! ## Accounts with the right answers -/

/-- The answer is right if it answers a call.  Tasks may have ended in any order. -/
def Truthful (answer : (q : Question) → q.Answer) (reply : Reply sources) : Prop :=
  (∀ n, reply.question ≠ .turns n) → reply.answer = answer reply.question

theorem exists_truthful (answer : (q : Question) → q.Answer) (q : Question) :
    ∃ given : q.Answer, Truthful answer ⟨q, given⟩ :=
  ⟨answer q, fun _ => rfl⟩

/-- What a steady world replies is right. -/
theorem Steady.given_replies {world : World sources σ} (hworld : Steady answer world)
    (task : Task α) (s : σ) : Plan.Given (Truthful answer) (task.replies world s) := by
  intro reply hreply hcall
  obtain ⟨t, hgiven⟩ := Plan.world_of_mem_replies hreply
  have hright := hworld.call reply.question t hcall
  exact Except.ok.inj (hgiven.symm.trans hright)

/-- The order that comes next in an account. -/
def nextOrder (n : Nat) : List (Reply sources) → Turns n
  | ⟨.turns m, order⟩ :: _ => if h : m = n then h ▸ order else Turns.inOrder n
  | _ => Turns.inOrder n

/-- The world in which tasks end in the orders of an account. -/
def replaying (answer : (q : Question) → q.Answer) : World sources (List (Reply sources)) :=
  fun q rest =>
    match q with
    | .turns n => (.ok (nextOrder n rest), rest.tail)
    | q => (.ok (answer q), rest.tail)

theorem steady_replaying (answer : (q : Question) → q.Answer) :
    Steady answer (replaying answer) where
  call q s hq := by
    cases q with
    | turns n => exact absurd rfl (hq n)
    | _ => rfl
  turns n s := ⟨nextOrder n s, rfl⟩

/-- A question finds its own reply when the account is replayed. -/
theorem replaying_cons {q : Question} {given : q.Answer} (rest : List (Reply sources))
    (htrue : Truthful answer ⟨q, given⟩) :
    replaying answer q (⟨q, given⟩ :: rest) = (.ok given, rest) := by
  cases q with
  | turns n => simp [replaying, nextOrder]
  | _ => rw [show given = _ from htrue (by simp)]; rfl

theorem run_replaying {task : Task α} {account : List (Reply sources)} {a : α}
    (hends : task.Ends account a) (hgiven : Plan.Given (Truthful answer) account) :
    task.run (replaying answer) account = (.ok a, []) := by
  induction hends with
  | done a => rfl
  | ask given _ ih =>
      obtain ⟨htrue, hrest⟩ := List.forall_mem_cons.1 hgiven
      rw [Plan.run, replaying_cons _ htrue]
      exact ih hrest

/-- The task never asks for an order in which tasks end. -/
def AsksNoOrder (task : Task α) : Prop :=
  task.AsksOnly fun q : Question => ∀ n, q ≠ .turns n

theorem AsksNoOrder.of_asksOnly {task : Task α} {allowed : Question → Prop}
    (h : task.AsksOnly allowed) (hturns : ∀ n, ¬ allowed (.turns n)) : AsksNoOrder task := by
  refine h.mono ?_
  rintro _ hallowed n rfl
  exact hturns n hallowed

namespace Settles

/-- A task that settles ends with the same value on every account with the right
answers. -/
theorem eq_of_ends {task : Task α} {account : List (Reply sources)} {a b : α}
    (h : Settles answer task a) (hends : task.Ends account b)
    (hgiven : Plan.Given (Truthful answer) account) : b = a := by
  have hsettled := h _ (replaying answer) account (steady_replaying answer)
  rw [run_replaying hends hgiven] at hsettled
  exact Except.ok.inj hsettled

/-- A task that asks for no order settles on what it ends with. -/
theorem of_ends {task : Task α} {account : List (Reply sources)} {a : α}
    (hends : task.Ends account a) (hgiven : Plan.Given (Truthful answer) account)
    (hcalls : AsksNoOrder task) : Settles answer task a := by
  induction hends with
  | done a => exact .pure a
  | @ask q _ given _ _ _ ih =>
      obtain ⟨htrue, hrest⟩ := List.forall_mem_cons.1 hgiven
      have hright : given = answer q := htrue hcalls.1
      rw [hright] at ih
      exact (Settles.call q hcalls.1).bind (ih hrest (hcalls.2 _))

end Settles

end TeamDigest.Gather
