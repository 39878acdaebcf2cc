/-!
# Orders of completion

Tasks that run side by side end in any order.  `Turns n` are the orders in
which `n` tasks may end; `Turns.arrange` puts their results into such an order
and neither loses nor repeats one (`Turns.arrange_perm`).
-/

namespace TeamDigest

/-- An order in which `n` tasks may end, by their numbers. -/
structure Turns (n : Nat) where
  order : List Nat
  perm : order.Perm (List.range n)

namespace Turns

/-- The order in which the tasks were started. -/
def inOrder (n : Nat) : Turns n := ⟨List.range n, .refl _⟩

/-- The results of the tasks in the order of their completion. -/
def arrange {α : Type} (results : List α) (turns : Turns results.length) : List α :=
  turns.order.filterMap fun i => results[i]?

private theorem filterMap_range {α : Type} (xs : List α) :
    (List.range xs.length).filterMap (fun i => xs[i]?) = xs := by
  induction xs with
  | nil => rfl
  | cons x xs ih =>
    rw [List.length_cons, List.range_succ_eq_map, List.filterMap_cons, List.filterMap_map]
    simpa [Function.comp_def] using ih

/-- All results are there, whatever their order. -/
theorem arrange_perm {α : Type} (results : List α) (turns : Turns results.length) :
    (arrange results turns).Perm results := by
  have h := turns.perm.filterMap fun i => results[i]?
  rw [filterMap_range] at h
  exact h

@[simp] theorem arrange_inOrder {α : Type} (results : List α) :
    arrange results (inOrder results.length) = results :=
  filterMap_range results

end Turns

end TeamDigest
