/-!
# Finite sets in value order

A `ValueSet` holds each of its members once and lists them in increasing order.
The order of the members decides everything that is seen of a set, so the view
of a set is its list, and two sets with the same members are equal
(`ValueSet.ext`).

Every operation comes with one membership lemma: `mem_insert`, `mem_insertAll`,
`mem_filter`, `mem_without`.
-/

namespace TeamDigest

/-- A list of values in strictly increasing order. -/
structure ValueSet (α : Type) [Ord α] where
  /-- The members, smallest first. -/
  toList : List α
  /-- The members increase strictly. -/
  increasing : toList.Pairwise fun a b => compare a b = .lt

namespace ValueSet

variable {α : Type} [Ord α]

instance : Membership α (ValueSet α) := ⟨fun s a => a ∈ s.toList⟩

theorem mem_def {a : α} {s : ValueSet α} : a ∈ s ↔ a ∈ s.toList := Iff.rfl

instance [DecidableEq α] (a : α) (s : ValueSet α) : Decidable (a ∈ s) :=
  inferInstanceAs (Decidable (a ∈ s.toList))

instance [DecidableEq α] : DecidableEq (ValueSet α) := fun s t =>
  if h : s.toList = t.toList then
    isTrue (by cases s; cases t; simp_all)
  else isFalse fun e => h (congrArg toList e)

/-- The set without members. -/
def empty : ValueSet α := ⟨[], .nil⟩

instance : EmptyCollection (ValueSet α) := ⟨empty⟩

instance : Inhabited (ValueSet α) := ⟨empty⟩

@[simp] theorem toList_empty : (∅ : ValueSet α).toList = [] := rfl

/-- The number of members. -/
def size (s : ValueSet α) : Nat := s.toList.length

/-- Holds of the set without members. -/
def isEmpty (s : ValueSet α) : Bool := s.toList.isEmpty

/-- The members that pass a test. -/
def filter (p : α → Bool) (s : ValueSet α) : ValueSet α :=
  ⟨s.toList.filter p, s.increasing.filter p⟩

@[simp] theorem toList_filter (p : α → Bool) (s : ValueSet α) :
    (s.filter p).toList = s.toList.filter p := rfl

@[simp] theorem mem_filter {p : α → Bool} {s : ValueSet α} {a : α} :
    a ∈ s.filter p ↔ a ∈ s ∧ p a = true := by
  simp [mem_def]

variable [Std.LawfulEqOrd α]

theorem compare_self_ne_lt (a : α) : compare a a ≠ .lt := by
  have h : compare a a = .eq := Std.ReflCmp.compare_self
  rw [h]
  decide

/-! ## Removal -/

/-- The members of `s` that do not stand in `xs`. -/
def without (s : ValueSet α) (xs : List α) : ValueSet α :=
  s.filter fun a => xs.all fun x => compare a x != .eq

@[simp] theorem mem_without {x : α} {s : ValueSet α} {xs : List α} :
    x ∈ s.without xs ↔ x ∈ s ∧ x ∉ xs := by
  simp only [without, mem_filter, List.all_eq_true, bne_iff_ne, ne_eq]
  refine and_congr_right fun _ => ?_
  constructor
  · intro h hx
    exact h x hx (Std.ReflCmp.compare_self)
  · intro h y hy hxy
    exact h (Std.LawfulEqOrd.eq_of_compare hxy ▸ hy)

/-! ## Insertion -/

/-- Puts `a` in its place in an increasing list; a list that holds it already
stays as it is. -/
def place (a : α) : List α → List α
  | [] => [a]
  | b :: bs =>
    match compare a b with
    | .lt => a :: b :: bs
    | .eq => b :: bs
    | .gt => b :: place a bs

@[simp] theorem mem_place {a x : α} {bs : List α} : x ∈ place a bs ↔ x = a ∨ x ∈ bs := by
  induction bs with
  | nil => simp [place]
  | cons b bs ih =>
    simp only [place]
    split
    · simp
    · next h =>
      have hab : a = b := Std.LawfulEqOrd.eq_of_compare h
      simp only [List.mem_cons, hab]
      constructor
      · exact Or.inr
      · rintro (h | h)
        · exact Or.inl h
        · exact h
    · simp only [List.mem_cons, ih]
      constructor
      · rintro (h | h | h)
        · exact Or.inr (Or.inl h)
        · exact Or.inl h
        · exact Or.inr (Or.inr h)
      · rintro (h | h | h)
        · exact Or.inr (Or.inl h)
        · exact Or.inl h
        · exact Or.inr (Or.inr h)

variable [Std.TransOrd α]

theorem increasing_place (a : α) {bs : List α}
    (h : bs.Pairwise fun a b => compare a b = .lt) :
    (place a bs).Pairwise fun a b => compare a b = .lt := by
  induction bs with
  | nil => simp [place]
  | cons b bs ih =>
    have hb := List.pairwise_cons.1 h
    simp only [place]
    split
    · next hab =>
      refine List.pairwise_cons.2 ⟨?_, h⟩
      intro x hx
      rcases List.mem_cons.1 hx with rfl | hx
      · exact hab
      · exact Std.TransCmp.lt_trans hab (hb.1 x hx)
    · exact h
    · next hab =>
      refine List.pairwise_cons.2 ⟨?_, ih hb.2⟩
      intro x hx
      rcases mem_place.1 hx with rfl | hx
      · exact Std.OrientedCmp.gt_iff_lt.1 hab
      · exact hb.1 x hx

/-- The set with `a` as a member too. -/
def insert (a : α) (s : ValueSet α) : ValueSet α :=
  ⟨place a s.toList, increasing_place a s.increasing⟩

@[simp] theorem mem_insert {a x : α} {s : ValueSet α} : x ∈ s.insert a ↔ x = a ∨ x ∈ s :=
  mem_place

/-- The set with all of `xs` as members too. -/
def insertAll (s : ValueSet α) (xs : List α) : ValueSet α :=
  xs.foldl (fun t a => t.insert a) s

@[simp] theorem mem_insertAll {x : α} {s : ValueSet α} {xs : List α} :
    x ∈ s.insertAll xs ↔ x ∈ s ∨ x ∈ xs := by
  induction xs generalizing s with
  | nil => simp [insertAll]
  | cons a xs ih =>
    have h : s.insertAll (a :: xs) = (s.insert a).insertAll xs := rfl
    rw [h, ih, mem_insert, List.mem_cons]
    constructor
    · rintro ((h | h) | h)
      · exact Or.inr (Or.inl h)
      · exact Or.inl h
      · exact Or.inr (Or.inr h)
    · rintro (h | h | h)
      · exact Or.inl (Or.inr h)
      · exact Or.inl (Or.inl h)
      · exact Or.inr h

/-- The set of the values in a list. -/
def ofList (xs : List α) : ValueSet α := insertAll ∅ xs

@[simp] theorem mem_ofList {x : α} {xs : List α} : x ∈ ofList xs ↔ x ∈ xs := by
  rw [ofList, mem_insertAll]
  simp [mem_def]

/-! ## Sets with the same members are equal -/

theorem eq_of_mem_iff {xs ys : List α}
    (hx : xs.Pairwise fun a b => compare a b = .lt)
    (hy : ys.Pairwise fun a b => compare a b = .lt)
    (h : ∀ a, a ∈ xs ↔ a ∈ ys) : xs = ys := by
  induction xs generalizing ys with
  | nil =>
    cases ys with
    | nil => rfl
    | cons y ys => exact absurd ((h y).2 (List.mem_cons_self ..)) (by simp)
  | cons x xs ih =>
    cases ys with
    | nil => exact absurd ((h x).1 (List.mem_cons_self ..)) (by simp)
    | cons y ys =>
      have hx' := List.pairwise_cons.1 hx
      have hy' := List.pairwise_cons.1 hy
      have hxy : x = y := by
        rcases List.mem_cons.1 ((h x).1 (List.mem_cons_self ..)) with e | hxm
        · exact e
        · rcases List.mem_cons.1 ((h y).2 (List.mem_cons_self ..)) with e | hym
          · exact e.symm
          · exact absurd (Std.TransCmp.lt_trans (hx'.1 y hym) (hy'.1 x hxm)) (compare_self_ne_lt x)
      subst hxy
      congr 1
      refine ih hx'.2 hy'.2 fun a => ?_
      constructor
      · intro ha
        rcases List.mem_cons.1 ((h a).1 (List.mem_cons_of_mem _ ha)) with e | hm
        · subst e
          exact absurd (hx'.1 a ha) (compare_self_ne_lt a)
        · exact hm
      · intro ha
        rcases List.mem_cons.1 ((h a).2 (List.mem_cons_of_mem _ ha)) with e | hm
        · subst e
          exact absurd (hy'.1 a ha) (compare_self_ne_lt a)
        · exact hm

/-- Two sets with the same members are equal. -/
theorem ext {s t : ValueSet α} (h : ∀ a, a ∈ s ↔ a ∈ t) : s = t := by
  cases s with
  | mk xs hx =>
    cases t with
    | mk ys hy =>
      have e : xs = ys := eq_of_mem_iff hx hy h
      subst e
      rfl

omit [Std.TransOrd α] in
/-- No member is listed twice. -/
theorem nodup (s : ValueSet α) : s.toList.Nodup := by
  refine s.increasing.imp ?_
  intro a b hab e
  subst e
  exact compare_self_ne_lt a hab

end ValueSet

end TeamDigest
