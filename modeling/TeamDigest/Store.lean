/-!
# Stores

A store is a finite map from keys to bytes, in the order of the keys.  Its view is
`Store.find?`: inserting and erasing change it at one key (`find?_insert`,
`find?_erase`), and filtering takes out the slots that fail a test
(`find?_filter`).

What may be asked of a store is an `Operation`.  `Store.perform` answers it, and
says what the store holds afterwards.
-/

namespace TeamDigest

/-- A finite map from keys to bytes. -/
@[ext]
structure Store where
  /-- The keys with the bytes in their slots. -/
  slots : List (String × ByteArray)
  /-- The keys increase strictly. -/
  ordered : slots.Pairwise fun a b => a.1 < b.1

namespace Store

/-- The store without slots. -/
def empty : Store := ⟨[], .nil⟩

instance : EmptyCollection Store := ⟨empty⟩

instance : Inhabited Store := ⟨empty⟩

/-- The number of slots. -/
def size (s : Store) : Nat := s.slots.length

/-- How many bytes there are in all slots. -/
def extent (s : Store) : Nat := s.slots.foldl (fun n slot => n + slot.2.size) 0

/-- The bytes under a key. -/
def find? (s : Store) (key : String) : Option ByteArray := s.slots.lookup key

/-- The slots that pass a test. -/
def filter (p : String × ByteArray → Bool) (s : Store) : Store :=
  ⟨s.slots.filter p, s.ordered.filter p⟩

/-- The store without the slot under a key. -/
def erase (s : Store) (key : String) : Store := s.filter (·.1 != key)

/-- The store with bytes under a key, in place of those that stood there. -/
def insert (s : Store) (key : String) (bytes : ByteArray) : Store where
  slots := s.slots.filter (·.1 < key) ++ (key, bytes) :: s.slots.filter (key < ·.1)
  ordered := by
    have hbefore : ∀ a ∈ s.slots.filter (·.1 < key), a.1 < key := by simp
    have hafter : ∀ a ∈ s.slots.filter (key < ·.1), key < a.1 := by simp
    refine List.pairwise_append.2 ⟨s.ordered.filter _, ?_, fun a ha b hb => ?_⟩
    · exact List.pairwise_cons.2 ⟨hafter, s.ordered.filter _⟩
    · rcases List.mem_cons.1 hb with rfl | hb
      · exact hbefore a ha
      · exact String.lt_trans (hbefore a ha) (hafter b hb)

@[simp] theorem find?_empty (key : String) : (∅ : Store).find? key = none := rfl

private theorem lookup_eq_some_iff {xs : List (String × ByteArray)}
    (h : xs.Pairwise fun a b => a.1 < b.1) {key : String} {bytes : ByteArray} :
    xs.lookup key = some bytes ↔ (key, bytes) ∈ xs := by
  induction xs with
  | nil => simp
  | cons x xs ih =>
    rcases x with ⟨k, v⟩
    obtain ⟨hk, hxs⟩ := List.pairwise_cons.1 h
    rw [List.lookup_cons, List.mem_cons, Prod.mk.injEq]
    by_cases hkey : key = k
    · subst hkey
      have hout (found : ByteArray) : (key, found) ∉ xs := fun hmem =>
        String.lt_irrefl key (hk (key, found) hmem)
      simp [hout, eq_comm]
    · have hne : (key == k) = false := by simp [hkey]
      simp [hne, hkey, ih hxs]

/-- The view of a store shows exactly its slots. -/
theorem find?_eq_some_iff {s : Store} {key : String} {bytes : ByteArray} :
    s.find? key = some bytes ↔ (key, bytes) ∈ s.slots :=
  lookup_eq_some_iff s.ordered

theorem find?_filter (s : Store) (p : String × ByteArray → Bool) (key : String) :
    (s.filter p).find? key = (s.find? key).filter fun bytes => p (key, bytes) := by
  refine Option.ext fun bytes => ?_
  rw [find?_eq_some_iff, Option.filter_eq_some_iff, find?_eq_some_iff]
  exact List.mem_filter

theorem filter_filter (s : Store) (p q : String × ByteArray → Bool) :
    (s.filter p).filter q = s.filter fun slot => p slot && q slot := by
  simp [filter, List.filter_filter, Bool.and_comm]

theorem find?_erase (s : Store) (key other : String) :
    (s.erase key).find? other = if other = key then none else s.find? other := by
  rw [erase, find?_filter]
  split
  · next h => simp [h]
  · next h =>
    have hne : (other != key) = true := by simpa using h
    cases s.find? other with
    | none => rfl
    | some bytes => simp [hne]

theorem find?_insert (s : Store) (key other : String) (bytes : ByteArray) :
    (s.insert key bytes).find? other = if other = key then some bytes else s.find? other := by
  refine Option.ext fun found => ?_
  rw [find?_eq_some_iff]
  simp only [insert, List.mem_append, List.mem_cons, List.mem_filter, decide_eq_true_eq,
    Prod.mk.injEq]
  by_cases h : other = key
  · subst h
    simp only [String.lt_irrefl, and_false, true_and, false_or, or_false, if_true,
      Option.some.injEq]
    exact eq_comm
  · have hless : other < key ∨ key < other := by
      by_cases hlt : other < key
      · exact .inl hlt
      · refine .inr (String.not_le.1 fun hle => h ?_)
        exact String.le_antisymm hle (String.not_lt.1 hlt)
    simp only [h, false_and, false_or, if_false, find?_eq_some_iff]
    constructor
    · rintro (⟨hmem, -⟩ | ⟨hmem, -⟩)
      · exact hmem
      · exact hmem
    · intro hmem
      exact hless.imp (⟨hmem, ·⟩) (⟨hmem, ·⟩)

/-! ## Operations -/

/-- What may be asked of a store. -/
inductive Operation where
  /-- Looks at the slot under a key. -/
  | look (key : String)
  /-- Puts bytes under a key. -/
  | put (key : String) (bytes : ByteArray)
  /-- Drops the slot under a key. -/
  | drop (key : String)
  /-- Goes through all slots, in the order of their keys. -/
  | list
  /-- Drops all slots. -/
  | clear
  /-- Counts the slots. -/
  | count
  /-- Makes what has been put and dropped lasting. -/
  | flush
  /-- Tells how much room the store takes. -/
  | extent

/-- What an operation brings. -/
def Operation.Answer : Operation → Type
  | look _ => Option ByteArray
  | put _ _ | drop _ | clear | flush => Unit
  | list => List (String × ByteArray)
  | count | extent => Nat

/-- The answer to an operation, and the store after it. -/
def perform (s : Store) : (o : Operation) → o.Answer × Store
  | .look key => (s.find? key, s)
  | .put key bytes => ((), s.insert key bytes)
  | .drop key => ((), s.erase key)
  | .list => (s.slots, s)
  | .clear => ((), ∅)
  | .count => (s.size, s)
  | .flush => ((), s)
  | .extent => (s.extent, s)

end Store

end TeamDigest
