/-!
# Pieces of text

Joining texts with a separator, cutting text at a character, and looking for a
text inside another.
-/

namespace TeamDigest.Text

/-- The texts one after another with `separator` between neighbours. -/
def join (separator : String) : List String → String
  | [] => ""
  | [s] => s
  | s :: t :: rest => s ++ separator ++ join separator (t :: rest)

/-- Cuts at every `c`; there is one piece more than there are cuts. -/
def cut (c : Char) : List Char → List (List Char)
  | [] => [[]]
  | d :: ds =>
    if d = c then [] :: cut c ds
    else match cut c ds with
      | [] => [[d]]
      | piece :: pieces => (d :: piece) :: pieces

/-- The lines of a text: what stands before each line feed, and what follows
the last one unless that is empty. -/
def lines (cs : List Char) : List (List Char) :=
  match (cut '\n' cs).reverse with
  | [] :: rest => rest.reverse
  | all => all.reverse

/-- What follows `start` at the beginning of `cs`, if `cs` begins with it. -/
def afterStart? (start cs : List Char) : Option (List Char) :=
  if start.isPrefixOf cs then some (cs.drop start.length) else none

/-- Holds when `part` stands somewhere in `cs`. -/
def occursIn (part : List Char) : List Char → Bool
  | [] => part.isEmpty
  | c :: cs => part.isPrefixOf (c :: cs) || occursIn part cs

/-- The texts before and after the first `c`, if there is one. -/
def splitAtFirst (c : Char) : List Char → Option (List Char × List Char)
  | [] => none
  | d :: ds => if d = c then some ([], ds) else (splitAtFirst c ds).map fun (a, b) => (d :: a, b)

theorem cut_ne_nil (c : Char) (cs : List Char) : cut c cs ≠ [] := by
  cases cs with
  | nil => simp [cut]
  | cons d ds =>
    by_cases h : d = c
    · simp [cut, h]
    · simp only [cut, h, if_false]
      split <;> simp

/-- To cut is to split on the character. -/
theorem cut_eq_splitOn (c : Char) (cs : List Char) : cut c cs = cs.splitOn c := by
  induction cs with
  | nil => rfl
  | cons d ds ih =>
    rw [List.splitOn_cons_eq_if_modifyHead, ← ih]
    by_cases h : d = c
    · simp [cut, h]
    · obtain ⟨piece, pieces, hcut⟩ := List.exists_cons_of_ne_nil (cut_ne_nil c ds)
      simp [cut, h, hcut]

theorem cut_of_not_mem {c : Char} {cs : List Char} (h : c ∉ cs) : cut c cs = [cs] := by
  rw [cut_eq_splitOn, List.splitOn_eq_singleton h]

theorem not_mem_of_mem_cut {c : Char} {cs piece : List Char} (h : piece ∈ cut c cs) :
    c ∉ piece := by
  induction cs generalizing piece with
  | nil => simp_all [cut]
  | cons d ds ih =>
    obtain ⟨first, pieces, hcut⟩ := List.exists_cons_of_ne_nil (cut_ne_nil c ds)
    rw [hcut] at ih
    obtain ⟨hfirst, hpieces⟩ := List.forall_mem_cons.1 fun _ => ih
    by_cases hd : d = c
    · simp only [cut, hd, if_true, hcut, List.mem_cons] at h
      rcases h with rfl | rfl | h
      · exact List.not_mem_nil
      · exact hfirst
      · exact hpieces _ h
    · simp only [cut, hd, if_false, hcut, List.mem_cons] at h
      rcases h with rfl | h
      · simp [Ne.symm hd, hfirst]
      · exact hpieces _ h

/-- A character at the end of a text goes to the last piece, or makes a new one. -/
theorem exists_cut_concat (c d : Char) (cs : List Char) :
    ∃ pieces last, cut c cs = pieces ++ [last] ∧
      cut c (cs ++ [d]) = pieces ++ if d = c then [last, []] else [last ++ [d]] := by
  induction cs with
  | nil =>
    by_cases h : d = c
    · exact ⟨[], [], rfl, by simp [cut, h]⟩
    · exact ⟨[], [], rfl, by simp [cut, h]⟩
  | cons e es ih =>
    obtain ⟨pieces, last, hcut, hconcat⟩ := ih
    by_cases he : e = c
    · exact ⟨[] :: pieces, last, by simp [cut, he, hcut], by simp [cut, he, hconcat]⟩
    · cases pieces with
      | nil =>
        refine ⟨[], e :: last, by simp [cut, he, hcut], ?_⟩
        by_cases hd : d = c
        · subst hd
          simp [cut, he, hconcat]
        · simp [cut, he, hconcat, hd]
      | cons piece pieces =>
        exact ⟨(e :: piece) :: pieces, last, by simp [cut, he, hcut], by simp [cut, he, hconcat]⟩

/-- The lines are the pieces between line feeds, less an empty one at the end. -/
theorem cut_eq_lines (cs : List Char) :
    cut '\n' cs = lines cs ∨ cut '\n' cs = lines cs ++ [[]] := by
  unfold lines
  split
  · next rest hrest =>
    exact .inr (by rw [← List.reverse_cons, ← hrest, List.reverse_reverse])
  · exact .inl (by rw [List.reverse_reverse])

theorem mem_cut_of_mem_lines {cs line : List Char} (h : line ∈ lines cs) : line ∈ cut '\n' cs := by
  rcases cut_eq_lines cs with hcut | hcut
  · rwa [hcut]
  · rw [hcut]
    exact List.mem_append_left _ h

/-- Where nothing comes of the empty text, the lines may be taken for the pieces. -/
theorem filterMap_lines {α : Type} {f : List Char → Option α} (hf : f [] = none)
    (cs : List Char) : (lines cs).filterMap f = (cut '\n' cs).filterMap f := by
  rcases cut_eq_lines cs with hcut | hcut
  · rw [hcut]
  · rw [hcut, List.filterMap_append, List.filterMap_cons_none hf, List.filterMap_nil,
      List.append_nil]

/-- Texts with line feeds between them are the lines of what comes of it. -/
theorem lines_intercalate {ls : List (List Char)} (hmark : ∀ l ∈ ls, '\n' ∉ l)
    (hlast : ls.getLast? ≠ some []) : lines (['\n'].intercalate ls) = ls := by
  by_cases hne : ls = []
  · rw [hne]
    rfl
  · rw [lines, cut_eq_splitOn, List.splitOn_intercalate '\n' hmark hne]
    split
    · next rest hrest =>
      exact absurd (by rw [← List.head?_reverse, hrest]; rfl) hlast
    · exact List.reverse_reverse ls

theorem afterStart?_eq_some_iff {start cs rest : List Char} :
    afterStart? start cs = some rest ↔ cs = start ++ rest := by
  unfold afterStart?
  split
  · next hstart =>
    obtain ⟨tail, rfl⟩ := List.isPrefixOf_iff_prefix.1 hstart
    simp
  · next hstart =>
    refine iff_of_false nofun ?_
    rintro rfl
    exact hstart (List.isPrefixOf_iff_prefix.2 (List.prefix_append start rest))

theorem splitAtFirst_eq_some_iff {c : Char} {cs before after : List Char} :
    splitAtFirst c cs = some (before, after) ↔ cs = before ++ c :: after ∧ c ∉ before := by
  induction cs generalizing before with
  | nil => simp [splitAtFirst]
  | cons d ds ih =>
    unfold splitAtFirst
    split
    · next hd =>
      cases before with
      | nil => simp [hd, eq_comm]
      | cons e es =>
        -- a text before the first `c` would begin with `c`
        refine iff_of_false nofun ?_
        rintro ⟨heq, hmem⟩
        rw [← (List.cons.inj heq).1, hd] at hmem
        exact hmem List.mem_cons_self
    · next hd =>
      rw [Option.map_eq_some_iff]
      constructor
      · rintro ⟨⟨a, b⟩, hab, h⟩
        obtain ⟨rfl, rfl⟩ := Prod.mk.inj h
        obtain ⟨rfl, hmem⟩ := ih.1 hab
        exact ⟨rfl, by simp [Ne.symm hd, hmem]⟩
      · rintro ⟨heq, hmem⟩
        cases before with
        | nil => exact absurd (List.cons.inj heq).1 hd
        | cons e es =>
          obtain ⟨rfl, hds⟩ := List.cons.inj heq
          exact ⟨(es, after), ih.2 ⟨hds, List.not_mem_of_not_mem_cons hmem⟩, rfl⟩

/-- To join texts is to put the separator between them. -/
theorem toList_join (separator : String) (ss : List String) :
    (join separator ss).toList = separator.toList.intercalate (ss.map String.toList) := by
  fun_induction join separator ss with
  | case1 => rfl
  | case2 s => simp
  | case3 s t rest ih => simp [ih, List.append_assoc]

@[simp] theorem join_nil (separator : String) : join separator [] = "" := rfl

@[simp] theorem join_singleton (separator s : String) : join separator [s] = s := rfl

end TeamDigest.Text
