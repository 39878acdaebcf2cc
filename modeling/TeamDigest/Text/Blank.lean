/-!
# Blank characters and trimming

A character is *blank* when Unicode gives it the property `White_Space`.  Text
is trimmed of blanks at its start, at its end, or at both.
-/

namespace TeamDigest.Text

/-- The characters with the Unicode property `White_Space`. -/
def isBlank (c : Char) : Bool :=
  let n := c.toNat
  (9 ≤ n && n ≤ 13) || n == 0x20 || n == 0x85 || n == 0xA0 || n == 0x1680 ||
    (0x2000 ≤ n && n ≤ 0x200A) || n == 0x2028 || n == 0x2029 || n == 0x202F ||
    n == 0x205F || n == 0x3000

/-- Drops the blanks at the start. -/
def trimStart (cs : List Char) : List Char :=
  cs.dropWhile isBlank

/-- Drops the blanks at the end. -/
def trimEnd (cs : List Char) : List Char :=
  (cs.reverse.dropWhile isBlank).reverse

/-- Drops the blanks at both ends. -/
def trim (cs : List Char) : List Char :=
  trimEnd (trimStart cs)

/-- The text without the blanks at its ends. -/
def trimmed (s : String) : String :=
  String.ofList (trim s.toList)

/-- Holds of text that consists of blanks only. -/
def isBlankText (s : String) : Bool :=
  s.toList.all isBlank

@[simp] theorem trimStart_nil : trimStart [] = [] := rfl

theorem trimStart_cons_of_blank {c : Char} {cs : List Char} (h : isBlank c = true) :
    trimStart (c :: cs) = trimStart cs := by
  simp [trimStart, h]

theorem trimStart_cons_of_not_blank {c : Char} {cs : List Char} (h : isBlank c = false) :
    trimStart (c :: cs) = c :: cs := by
  simp [trimStart, h]

/-! ## What trimming leaves -/

/-- The text has no blank at its ends. -/
structure IsTrimmed (cs : List Char) : Prop where
  head : ∀ c ∈ cs.head?, isBlank c = false
  last : ∀ c ∈ cs.getLast?, isBlank c = false

/-- The text consists of blanks only. -/
def AllBlank (cs : List Char) : Prop :=
  ∀ c ∈ cs, isBlank c = true

theorem allBlank_nil : AllBlank [] := by
  simp [AllBlank]

theorem AllBlank.append {cs ds : List Char} (hcs : AllBlank cs) (hds : AllBlank ds) :
    AllBlank (cs ++ ds) := fun c hc =>
  (List.mem_append.1 hc).elim (hcs c) (hds c)

theorem AllBlank.reverse {cs : List Char} (h : AllBlank cs) : AllBlank cs.reverse :=
  fun c hc => h c (List.mem_reverse.1 hc)

theorem exists_trimStart (cs : List Char) :
    ∃ before, AllBlank before ∧ cs = before ++ trimStart cs :=
  ⟨cs.takeWhile isBlank, fun _ hc => List.all_eq_true.1 List.all_takeWhile _ hc,
    List.takeWhile_append_dropWhile.symm⟩

theorem head_trimStart (cs : List Char) : ∀ c ∈ (trimStart cs).head?, isBlank c = false := by
  intro c hc
  have hhead := List.head?_dropWhile_not isBlank cs
  rw [show (cs.dropWhile isBlank).head? = some c from hc] at hhead
  simpa using hhead

theorem trimStart_append_of_blank {before : List Char} (h : AllBlank before) (cs : List Char) :
    trimStart (before ++ cs) = trimStart cs :=
  List.dropWhile_append_of_pos h

theorem trimStart_of_head {cs : List Char} (h : ∀ c ∈ cs.head?, isBlank c = false) :
    trimStart cs = cs := by
  cases cs with
  | nil => rfl
  | cons c cs => exact trimStart_cons_of_not_blank (h c rfl)

/-- To trim the end of a text is to trim the start of the reversed text. -/
theorem trimEnd_eq (cs : List Char) : trimEnd cs = (trimStart cs.reverse).reverse := rfl

theorem exists_trimEnd (cs : List Char) : ∃ after, AllBlank after ∧ cs = trimEnd cs ++ after := by
  obtain ⟨before, hbefore, hcs⟩ := exists_trimStart cs.reverse
  refine ⟨before.reverse, hbefore.reverse, ?_⟩
  rw [trimEnd_eq, ← List.reverse_append, ← hcs, List.reverse_reverse]

theorem last_trimEnd (cs : List Char) : ∀ c ∈ (trimEnd cs).getLast?, isBlank c = false := by
  rw [trimEnd_eq, List.getLast?_reverse]
  exact head_trimStart cs.reverse

/-- Between blanks, a text without blanks at its ends is what trimming leaves. -/
theorem IsTrimmed.trim_eq {before cs after : List Char} (h : IsTrimmed cs)
    (hbefore : AllBlank before) (hafter : AllBlank after) : trim (before ++ cs ++ after) = cs := by
  rw [trim, List.append_assoc, trimStart_append_of_blank hbefore]
  cases cs with
  | nil =>
      have hnone : trimStart after = [] := by simpa using trimStart_append_of_blank hafter []
      rw [List.nil_append, hnone]
      rfl
  | cons c cs =>
      have hstart : trimStart (c :: cs ++ after) = c :: cs ++ after :=
        trimStart_of_head (by simpa using h.head)
      have hend : trimStart (c :: cs).reverse = (c :: cs).reverse :=
        trimStart_of_head (by rw [List.head?_reverse]; exact h.last)
      rw [hstart, trimEnd_eq, List.reverse_append, trimStart_append_of_blank hafter.reverse, hend,
        List.reverse_reverse]

theorem IsTrimmed.trim_eq_self {cs : List Char} (h : IsTrimmed cs) : trim cs = cs := by
  have hbetween : trim ([] ++ cs ++ []) = cs := h.trim_eq allBlank_nil allBlank_nil
  simpa using hbetween

/-- Behind a text without blanks at its ends, it is the end that is trimmed. -/
theorem IsTrimmed.trim_append {cs : List Char} (h : IsTrimmed cs) (hne : cs ≠ [])
    (ds : List Char) : trim (cs ++ ds) = cs ++ trimEnd ds := by
  obtain ⟨after, hafter, hds⟩ := exists_trimEnd ds
  have hall : IsTrimmed (cs ++ trimEnd ds) := by
    constructor
    · obtain ⟨d, rest, rfl⟩ := List.exists_cons_of_ne_nil hne
      exact h.head
    · intro c hc
      rw [List.getLast?_append] at hc
      cases hlast : (trimEnd ds).getLast? with
      | none =>
          rw [hlast] at hc
          exact h.last c hc
      | some d =>
          rw [hlast] at hc
          exact last_trimEnd ds c (hlast ▸ hc)
  have hbetween : trim ([] ++ (cs ++ trimEnd ds) ++ after) = cs ++ trimEnd ds :=
    hall.trim_eq allBlank_nil hafter
  rwa [List.nil_append, List.append_assoc, ← hds] at hbetween

/-- A first character that is left when the end is trimmed was there before. -/
theorem head_trimEnd {cs : List Char} {c : Char} (hc : c ∈ (trimEnd cs).head?) : c ∈ cs.head? := by
  obtain ⟨after, -, hcs⟩ := exists_trimEnd cs
  rw [hcs, List.head?_append, show (trimEnd cs).head? = some c from hc]
  rfl

theorem isTrimmed_trim (cs : List Char) : IsTrimmed (trim cs) where
  head := fun c hc => head_trimStart cs c (head_trimEnd hc)
  last := last_trimEnd (trimStart cs)

/-- A text is what trimming leaves of it, between blanks. -/
theorem exists_trim (cs : List Char) :
    ∃ before after, AllBlank before ∧ AllBlank after ∧ cs = before ++ trim cs ++ after := by
  obtain ⟨before, hbefore, hcs⟩ := exists_trimStart cs
  obtain ⟨after, hafter, hrest⟩ := exists_trimEnd (trimStart cs)
  refine ⟨before, after, hbefore, hafter, ?_⟩
  rw [trim, List.append_assoc, ← hrest, ← hcs]

theorem trim_append_of_blank {before cs after : List Char} (hbefore : AllBlank before)
    (hafter : AllBlank after) : trim (before ++ cs ++ after) = trim cs := by
  obtain ⟨first, last, hfirst, hlast, hcs⟩ := exists_trim cs
  have hall : before ++ cs ++ after = (before ++ first) ++ trim cs ++ (last ++ after) := by
    conv => lhs; rw [hcs]
    simp only [List.append_assoc]
  rw [hall]
  exact (isTrimmed_trim cs).trim_eq (hbefore.append hfirst) (hlast.append hafter)

@[simp] theorem trim_trim (cs : List Char) : trim (trim cs) = trim cs :=
  (isTrimmed_trim cs).trim_eq_self

theorem mem_of_mem_trim {cs : List Char} {c : Char} (h : c ∈ trim cs) : c ∈ cs := by
  obtain ⟨before, after, -, -, hcs⟩ := exists_trim cs
  rw [hcs]
  exact List.mem_append_left _ (List.mem_append_right _ h)

theorem trim_eq_nil_iff {cs : List Char} : trim cs = [] ↔ AllBlank cs := by
  constructor
  · intro h
    obtain ⟨before, after, hbefore, hafter, hcs⟩ := exists_trim cs
    rw [hcs, h, List.append_nil]
    exact hbefore.append hafter
  · intro h
    have hnone : IsTrimmed [] := ⟨by simp, by simp⟩
    have hbetween : trim (cs ++ [] ++ []) = [] := hnone.trim_eq h allBlank_nil
    simpa using hbetween

theorem trimmed_trimmed (s : String) : trimmed (trimmed s) = trimmed s := by
  simp [trimmed]

end TeamDigest.Text
