import TeamDigest.Proofs.Toml.Tables
import TeamDigest.Proofs.Toml.Values

/-!
# Lines of TOML

The three kinds of lines that are written are read again: a value under a key
(`reads_keyValue`), the header of a table (`reads_header`), and the header of a table in a list
(`reads_itemHeader`).  What has been read leaves what follows to be read (`Reads`), so the
lines of a document may be read one after the other.
-/

namespace TeamDigest.Toml

open Text

/-! ## Parts of a document -/

/-- With the text, a document comes from the one draft to the other, whatever follows. -/
def Reads (text : List Char) (before after : Draft) : Prop :=
  ∀ (rest : List Char) (bound : Nat), (text ++ rest).length ≤ bound →
    ∃ left, rest.length ≤ left ∧ document bound before (text ++ rest) = document left after rest

variable {a b c : Draft} {text more : List Char}

theorem Reads.refl (a : Draft) : Reads [] a a := fun _ bound hbound => ⟨bound, hbound, rfl⟩

theorem Reads.trans (hfirst : Reads text a b) (hsecond : Reads more b c) :
    Reads (text ++ more) a c := by
  intro rest bound hbound
  rw [List.append_assoc] at hbound ⊢
  obtain ⟨middle, hmiddle, hread⟩ := hfirst (more ++ rest) bound hbound
  obtain ⟨left, hleft, hmore⟩ := hsecond rest middle hmiddle
  exact ⟨left, hleft, hread.trans hmore⟩

/-- An empty line. -/
theorem reads_blank (a : Draft) : Reads ['\n'] a a := by
  intro rest bound hbound
  obtain ⟨left, rfl⟩ : ∃ left, bound = left + 1 := ⟨bound - 1, by simp at hbound; omega⟩
  refine ⟨left, by simpa using hbound, ?_⟩
  have hafter : afterLine? ('\n' :: rest) = some rest := rfl
  have hspace : dropSpace ('\n' :: rest) = '\n' :: rest := rfl
  rw [List.singleton_append, document, hspace]
  simp [hafter]

/-- A line that holds something. -/
theorem reads_line {x : Char} {xs : List Char} (hx : x ∉ [' ', '\t', '\n', '\r', '#'])
    (hline : ∀ rest, line a (x :: xs ++ '\n' :: rest) = some (b, '\n' :: rest)) :
    Reads (x :: xs ++ ['\n']) a b := by
  intro rest bound hbound
  obtain ⟨left, rfl⟩ : ∃ left, bound = left + 1 := ⟨bound - 1, by simp at hbound; omega⟩
  simp only [List.mem_cons, List.not_mem_nil, or_false, not_or] at hx
  obtain ⟨hblank, htab, hfeed, hreturn, hcomment⟩ := hx
  have hafter : afterLine? ('\n' :: rest) = some rest := rfl
  have htext : x :: xs ++ ['\n'] ++ rest = x :: (xs ++ '\n' :: rest) := by simp
  have hspace : dropSpace (x :: (xs ++ '\n' :: rest)) = x :: (xs ++ '\n' :: rest) := by
    simp [dropSpace, hblank, htab]
  refine ⟨left, by simp at hbound; omega, ?_⟩
  have hread : line a (x :: (xs ++ '\n' :: rest)) = some (b, '\n' :: rest) := hline rest
  rw [htext, document, hspace]
  simp [hfeed, hreturn, hcomment, hread, hafter]

/-! ## Keys -/

/-- The way to the keys of a table, as it stands before them in a header. -/
def pathText (path : List String) : String := String.join (path.map (· ++ "."))

theorem pathText_concat (path : List String) (key : String) :
    pathText (path ++ [key]) = pathText path ++ key ++ "." := by
  simp [pathText, String.join_append, String.append_assoc]

/-- A bare key is written as it is. -/
theorem keyText_of_isBareKey {key : String} (h : isBareKey key = true) : keyText key = key :=
  if_pos h

theorem isKeyChar_of_isBareKey {key : String} (h : isBareKey key = true) :
    ∀ x ∈ key.toList, isKeyChar x = true := by
  simp only [isBareKey, Bool.and_eq_true] at h
  exact List.all_eq_true.mp h.2

/-- A bare key begins with a character that has no other meaning. -/
theorem exists_cons_of_isBareKey {key : String} (h : isBareKey key = true) :
    ∃ x xs, key.toList = x :: xs ∧
      x ∉ [' ', '\t', '\n', '\r', '#', '[', '"', '\x27', '\uFEFF'] := by
  have hchars := isKeyChar_of_isBareKey h
  simp only [isBareKey, Bool.and_eq_true, Bool.not_eq_true'] at h
  cases hkey : key.toList with
  | nil => simp_all
  | cons x xs =>
      have hx : isKeyChar x = true := hchars x (hkey ▸ List.mem_cons_self)
      refine ⟨x, xs, rfl, fun hmem => ?_⟩
      simp only [List.mem_cons, List.not_mem_nil, or_false] at hmem
      rcases hmem with rfl | rfl | rfl | rfl | rfl | rfl | rfl | rfl | rfl <;>
        exact absurd hx (by decide)

theorem keyPart_of_isBareKey {key : String} (h : isBareKey key = true) {rest : List Char}
    (hrest : ∀ x ∈ rest.head?, isKeyChar x = false) :
    keyPart (dropSpace (key.toList ++ rest)) = some (key, rest) := by
  have hchars := isKeyChar_of_isBareKey h
  obtain ⟨htake, hdrop⟩ := span_of_all hchars hrest
  obtain ⟨x, xs, hkey, hx⟩ := exists_cons_of_isBareKey h
  simp only [List.mem_cons, List.not_mem_nil, or_false, not_or] at hx
  obtain ⟨hblank, htab, -, -, -, -, hdouble, hsingle, -⟩ := hx
  have hspace : dropSpace (key.toList ++ rest) = key.toList ++ rest := by
    simp [dropSpace, hkey, hblank, htab]
  rw [hspace]
  unfold keyPart
  split
  · next heq => simp [hkey, hdouble] at heq
  · next heq => simp [hkey, hsingle] at heq
  · dsimp only
    rw [htake, hdrop, String.ofList_toList]
    simp [hkey]

theorem keyPath_of_isBareKey {key : String} (h : isBareKey key = true) (parts : Nat)
    (rest : List Char) :
    keyPath (parts + 1) (key.toList ++ ' ' :: '=' :: rest) = some (([], key), '=' :: rest) := by
  have hpart : keyPart (dropSpace (key.toList ++ ' ' :: '=' :: rest)) =
      some (key, ' ' :: '=' :: rest) := keyPart_of_isBareKey h (by simp [isKeyChar, isAsciiDigit])
  have hspace : dropSpace (' ' :: '=' :: rest) = '=' :: rest := rfl
  rw [keyPath, hpart]
  simp [hspace]

theorem keyPath_header {path : List String} (hpath : ∀ key ∈ path, isBareKey key = true)
    {key : String} (h : isBareKey key = true) {parts : Nat} (hparts : path.length < parts)
    (rest : List Char) :
    keyPath parts ((pathText path).toList ++ (key.toList ++ ']' :: rest)) =
      some ((path, key), ']' :: rest) := by
  induction path generalizing parts with
  | nil =>
      obtain ⟨parts, rfl⟩ : ∃ n, parts = n + 1 := ⟨parts - 1, by simp at hparts; omega⟩
      have hpart : keyPart (dropSpace (key.toList ++ ']' :: rest)) = some (key, ']' :: rest) :=
        keyPart_of_isBareKey h (by simp [isKeyChar, isAsciiDigit])
      have hspace : dropSpace (']' :: rest) = ']' :: rest := rfl
      change keyPath (parts + 1) (key.toList ++ ']' :: rest) = _
      rw [keyPath, hpart]
      simp [hspace]
  | cons first path ih =>
      obtain ⟨hfirst, hpath⟩ := List.forall_mem_cons.mp hpath
      obtain ⟨parts, rfl⟩ : ∃ n, parts = n + 1 := ⟨parts - 1, by simp at hparts; omega⟩
      have htext : (pathText (first :: path)).toList ++ (key.toList ++ ']' :: rest) =
          first.toList ++ '.' :: ((pathText path).toList ++ (key.toList ++ ']' :: rest)) := by
        simp [pathText]
      have hbelow := ih hpath (by simpa using hparts)
      generalize (pathText path).toList ++ (key.toList ++ ']' :: rest) = below at htext hbelow
      have hpart : keyPart (dropSpace (first.toList ++ '.' :: below)) =
          some (first, '.' :: below) :=
        keyPart_of_isBareKey hfirst (by simp [isKeyChar, isAsciiDigit])
      have hspace : dropSpace ('.' :: below) = '.' :: below := rfl
      rw [htext, keyPath, hpart]
      simp [hspace, hbelow]

/-! ## Lines -/

/-- The line of a value under a key. -/
def lineText (key : String) (d : Data) : String := keyText key ++ " = " ++ valueText d ++ "\n"

/-- A value begins with no blank. -/
private theorem dropSpace_line {d : Data} (h : Line d) (rest : List Char) :
    dropSpace (' ' :: ((valueText d).toList ++ rest)) = (valueText d).toList ++ rest := by
  have hhead : ∃ x xs, (valueText d).toList = x :: xs ∧ x ≠ ' ' ∧ x ≠ '\t' := by
    cases h with
    | scalar h =>
        obtain ⟨x, xs, hchars, hx⟩ := scalar_head h
        simp only [List.mem_cons, List.not_mem_nil, or_false, not_or] at hx
        exact ⟨x, xs, hchars, hx.1, hx.2.1⟩
    | @list ds h =>
        have hlist : ∃ xs, (listText (valueTexts ds)).toList = '[' :: xs := by
          unfold listText
          split
          · exact ⟨_, rfl⟩
          · exact ⟨_, by simp; rfl⟩
          · exact ⟨_, by simp; rfl⟩
        obtain ⟨xs, hchars⟩ := hlist
        exact ⟨'[', xs, hchars, by decide, by decide⟩
  obtain ⟨x, xs, hchars, hblank, htab⟩ := hhead
  simp [dropSpace, hchars, hblank, htab]

/-- A value under a key is added to the open table. -/
theorem reads_keyValue {key : String} (hkey : isBareKey key = true) {d : Data} (h : Line d)
    {t u : Table} {path : List String}
    (hadd : t.descend .passage (Table.add [] key d) path = some u) :
    Reads (lineText key d).toList ⟨t, path⟩ ⟨u, path⟩ := by
  obtain ⟨x, xs, hchars, hx⟩ := exists_cons_of_isBareKey hkey
  have htext : (lineText key d).toList =
      x :: (xs ++ ' ' :: '=' :: ' ' :: (valueText d).toList) ++ ['\n'] := by
    simp [lineText, keyText_of_isBareKey hkey, hchars]
  rw [htext]
  refine reads_line (fun hmem => hx (List.mem_append_left ['[', '"', '\x27', '\uFEFF'] hmem))
    fun rest => ?_
  have hline : x :: (xs ++ ' ' :: '=' :: ' ' :: (valueText d).toList) ++ '\n' :: rest =
      key.toList ++ ' ' :: '=' :: ' ' :: ((valueText d).toList ++ '\n' :: rest) := by
    simp [hchars]
  have hpath := keyPath_of_isBareKey hkey 78 (' ' :: ((valueText d).toList ++ '\n' :: rest))
  have hvalue : value 79 ((valueText d).toList ++ '\n' :: rest) = some (d, '\n' :: rest) :=
    value_line h 78 (by simp [Follows])
  rw [hline]
  unfold line
  split
  · next heq =>
    rw [hchars] at heq
    obtain ⟨rfl, -⟩ := List.cons_eq_cons.mp heq
    exact absurd (by decide) hx
  · next heq =>
    rw [hchars] at heq
    obtain ⟨rfl, -⟩ := List.cons_eq_cons.mp heq
    exact absurd (by decide) hx
  · rw [depthLimit, hpath]
    simp [mark?, dropSpace_line h, hvalue, hadd]

/-- What stands in a header does not begin with a bracket. -/
private theorem header_head {path : List String} (hpath : ∀ key ∈ path, isBareKey key = true)
    {key : String} (hkey : isBareKey key = true) :
    ∃ x xs, (pathText path ++ key).toList = x :: xs ∧ x ≠ '[' := by
  have hhead : ∀ {key}, isBareKey key = true → ∃ x xs, key.toList = x :: xs ∧ x ≠ '[' := by
    intro key hkey
    obtain ⟨x, xs, hchars, hx⟩ := exists_cons_of_isBareKey hkey
    refine ⟨x, xs, hchars, ?_⟩
    rintro rfl
    exact hx (by decide)
  cases path with
  | nil => simpa [pathText] using hhead hkey
  | cons first path =>
      obtain ⟨x, xs, hchars, hx⟩ := hhead (hpath first List.mem_cons_self)
      exact ⟨x, xs ++ '.' :: (pathText path ++ key).toList, by simp [pathText, hchars], hx⟩

/-- The header of a table opens it. -/
theorem reads_header {path : List String} (hpath : ∀ key ∈ path, isBareKey key = true)
    {key : String} (hkey : isBareKey key = true) (hdepth : path.length < depthLimit)
    {t u : Table} (hopen : t.openTable path key = some u) (before : List String) :
    Reads ("[" ++ (pathText path ++ key) ++ "]\n").toList ⟨t, before⟩ ⟨u, path ++ [key]⟩ := by
  have htext : ("[" ++ (pathText path ++ key) ++ "]\n").toList =
      '[' :: ((pathText path ++ key).toList ++ [']']) ++ ['\n'] := by
    simp
  rw [htext]
  refine reads_line (by decide) fun rest => ?_
  obtain ⟨x, xs, hchars, hx⟩ := header_head hpath hkey
  have hread : keyPath depthLimit ((pathText path ++ key).toList ++ ']' :: '\n' :: rest) =
      some ((path, key), ']' :: '\n' :: rest) := by
    simpa using keyPath_header hpath hkey hdepth ('\n' :: rest)
  have hline : '[' :: ((pathText path ++ key).toList ++ [']']) ++ '\n' :: rest =
      '[' :: ((pathText path ++ key).toList ++ ']' :: '\n' :: rest) := by
    simp
  rw [hline]
  rw [hchars, List.cons_append] at hread ⊢
  rw [line]
  · simp [hread, mark?, hopen]
  · rintro rest heq
    exact hx (List.cons_eq_cons.mp heq).1

/-- The header of a table in a list opens one more table there. -/
theorem reads_itemHeader {path : List String} (hpath : ∀ key ∈ path, isBareKey key = true)
    {key : String} (hkey : isBareKey key = true) (hdepth : path.length < depthLimit)
    {t u : Table} (hopen : t.openItem path key = some u) (before : List String) :
    Reads ("[[" ++ (pathText path ++ key) ++ "]]\n").toList ⟨t, before⟩ ⟨u, path ++ [key]⟩ := by
  have htext : ("[[" ++ (pathText path ++ key) ++ "]]\n").toList =
      '[' :: ('[' :: (pathText path ++ key).toList ++ [']', ']']) ++ ['\n'] := by
    simp
  rw [htext]
  refine reads_line (by decide) fun rest => ?_
  have hread : keyPath depthLimit ((pathText path ++ key).toList ++ ']' :: ']' :: '\n' :: rest) =
      some ((path, key), ']' :: ']' :: '\n' :: rest) := by
    simpa using keyPath_header hpath hkey hdepth (']' :: '\n' :: rest)
  have hline : '[' :: ('[' :: (pathText path ++ key).toList ++ [']', ']']) ++ '\n' :: rest =
      '[' :: '[' :: ((pathText path ++ key).toList ++ ']' :: ']' :: '\n' :: rest) := by
    simp
  have hclose : afterStart? [']', ']'] (']' :: ']' :: '\n' :: rest) = some ('\n' :: rest) := rfl
  rw [hline]
  generalize (pathText path ++ key).toList ++ ']' :: ']' :: '\n' :: rest = chars at hread ⊢
  rw [line]
  simp [hread, hclose, hopen]

end TeamDigest.Toml
