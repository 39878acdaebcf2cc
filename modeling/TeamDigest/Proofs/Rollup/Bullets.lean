import TeamDigest.Rollup.Bullets
import Mathlib.Data.List.Forall2

/-!
# The bullets of an answer

The writer of rollups answers with some text, and what is kept of it is one bullet for
each of its items.  An item is a line that, trimmed, begins with a mark (`IsMark`); the
mark and what follows it are determined by the line (`afterMark?_eq_some_iff`).

## Strategy

A trimmed line does not end in the space of a mark, so there is always something left
behind the mark (`IsMark.trim_ne_nil`), and the items are found in all lines with a mark.
What is written is then trimmed and has a mark itself, so it is found again.  A text
without items is trimmed as a whole.  That takes blanks off its first and its last line,
and blank lines off its ends, and neither makes a difference to the items (`items_trim`).
-/

namespace TeamDigest.Rollup

open Text

/-! ## Marks -/

/-- What may stand in front of an item: a sign or a number, and the space behind it. -/
inductive IsMark : List Char → Prop
  | sign {c : Char} (hc : c ∈ ['-', '*', '•']) : IsMark [c, ' ']
  | number {ds : List Char} {c : Char} (hne : ds ≠ []) (hds : ∀ d ∈ ds, isAsciiDigit d = true)
      (hc : c ∈ ['.', ')']) : IsMark (ds ++ [c, ' '])

/-- The line is an item: trimmed, it begins with a mark. -/
def IsItem (line : List Char) : Prop :=
  ∃ mark content, IsMark mark ∧ trim line = mark ++ content

/-- The bullet shows the content of an item, which is not empty. -/
def Shows (line : List Char) (bullet : String) : Prop :=
  ∃ mark content, IsMark mark ∧ trim line = mark ++ content ∧ trim content ≠ [] ∧
    bullet = "• " ++ String.ofList (trim content)

theorem afterMark?_sign {c : Char} (hc : c ∈ ['-', '*', '•']) (content : List Char) :
    afterMark? ([c, ' '] ++ content) = some content := by
  have hmark : marks.findSome? (afterStart? · ([c, ' '] ++ content)) = some content := by
    simp only [List.mem_cons, List.not_mem_nil, or_false] at hc
    rcases hc with rfl | rfl | rfl
    · rfl
    · rfl
    · rfl
  rw [afterMark?, hmark]

theorem afterMark?_number {ds : List Char} {c : Char} (hne : ds ≠ [])
    (hds : ∀ d ∈ ds, isAsciiDigit d = true) (hc : c ∈ ['.', ')']) (content : List Char) :
    afterMark? (ds ++ [c, ' '] ++ content) = some content := by
  -- no sign is a digit
  have hsign : marks.findSome? (afterStart? · (ds ++ [c, ' '] ++ content)) = none := by
    obtain ⟨d, rest, rfl⟩ := List.exists_cons_of_ne_nil hne
    have hd : isAsciiDigit d = true := hds d List.mem_cons_self
    refine List.findSome?_eq_none_iff.2 fun mark hmark => ?_
    refine Option.eq_none_iff_forall_ne_some.2 fun tail htail => ?_
    have hline := afterStart?_eq_some_iff.1 htail
    simp only [marks, List.mem_cons, List.not_mem_nil, or_false] at hmark
    rcases hmark with rfl | rfl | rfl
    · exact absurd ((List.cons.inj hline).1 ▸ hd) (by decide)
    · exact absurd ((List.cons.inj hline).1 ▸ hd) (by decide)
    · exact absurd ((List.cons.inj hline).1 ▸ hd) (by decide)
  have hspan : spanDigits (ds ++ [c, ' '] ++ content) = (ds, [c, ' '] ++ content) := by
    rw [List.append_assoc]
    refine spanDigits_of_all hds ?_
    rintro _ ⟨⟩
    simp only [List.mem_cons, List.not_mem_nil, or_false] at hc
    rcases hc with rfl | rfl
    · rfl
    · rfl
  have hmark : numberMarks.findSome? (afterStart? · ([c, ' '] ++ content)) = some content := by
    simp only [List.mem_cons, List.not_mem_nil, or_false] at hc
    rcases hc with rfl | rfl
    · rfl
    · rfl
  rw [afterMark?, hsign, hspan]
  simpa [hne] using hmark

/-- What follows the mark of a line is what is taken for its content. -/
theorem afterMark?_eq_some_iff {line content : List Char} :
    afterMark? line = some content ↔ ∃ mark, IsMark mark ∧ line = mark ++ content := by
  constructor
  · intro h
    unfold afterMark? at h
    split at h
    · next found hfound =>
      obtain ⟨mark, hmark, hafter⟩ := List.exists_of_findSome?_eq_some hfound
      obtain rfl := Option.some.inj h
      refine ⟨mark, ?_, afterStart?_eq_some_iff.1 hafter⟩
      simp only [marks, List.mem_cons, List.not_mem_nil, or_false] at hmark
      rcases hmark with rfl | rfl | rfl
      · exact .sign (by decide)
      · exact .sign (by decide)
      · exact .sign (by decide)
    · dsimp only at h
      split at h
      · simp at h
      · next hdigits =>
        obtain ⟨mark, hmark, hafter⟩ := List.exists_of_findSome?_eq_some h
        have hline := spanDigits_append line
        rw [afterStart?_eq_some_iff.1 hafter, ← List.append_assoc] at hline
        refine ⟨_, ?_, hline.symm⟩
        have hne : (spanDigits line).1 ≠ [] := fun hnil => hdigits (List.isEmpty_iff.2 hnil)
        have hds : ∀ d ∈ (spanDigits line).1, isAsciiDigit d = true :=
          List.all_eq_true.1 List.all_takeWhile
        simp only [numberMarks, List.mem_cons, List.not_mem_nil, or_false] at hmark
        rcases hmark with rfl | rfl
        · exact .number hne hds (by decide)
        · exact .number hne hds (by decide)
  · rintro ⟨mark, hmark, rfl⟩
    cases hmark with
    | sign hc => exact afterMark?_sign hc content
    | number hne hds hc => exact afterMark?_number hne hds hc content

/-- A line that is trimmed does not end with its mark. -/
theorem IsMark.trim_ne_nil {mark content : List Char} (hmark : IsMark mark)
    (hline : IsTrimmed (mark ++ content)) : trim content ≠ [] := by
  intro hnil
  have hblank : AllBlank content := trim_eq_nil_iff.1 hnil
  have hspace : mark.getLast? = some ' ' := by
    cases hmark with
    | sign hc => rfl
    | number hne hds hc => simp
  cases hlast : content.getLast? with
  | none =>
      have hend := hline.last ' ' (by rw [List.getLast?_append, hlast, hspace]; rfl)
      exact absurd hend (by decide)
  | some c =>
      have hend := hline.last c (by rw [List.getLast?_append, hlast]; rfl)
      rw [hblank c (List.mem_of_getLast? hlast)] at hend
      exact absurd hend (by decide)

/-! ## Items -/

theorem item?_eq_some_iff {line found : List Char} :
    item? line = some found ↔
      ∃ mark content, IsMark mark ∧ trim line = mark ++ content ∧ found = trim content := by
  unfold item?
  constructor
  · intro h
    split at h
    · next content hafter =>
      obtain ⟨mark, hmark, hline⟩ := afterMark?_eq_some_iff.1 hafter
      split at h
      · simp at h
      · exact ⟨mark, content, hmark, hline, (Option.some.inj h).symm⟩
    · simp at h
  · rintro ⟨mark, content, hmark, hline, rfl⟩
    have hne : trim content ≠ [] := hmark.trim_ne_nil (hline ▸ isTrimmed_trim line)
    rw [afterMark?_eq_some_iff.2 ⟨mark, hmark, hline⟩]
    simp [hne]

theorem isSome_item?_iff {line : List Char} : (item? line).isSome ↔ IsItem line := by
  rw [Option.isSome_iff_exists]
  constructor
  · rintro ⟨found, hfound⟩
    obtain ⟨mark, content, hmark, hline, -⟩ := item?_eq_some_iff.1 hfound
    exact ⟨mark, content, hmark, hline⟩
  · rintro ⟨mark, content, hmark, hline⟩
    exact ⟨_, item?_eq_some_iff.2 ⟨mark, content, hmark, hline, rfl⟩⟩

instance : DecidablePred IsItem := fun _ => decidable_of_iff _ isSome_item?_iff

theorem item?_eq_none_iff {line : List Char} : item? line = none ↔ ¬ IsItem line := by
  rw [← isSome_item?_iff, Option.not_isSome_iff_eq_none]

theorem item?_nil : item? [] = none := rfl

theorem items_eq_nil_iff {text : List Char} :
    items text = [] ↔ ∀ line ∈ lines text, ¬ IsItem line := by
  simp only [items, List.filterMap_eq_nil_iff, item?_eq_none_iff]

/-- The items of a text are found in just those lines that are items. -/
theorem forall₂_filter_items (found : List (List Char)) :
    List.Forall₂ Shows (found.filter IsItem) ((found.filterMap item?).map bullet) := by
  induction found with
  | nil => exact .nil
  | cons line rest ih =>
      cases hitem : item? line with
      | none =>
          have hnot : ¬ IsItem line := item?_eq_none_iff.1 hitem
          rw [List.filterMap_cons_none hitem, List.filter_cons_of_neg (by simpa using hnot)]
          exact ih
      | some content =>
          have his : IsItem line := isSome_item?_iff.1 (by rw [hitem]; rfl)
          rw [List.filterMap_cons_some hitem, List.filter_cons_of_pos (by simpa using his)]
          refine .cons ?_ ih
          obtain ⟨mark, rest, hmark, hline, rfl⟩ := item?_eq_some_iff.1 hitem
          exact ⟨mark, rest, hmark, hline, hmark.trim_ne_nil (hline ▸ isTrimmed_trim line), rfl⟩

/-! ### Blanks at the ends of a text -/

/-- The items depend on the pieces between line feeds only. -/
theorem items_eq (text : List Char) : items text = (cut '\n' text).filterMap item? :=
  filterMap_lines item?_nil text

theorem item?_append_of_blank {before line after : List Char} (hbefore : AllBlank before)
    (hafter : AllBlank after) : item? (before ++ line ++ after) = item? line := by
  rw [item?, item?, trim_append_of_blank hbefore hafter]

theorem items_cons_of_blank {c : Char} (hc : isBlank c = true) (text : List Char) :
    items (c :: text) = items text := by
  have hblank : AllBlank [c] := by simpa [AllBlank] using hc
  obtain ⟨piece, pieces, hcut⟩ := List.exists_cons_of_ne_nil (cut_ne_nil '\n' text)
  rw [items_eq, items_eq, cut, hcut]
  split
  · exact List.filterMap_cons_none item?_nil
  · have hsame : item? ([c] ++ piece ++ []) = item? piece :=
      item?_append_of_blank hblank allBlank_nil
    rw [List.append_nil, List.singleton_append] at hsame
    simp only [List.filterMap_cons, hsame]

theorem items_concat_of_blank {c : Char} (hc : isBlank c = true) (text : List Char) :
    items (text ++ [c]) = items text := by
  have hblank : AllBlank [c] := by simpa [AllBlank] using hc
  obtain ⟨pieces, last, hcut, hconcat⟩ := exists_cut_concat '\n' c text
  rw [items_eq, items_eq, hconcat, hcut, List.filterMap_append, List.filterMap_append]
  congr 1
  split
  · show ([last] ++ [[]]).filterMap item? = _
    rw [List.filterMap_append, List.filterMap_cons_none item?_nil, List.filterMap_nil,
      List.append_nil]
  · have hsame : item? ([] ++ last ++ [c]) = item? last :=
      item?_append_of_blank allBlank_nil hblank
    rw [List.nil_append] at hsame
    simp only [List.filterMap_cons, hsame]

theorem items_append_of_blank {before after : List Char} (hbefore : AllBlank before)
    (text : List Char) (hafter : AllBlank after) :
    items (before ++ text ++ after) = items text := by
  have hstart : ∀ rest, items (before ++ rest) = items rest := by
    intro rest
    induction before with
    | nil => rfl
    | cons c before ih =>
        obtain ⟨hc, hbefore⟩ := List.forall_mem_cons.1 hbefore
        rw [List.cons_append, items_cons_of_blank hc, ih hbefore]
  have hend : ∀ rest, items (rest ++ after) = items rest := by
    induction after with
    | nil => simp
    | cons c after ih =>
        obtain ⟨hc, hafter⟩ := List.forall_mem_cons.1 hafter
        intro rest
        rw [List.append_cons, ih hafter, items_concat_of_blank hc]
  rw [hend, hstart]

/-- To trim a text makes no difference to its items. -/
theorem items_trim (text : List Char) : items (trim text) = items text := by
  obtain ⟨before, after, hbefore, hafter, htext⟩ := exists_trim text
  conv => rhs; rw [htext]
  exact (items_append_of_blank hbefore _ hafter).symm

/-! ## Bullets -/

/-- What can stand in a bullet: text on one line, without blanks at its ends. -/
structure IsContent (content : List Char) : Prop where
  ne_nil : content ≠ []
  trimmed : IsTrimmed content
  line : '\n' ∉ content

theorem isContent_of_mem_items {text content : List Char} (h : content ∈ items text) :
    IsContent content := by
  obtain ⟨line, hline, hitem⟩ := List.mem_filterMap.1 h
  obtain ⟨mark, rest, hmark, heq, rfl⟩ := item?_eq_some_iff.1 hitem
  refine ⟨hmark.trim_ne_nil (heq ▸ isTrimmed_trim line), isTrimmed_trim rest, fun hfeed => ?_⟩
  have hmem : '\n' ∈ trim line := heq ▸ List.mem_append_right mark (mem_of_mem_trim hfeed)
  exact not_mem_of_mem_cut (mem_cut_of_mem_lines hline) (mem_of_mem_trim hmem)

theorem toList_bullet (content : List Char) : (bullet content).toList = '•' :: ' ' :: content := by
  simp [bullet]

/-- A bullet is an item, and it shows what it has been made of. -/
theorem item?_bullet {content : List Char} (h : IsContent content) :
    item? (bullet content).toList = some content := by
  rw [toList_bullet]
  have htrimmed : IsTrimmed ('•' :: ' ' :: content) := by
    constructor
    · rintro _ ⟨⟩
      decide
    · intro c hc
      refine h.trimmed.last c ?_
      rwa [List.getLast?_cons_of_ne_nil (by simp), List.getLast?_cons_of_ne_nil h.ne_nil] at hc
  refine item?_eq_some_iff.2 ⟨['•', ' '], content, .sign (by decide), ?_, ?_⟩
  · rw [htrimmed.trim_eq_self]
    rfl
  · rw [h.trimmed.trim_eq_self]

theorem lines_join_bullet {found : List (List Char)} (h : ∀ content ∈ found, IsContent content) :
    lines (join "\n" (found.map bullet)).toList = (found.map bullet).map String.toList := by
  have hfeed : "\n".toList = ['\n'] := rfl
  rw [toList_join, hfeed]
  refine lines_intercalate ?_ ?_
  · intro line hline
    rw [List.map_map] at hline
    obtain ⟨content, hcontent, rfl⟩ := List.mem_map.1 hline
    simp [toList_bullet, (h content hcontent).line]
  · intro hlast
    obtain ⟨content, -, hnil⟩ := List.mem_map.1 (List.map_map ▸ List.mem_of_getLast? hlast)
    simp [toList_bullet] at hnil

/-- The bullets of some items are read as these items. -/
theorem items_join_bullet {found : List (List Char)} (h : ∀ content ∈ found, IsContent content) :
    items (join "\n" (found.map bullet)).toList = found := by
  rw [items, lines_join_bullet h, List.map_map, List.filterMap_map]
  calc found.filterMap (fun content => item? (bullet content).toList)
      = found.filterMap some := List.filterMap_congr fun content hcontent =>
        item?_bullet (h content hcontent)
    _ = found := List.filterMap_some

theorem normalize_of_items {text : String} (h : items text.toList ≠ []) :
    normalize text = join "\n" ((items text.toList).map bullet) := by
  unfold normalize
  split
  · next hnone => exact absurd hnone h
  · rfl

theorem normalize_of_no_items {text : String} (h : items text.toList = []) :
    normalize text = trimmed text := by
  rw [normalize, h]

/-- Bullets are kept as they are, and so is a trimmed text without items. -/
theorem normalize_normalize (text : String) : normalize (normalize text) = normalize text := by
  by_cases hitems : items text.toList = []
  · have hagain : items (trimmed text).toList = [] := by
      rw [trimmed, String.toList_ofList, items_trim, hitems]
    rw [normalize_of_no_items hitems, normalize_of_no_items hagain, trimmed_trimmed]
  · have hsame : items (normalize text).toList = items text.toList := by
      rw [normalize_of_items hitems]
      exact items_join_bullet fun content => isContent_of_mem_items
    have hagain : items (normalize text).toList ≠ [] := by rwa [hsame]
    rw [normalize_of_items hagain, hsame, ← normalize_of_items hitems]

/-! ## Digits and bytes -/

/-- A digit takes up one byte. -/
theorem utf8ByteSize_of_digits {ds : List Char} (h : ∀ d ∈ ds, isAsciiDigit d = true) :
    (String.ofList ds).utf8ByteSize = ds.length := by
  induction ds with
  | nil => rfl
  | cons d ds ih =>
      obtain ⟨hd, hds⟩ := List.forall_mem_cons.1 h
      have hsize : d.utf8Size = 1 := by
        simp only [isAsciiDigit, Bool.and_eq_true, decide_eq_true_eq] at hd
        exact Char.utf8Size_eq_one_iff.2 (UInt32.le_trans hd.2 (by decide))
      rw [String.ofList_cons, String.utf8ByteSize_append, String.utf8ByteSize_singleton, hsize,
        ih hds, List.length_cons, Nat.add_comm]

/-- As many bytes into a text as it has digits at its start, there is the end of a
character, and behind it is what follows the digits. -/
theorem exists_pos_after_digits (cs : List Char) :
    ∃ p : (String.ofList cs).Pos, p.offset.byteIdx = (spanDigits cs).1.length ∧
      p.Splits (String.ofList (spanDigits cs).1) (String.ofList (spanDigits cs).2) := by
  have hcs : String.ofList cs =
      String.ofList (spanDigits cs).1 ++ String.ofList (spanDigits cs).2 := by
    rw [← String.ofList_append, spanDigits_append]
  have hvalid : (String.ofList (spanDigits cs).1).rawEndPos.IsValid (String.ofList cs) :=
    String.Pos.Raw.isValid_iff_exists_append.2 ⟨_, _, hcs, rfl⟩
  have hdigits : ∀ d ∈ (spanDigits cs).1, isAsciiDigit d = true :=
    List.all_eq_true.1 List.all_takeWhile
  exact ⟨(String.ofList cs).pos _ hvalid, utf8ByteSize_of_digits hdigits, hcs, rfl⟩

/-! ## The answer of a writer -/

/-- What is kept of an answer does not change when it is put in again.  If some line of
the answer is an item, there is one bullet for each such line, in order, with its content,
which is never empty, and these are all the lines; otherwise it is the answer less the
blanks around it.  The digits at the start of a line end where a character ends. -/
theorem normalize_of_answer (answer : String) :
    normalize (normalize answer) = normalize answer ∧
    ((∃ line ∈ lines answer.toList, IsItem line) →
      ∃ bullets, List.Forall₂ Shows ((lines answer.toList).filter IsItem) bullets ∧
        lines (normalize answer).toList = bullets.map String.toList ∧
        normalize answer = join "\n" bullets) ∧
    ((∀ line ∈ lines answer.toList, ¬ IsItem line) → normalize answer = trimmed answer) ∧
    ∀ line ∈ lines answer.toList, ∃ p : (String.ofList (trim line)).Pos,
      p.offset.byteIdx = (spanDigits (trim line)).1.length ∧
      p.Splits (String.ofList (spanDigits (trim line)).1)
        (String.ofList (spanDigits (trim line)).2) := by
  refine ⟨normalize_normalize answer, ?_, fun hnone => ?_,
    fun line _ => exists_pos_after_digits (trim line)⟩
  · rintro ⟨line, hline, hitem⟩
    have hitems : items answer.toList ≠ [] := fun hnil => items_eq_nil_iff.1 hnil line hline hitem
    have hcontents : ∀ content ∈ items answer.toList, IsContent content := fun content =>
      isContent_of_mem_items
    refine ⟨(items answer.toList).map bullet, forall₂_filter_items _, ?_,
      normalize_of_items hitems⟩
    rw [normalize_of_items hitems, lines_join_bullet hcontents]
  · exact normalize_of_no_items (items_eq_nil_iff.2 hnone)

/-- An answer with line ends of several kinds, an item without content, and marks within
items. -/
def mixedAnswer : String := "Here:\r\n- \n 12) • Fixed login\u00a0\r\n* - Cut latency\n"

theorem normalize_of_mixedAnswer :
    normalize mixedAnswer = "• • Fixed login\n• - Cut latency" ∧
      normalize (normalize mixedAnswer) = normalize mixedAnswer ∧
      ∃ bullets, List.Forall₂ Shows ((lines mixedAnswer.toList).filter IsItem) bullets ∧
        bullets.length = 2 := by
  have hitem : ∃ line ∈ lines mixedAnswer.toList, IsItem line := by decide +kernel
  have hcount : ((lines mixedAnswer.toList).filter IsItem).length = 2 := by decide +kernel
  obtain ⟨hagain, hbullets, -, -⟩ := normalize_of_answer mixedAnswer
  obtain ⟨bullets, hshows, -, -⟩ := hbullets hitem
  exact ⟨by decide +kernel, hagain, bullets, hshows, hshows.length_eq.symm.trans hcount⟩

end TeamDigest.Rollup
