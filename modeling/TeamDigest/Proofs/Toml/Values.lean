import TeamDigest.Proofs.Toml.Texts
import TeamDigest.Toml.Reader

/-!
# Values that TOML keeps

Truth values, integers of 64 bits and texts are read again as they are written, and so are
lists of them (`Toml.value_line`).

## Strategy

A scalar is read up to something that cannot belong to it (`value_scalar`).  The items of a
list are then read one by one, by induction on the items that are still to come; what has
been read stands in the accumulator of the reader.
-/

namespace TeamDigest.Toml

open Text

/-- A scalar that a line can hold. -/
inductive Scalar : Data → Prop
  | bool (b : Bool) : Scalar (.bool b)
  | integer {i : Int} (h : Number.signedLeast64 ≤ i ∧ i ≤ Number.signedGreatest64) :
      Scalar (.integer i)
  | text (s : String) : Scalar (.text s)

/-- A value that stands on the right of an equality sign. -/
inductive Line : Data → Prop
  | scalar {d : Data} (h : Scalar d) : Line d
  | list {ds : List Data} (h : ∀ d ∈ ds, Scalar d) : Line (.list ds)

/-- The text ends, or goes on with what may follow a value. -/
def Follows (rest : List Char) : Prop := ∀ c ∈ rest.head?, c = '\n' ∨ c = ',' ∨ c = ']'

theorem Follows.noMark {rest : List Char} (h : Follows rest) : NoMark rest := by
  intro c hc
  rcases h c hc with rfl | rfl | rfl <;> decide

/-! ## Numerals -/

theorem valueIn_numeral (n : Nat) : valueIn 10 (numeral n) = n := by
  have hvalue : ∀ (ds : List Char) (m : Nat), (∀ c ∈ ds, isAsciiDigit c = true) →
      ds.foldl (fun n c => n * 10 + (hexValue? c).getD 0) m = Nat.ofDigitChars 10 ds m := by
    intro ds
    induction ds with
    | nil => exact fun _ _ => rfl
    | cons c ds ih =>
        intro m h
        obtain ⟨hc, hds⟩ := List.forall_mem_cons.mp h
        have hdigit : m * 10 + (hexValue? c).getD 0 = 10 * m + (c.toNat - '0'.toNat) := by
          simp [hexValue?, hc, digitValue, Nat.mul_comm]
        rw [List.foldl_cons, hdigit, ih _ hds]
        rfl
  calc valueIn 10 (numeral n)
      = numeralValue (numeral n) := hvalue _ 0 fun c hc => isAsciiDigit_of_mem_numeral hc
    _ = n := numeralValue_numeral n

theorem digits?_of_all {ds : List Char} (hne : ds ≠ []) (h : ∀ c ∈ ds, isAsciiDigit c = true) :
    digits? isAsciiDigit ds = some ds := by
  have hscore : '_' ∉ ds := fun hmem => absurd (h _ hmem) (by decide)
  simp [digits?, cut_of_not_mem hscore, hne, List.all_eq_true.mpr h]

private theorem fixed?_eq_some {n value : Nat} {cs rest : List Char}
    (h : fixed? n cs = some (value, rest)) : rest = cs.drop n := by
  unfold fixed? at h
  dsimp only at h
  split at h
  · exact (congrArg Prod.snd (Option.some.inj h)).symm
  · simp at h

/-- Among digits there is no mark. -/
private theorem mark?_of_all {c : Char} (hc : isAsciiDigit c = false) {cs : List Char}
    (h : ∀ x ∈ cs, isAsciiDigit x = true) : mark? c cs = none := by
  cases cs with
  | nil => rfl
  | cons d ds =>
      have hd : d ≠ c := by
        rintro rfl
        simp [h d List.mem_cons_self] at hc
      simp [mark?, hd]

/-- Where there are digits only after the first character, there is no date and no time of
day. -/
theorem isMoment_of_tail {cs : List Char} (h : ∀ x ∈ cs.tail, isAsciiDigit x = true) :
    isMoment cs = false := by
  have hdrop : ∀ n, 0 < n → ∀ x ∈ cs.drop n, isAsciiDigit x = true := by
    intro n hn x hx
    refine h x ?_
    obtain ⟨m, rfl⟩ : ∃ m, n = m + 1 := ⟨n - 1, by omega⟩
    rw [← List.drop_tail] at hx
    exact List.mem_of_mem_drop hx
  have hdate : afterDate? cs = none := by
    unfold afterDate?
    cases hyear : fixed? 4 cs with
    | none => rfl
    | some p =>
        obtain ⟨year, rest⟩ := p
        obtain rfl := fixed?_eq_some hyear
        simp [mark?_of_all (by decide : isAsciiDigit '-' = false) (hdrop 4 (by omega))]
  have htime : afterTime? cs = none := by
    unfold afterTime?
    cases hhour : fixed? 2 cs with
    | none => rfl
    | some p =>
        obtain ⟨hour, rest⟩ := p
        obtain rfl := fixed?_eq_some hhour
        simp [mark?_of_all (by decide : isAsciiDigit ':' = false) (hdrop 2 (by omega))]
  simp [isMoment, hdate, htime]

theorem integer?_signedDecimal (i : Int) : integer? (signedDecimal i).toList = int64? i := by
  obtain ⟨c, cs, hcons, -, hdigits⟩ := signedDecimal_eq_cons i
  have hsecond : ∀ x more, (signedDecimal i).toList = '0' :: x :: more →
      isAsciiDigit x = true := by
    intro x more heq
    rw [hcons] at heq
    obtain ⟨-, rfl⟩ := List.cons_eq_cons.mp heq
    exact hdigits x List.mem_cons_self
  obtain ⟨negative, n, hi, -, hchars⟩ := signedDecimal_cases i
  have hdigits : digits? isAsciiDigit (numeral n) = some (numeral n) :=
    digits?_of_all (numeral_ne_nil n) fun c hc => isAsciiDigit_of_mem_numeral hc
  have hlead : ¬ ((numeral n).head? = some '0' ∧ 1 < (numeral n).length) := by
    rintro ⟨hhead, hlength⟩
    exact head?_numeral_of_long hlength hhead
  have hwhole : wholeDigits? (numeral n) = some (numeral n) := by
    simp [wholeDigits?, hdigits, hlead]
  have hsign : splitSign ((if negative then ['-'] else []) ++ numeral n) =
      (negative, numeral n) := by
    cases negative with
    | true => rfl
    | false =>
        have hfirst : ∀ c rest, numeral n = c :: rest → isAsciiDigit c = true := fun c rest h =>
          isAsciiDigit_of_mem_numeral (h ▸ List.mem_cons_self)
        change splitSign (numeral n) = (false, numeral n)
        unfold splitSign
        split
        · next heq => exact absurd (hfirst _ _ heq) (by decide)
        · next heq => exact absurd (hfirst _ _ heq) (by decide)
        · rfl
  unfold integer?
  dsimp only
  split
  · next heq => exact absurd (hsecond _ _ heq) (by decide)
  · next heq => exact absurd (hsecond _ _ heq) (by decide)
  · next heq => exact absurd (hsecond _ _ heq) (by decide)
  · simp [hchars, hsign, hwhole, valueIn_numeral, ← hi]

/-! ## Scalars -/

/-- A word is read up to its end. -/
theorem bare_word {word rest : List Char} {d : Data} (hword : ∀ c ∈ word, isWordChar c = true)
    (hrest : Follows rest) (h : bare? word = some d) : bare (word ++ rest) = some (d, rest) := by
  have hend : ∀ c ∈ rest.head?, isWordChar c = false ∧ c ≠ ' ' := by
    intro c hc
    rcases hrest c hc with rfl | rfl | rfl <;> decide
  obtain ⟨htake, hdrop⟩ := span_of_all hword fun c hc => (hend c hc).1
  unfold bare
  rw [htake, hdrop]
  dsimp only
  split
  · next c more heq => exact absurd rfl (hend ' ' (by simp)).2
  · simp [h]

theorem bare_signedDecimal {i : Int}
    (h : Number.signedLeast64 ≤ i ∧ i ≤ Number.signedGreatest64) {rest : List Char}
    (hrest : Follows rest) :
    bare ((signedDecimal i).toList ++ rest) = some (.integer i, rest) := by
  obtain ⟨c, cs, hchars, hc, hcs⟩ := signedDecimal_eq_cons i
  have hname : ∀ (name : String) (x : Char), x ∈ name.toList.tail → isAsciiDigit x = false →
      String.ofList (signedDecimal i).toList ≠ name := by
    rintro name x hx hdigit rfl
    rw [String.toList_ofList, hchars] at hx
    simp [hcs x hx] at hdigit
  have hmoment : isMoment (signedDecimal i).toList = false :=
    isMoment_of_tail (by rwa [hchars])
  have hvalue : bare? (signedDecimal i).toList = some (.integer i) := by
    unfold bare?
    rw [if_neg (hname "true" 'r' (by decide) rfl), if_neg (hname "false" 'a' (by decide) rfl),
      hmoment, integer?_signedDecimal, int64?, if_pos h]
    rfl
  have hdigit : ∀ x, isAsciiDigit x = true → isWordChar x = true := by
    intro x hx
    simp [isWordChar, hx]
  have hword : ∀ x ∈ (signedDecimal i).toList, isWordChar x = true := by
    rw [hchars]
    refine List.forall_mem_cons.mpr ⟨?_, fun x hx => hdigit x (hcs x hx)⟩
    rcases hc with hc | rfl
    · exact hdigit c hc
    · rfl
  exact bare_word hword hrest hvalue

/-- What begins with no mark and no bracket is a bare scalar. -/
private theorem value_of_head {c : Char} (cs : List Char) (depth : Nat)
    (h : c ≠ '[' ∧ c ≠ '\x7b' ∧ c ≠ '"' ∧ c ≠ '\x27') :
    value depth (c :: cs) = bare (c :: cs) := by
  obtain ⟨hlist, htable, hdouble, hsingle⟩ := h
  have hquoted : quoted (c :: cs) = none := by
    unfold quoted
    split <;> simp_all
  cases depth with
  | zero => simp [value, hquoted]
  | succ depth =>
      unfold value
      split
      · next heq => exact absurd (List.cons_eq_cons.mp heq).1 hlist
      · next heq => exact absurd (List.cons_eq_cons.mp heq).1 htable
      · rw [hquoted]

/-- A string is a value. -/
private theorem value_of_quoted {cs rest : List Char} {s : String} (depth : Nat)
    (h : quoted cs = some (s, rest)) : value depth cs = some (.text s, rest) := by
  cases depth with
  | zero => simp [value, h]
  | succ depth =>
      unfold value
      split
      · simp [quoted] at h
      · simp [quoted] at h
      · rw [h]

/-- A scalar is read up to something that cannot belong to it. -/
theorem value_scalar {d : Data} (h : Scalar d) (depth : Nat) {rest : List Char}
    (hrest : Follows rest) :
    value depth ((valueText d).toList ++ rest) = some (d, rest) := by
  cases h with
  | bool b =>
      cases b with
      | true =>
          have hword : ∀ c ∈ ['t', 'r', 'u', 'e'], isWordChar c = true := by simp [isWordChar]
          exact (value_of_head _ depth (by decide)).trans (bare_word hword hrest rfl)
      | false =>
          have hword : ∀ c ∈ ['f', 'a', 'l', 's', 'e'], isWordChar c = true := by
            simp [isWordChar]
          exact (value_of_head _ depth (by decide)).trans (bare_word hword hrest rfl)
  | @integer i h =>
      have hbare := bare_signedDecimal h hrest
      obtain ⟨c, cs, hchars, hc, -⟩ := signedDecimal_eq_cons i
      have hhead : c ≠ '[' ∧ c ≠ '\x7b' ∧ c ≠ '"' ∧ c ≠ '\x27' := by
        rcases hc with hc | rfl
        · refine ⟨?_, ?_, ?_, ?_⟩ <;> rintro rfl <;> exact absurd hc (by decide)
        · decide
      change value depth ((signedDecimal i).toList ++ rest) = some (.integer i, rest)
      rw [hchars, List.cons_append] at hbare ⊢
      rw [value_of_head _ depth hhead, hbare]
  | text s =>
      have hquoted := quoted_textChars s.toList hrest.noMark
      rw [String.ofList_toList] at hquoted
      simpa [valueText] using value_of_quoted depth hquoted

/-- A scalar begins with no blank, no comment and no bracket. -/
theorem scalar_head {d : Data} (h : Scalar d) :
    ∃ c cs, (valueText d).toList = c :: cs ∧ c ∉ [' ', '\t', '\n', '\r', '#', ']', '['] := by
  cases h with
  | bool b =>
      cases b with
      | true => exact ⟨'t', _, rfl, by decide⟩
      | false => exact ⟨'f', _, rfl, by decide⟩
  | @integer i h =>
      obtain ⟨c, cs, hchars, hc, -⟩ := signedDecimal_eq_cons i
      refine ⟨c, cs, hchars, fun hmem => ?_⟩
      rcases hc with hc | rfl
      · simp only [List.mem_cons, List.not_mem_nil, or_false] at hmem
        rcases hmem with rfl | rfl | rfl | rfl | rfl | rfl | rfl <;> exact absurd hc (by decide)
      · exact absurd hmem (by decide)
  | text s =>
      obtain ⟨x, xs, hchars, hx⟩ := textChars_head s.toList
      refine ⟨x, xs, by simp [valueText, hchars], ?_⟩
      rcases hx with rfl | rfl <;> decide

/-! ## Lists -/

/-- Before a scalar there is nothing to skip. -/
private theorem afterBlank?_scalar {d : Data} (h : Scalar d) (rest : List Char) :
    afterBlank? false ((valueText d).toList ++ rest) = some ((valueText d).toList ++ rest) := by
  obtain ⟨c, cs, hchars, hc⟩ := scalar_head h
  simp only [List.mem_cons, List.not_mem_nil, or_false, not_or] at hc
  obtain ⟨hspace, htab, hline, hreturn, hcomment, -, -⟩ := hc
  rw [hchars, List.cons_append, afterBlank?]
  all_goals simp [hspace, htab, hline, hreturn, hcomment]

/-- An item is read, and what follows the sign after it is still to be read. -/
private theorem listItems_item {item : Reader Data} {d : Data} {c : Char}
    {cs text rest after : List Char} (hblank : afterBlank? false cs = some (c :: text))
    (hclose : c ≠ ']') (hitem : item (c :: text) = some (d, rest)) (bound : Nat)
    (done : List Data) :
    (afterBlank? false rest = some (',' :: after) →
      listItems item (bound + 1) done cs = listItems item bound (d :: done) after) ∧
    (afterBlank? false rest = some (']' :: after) →
      listItems item (bound + 1) done cs = some ((d :: done).reverse, after)) := by
  constructor
  · intro hafter
    rw [listItems, hblank]
    simp [hclose, hitem, hafter]
  · intro hafter
    rw [listItems, hblank]
    simp [hclose, hitem, hafter]

/-- The list ends. -/
private theorem listItems_close {item : Reader Data} {cs after : List Char}
    (hblank : afterBlank? false cs = some (']' :: after)) (bound : Nat) (done : List Data) :
    listItems item bound done cs = some (done.reverse, after) := by
  rw [listItems, hblank]
  rfl

/-- An item of a list that is not its first or not its last, on a line of its own. -/
def itemLine (d : Data) : List Char :=
  '\n' :: ' ' :: ' ' :: ' ' :: ' ' :: (valueText d).toList ++ [',']

private theorem toList_itemLines (ds : List Data) :
    (String.join ((valueTexts ds).map fun s => "\n    " ++ s ++ ",")).toList =
      ds.flatMap itemLine := by
  induction ds with
  | nil => rfl
  | cons d ds ih =>
      rw [valueTexts, List.map_cons, String.join_cons, String.toList_append, ih]
      simp [itemLine]

private theorem length_le_flatMap (ds : List Data) : ds.length ≤ (ds.flatMap itemLine).length := by
  induction ds with
  | nil => exact Nat.le_refl 0
  | cons d ds ih =>
      simp only [List.flatMap_cons, List.length_append, List.length_cons, itemLine]
      omega

/-- The items of a list are read, each on a line of its own. -/
theorem listItems_lines {ds : List Data} (h : ∀ d ∈ ds, Scalar d) (depth : Nat)
    (rest : List Char) : ∀ (bound : Nat) (done : List Data), ds.length ≤ bound →
      listItems (value depth) bound done (ds.flatMap itemLine ++ '\n' :: ']' :: rest) =
        some (done.reverse ++ ds, rest) := by
  induction ds with
  | nil =>
      intro bound done _
      have hblank : afterBlank? false ('\n' :: ']' :: rest) = some (']' :: rest) := by
        simp [afterBlank?]
      simpa using listItems_close hblank bound done
  | cons d ds ih =>
      intro bound done hbound
      obtain ⟨hd, hds⟩ := List.forall_mem_cons.mp h
      obtain ⟨bound, rfl⟩ : ∃ m, bound = m + 1 := ⟨bound - 1, by simp at hbound; omega⟩
      have hline : (d :: ds).flatMap itemLine ++ '\n' :: ']' :: rest =
          '\n' :: ' ' :: ' ' :: ' ' :: ' ' :: ((valueText d).toList ++
            ',' :: (ds.flatMap itemLine ++ '\n' :: ']' :: rest)) := by
        simp [itemLine]
      generalize hmore : ds.flatMap itemLine ++ '\n' :: ']' :: rest = more at hline
      have hblank : afterBlank? false ('\n' :: ' ' :: ' ' :: ' ' :: ' ' ::
          ((valueText d).toList ++ ',' :: more)) = some ((valueText d).toList ++ ',' :: more) := by
        simpa [afterBlank?] using afterBlank?_scalar hd (',' :: more)
      have hitem : value depth ((valueText d).toList ++ ',' :: more) = some (d, ',' :: more) :=
        value_scalar hd depth (by simp [Follows])
      obtain ⟨c, cs, hchars, hc⟩ := scalar_head hd
      have hclose : c ≠ ']' := by
        rintro rfl
        exact hc (by decide)
      have hcomma : afterBlank? false (',' :: more) = some (',' :: more) := by simp [afterBlank?]
      rw [hchars, List.cons_append] at hline hblank hitem
      rw [hline, (listItems_item hblank hclose hitem bound done).1 hcomma, ← hmore,
        ih hds bound (d :: done) (by simpa using hbound)]
      simp

/-- Values that stand on a line are read up to something that cannot belong to them. -/
theorem value_line {d : Data} (h : Line d) (depth : Nat) {rest : List Char}
    (hrest : Follows rest) :
    value (depth + 1) ((valueText d).toList ++ rest) = some (d, rest) := by
  cases h with
  | scalar h => exact value_scalar h (depth + 1) hrest
  | @list ds h =>
      have hvalue : ∀ cs, listItems (value depth) cs.length [] cs = some (ds, rest) →
          value (depth + 1) ('[' :: cs) = some (.list ds, rest) := by
        intro cs hitems
        simp [value, hitems]
      match ds, h with
      | [], _ =>
          have htext : (valueText (.list [])).toList ++ rest = '[' :: ']' :: rest := by
            simp [valueText, valueTexts, listText]
          rw [htext]
          exact hvalue _ (listItems_close (by simp [afterBlank?]) _ [])
      | [d], h =>
          have hd : Scalar d := h d List.mem_cons_self
          have htext : (valueText (.list [d])).toList ++ rest =
              '[' :: ((valueText d).toList ++ ']' :: rest) := by
            simp [valueText, valueTexts, listText]
          have hblank := afterBlank?_scalar hd (']' :: rest)
          have hitem : value depth ((valueText d).toList ++ ']' :: rest) = some (d, ']' :: rest) :=
            value_scalar hd depth (by simp [Follows])
          obtain ⟨c, cs, hchars, hc⟩ := scalar_head hd
          have hclose : c ≠ ']' := by
            rintro rfl
            exact hc (by decide)
          have hbracket : afterBlank? false (']' :: rest) = some (']' :: rest) := by
            simp [afterBlank?]
          rw [htext]
          refine hvalue _ ?_
          rw [hchars, List.cons_append] at hblank hitem ⊢
          exact (listItems_item hblank hclose hitem _ []).2 hbracket
      | d :: e :: ds, h =>
          have htext : (valueText (.list (d :: e :: ds))).toList ++ rest =
              '[' :: ((d :: e :: ds).flatMap itemLine ++ '\n' :: ']' :: rest) := by
            rw [← toList_itemLines]
            simp [valueText, valueTexts, listText]
          have hbound : (d :: e :: ds).length ≤
              ((d :: e :: ds).flatMap itemLine ++ '\n' :: ']' :: rest).length := by
            have hle := length_le_flatMap (d :: e :: ds)
            rw [List.length_append]
            omega
          rw [htext]
          exact hvalue _ (listItems_lines h depth rest _ [] hbound)

end TeamDigest.Toml
