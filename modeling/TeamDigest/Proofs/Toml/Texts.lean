import TeamDigest.Toml.Quoted
import TeamDigest.Toml.Writer

/-!
# Texts that TOML keeps

A text is read again from the marks that the writer chooses for it (`Toml.quoted_textChars`),
whichever they are.

## Strategy

Each of the four kinds of marks has its own lemma.  Between one mark on either side the
characters are read one by one.  Between three marks the reader looks three marks ahead, so
there the induction on the characters also follows how many marks have just been read, and
never are there more than two in a row.
-/

namespace TeamDigest.Toml

open Text

/-- The text does not go on with a quotation mark. -/
def NoMark (rest : List Char) : Prop := ∀ c ∈ rest.head?, c ≠ '"' ∧ c ≠ '\x27'

/-! ## Single characters -/

/-- The four digits of a control character denote it. -/
private theorem scalar?_hexadecimal : ∀ n < 0x80, n < 0x20 ∨ n = 0x7F →
    (List.replicate (4 - ((hexadecimal n).map Char.toUpper).length) '0' ++
      (hexadecimal n).map Char.toUpper).length = 4 ∧
    scalar? (List.replicate (4 - ((hexadecimal n).map Char.toUpper).length) '0' ++
      (hexadecimal n).map Char.toUpper) = some (Char.ofNat n) := by
  decide

private theorem exists_of_length_four {cs : List Char} (h : cs.length = 4) :
    ∃ x y z w, cs = [x, y, z, w] := by
  match cs, h with
  | [x, y, z, w], _ => exact ⟨x, y, z, w, rfl⟩

/-- What is written for a character is an escape that is short, an escape with four digits,
or the character itself. -/
theorem escaped_cases (c : Char) :
    (∃ e, escaped c = ['\\', e] ∧ shortEscape? e = some c ∧ e ≠ 'u' ∧ e ≠ 'U' ∧ e ≠ '\n' ∧
      e ≠ '\r' ∧ e ≠ ' ' ∧ e ≠ '\t') ∨
    (∃ x y z w, escaped c = ['\\', 'u', x, y, z, w] ∧ scalar? [x, y, z, w] = some c) ∨
    (escaped c = [c] ∧ isControl c = false ∧ c ≠ '\\' ∧ c ≠ '\r') := by
  unfold escaped
  split
  · exact .inl ⟨'b', rfl, rfl, by decide⟩
  · exact .inl ⟨'t', rfl, rfl, by decide⟩
  · exact .inl ⟨'f', rfl, rfl, by decide⟩
  · exact .inl ⟨'r', rfl, rfl, by decide⟩
  · exact .inl ⟨'\\', rfl, rfl, by decide⟩
  · next hreturn hbackslash =>
    split
    · next hc =>
      have hcontrol : c.toNat < 0x20 ∨ c.toNat = 0x7F := by simpa using hc
      obtain ⟨hlength, hscalar⟩ := scalar?_hexadecimal c.toNat (by omega) hcontrol
      rw [Char.ofNat_toNat] at hscalar
      obtain ⟨x, y, z, w, hdigits⟩ := exists_of_length_four hlength
      rw [hdigits] at hscalar
      exact .inr (.inl ⟨x, y, z, w, congrArg ('\\' :: 'u' :: ·) hdigits, hscalar⟩)
    · next hc =>
      refine .inr (.inr ⟨rfl, ?_, hbackslash, hreturn⟩)
      simp only [Bool.or_eq_true, decide_eq_true_eq, not_or] at hc
      simp [isControl, hc]

/-- What is written for a character other than a double mark begins with neither a double
mark nor the end of a line. -/
theorem escaped_head {c : Char} (hc : c ≠ '"') :
    ∃ x xs, escaped c = x :: xs ∧ x ≠ '"' ∧ x ≠ '\r' ∧ (c ≠ '\n' → x ≠ '\n') := by
  obtain ⟨e, hescaped, -⟩ | ⟨x, y, z, w, hescaped, -⟩ | ⟨hescaped, -, -, hreturn⟩ :=
    escaped_cases c
  · exact ⟨'\\', _, hescaped, by decide, by decide, fun _ => by decide⟩
  · exact ⟨'\\', _, hescaped, by decide, by decide, fun _ => by decide⟩
  · exact ⟨c, [], hescaped, hc, hreturn, id⟩

/-! ## One mark on either side -/

theorem basicFrom_basicChar (c : Char) (done rest : List Char) :
    basicFrom done (basicChar c ++ rest) = basicFrom (c :: done) rest := by
  unfold basicChar
  split
  · rfl
  · rfl
  · next =>
    obtain ⟨e, hescaped, hshort, hu, hU, -⟩ | ⟨x, y, z, w, hescaped, hscalar⟩ |
      ⟨hescaped, hcontrol, hbackslash, -⟩ := escaped_cases c
    · rw [hescaped]
      simp [basicFrom, hshort, hu, hU]
    · rw [hescaped]
      simp [basicFrom, hscalar]
    · rw [hescaped]
      simp [basicFrom, hcontrol, hbackslash]

/-- One double mark opens a string of its own unless two more follow. -/
private theorem quoted_double {cs : List Char} (h : ∀ rest, cs ≠ '"' :: '"' :: rest) :
    quoted ('"' :: cs) = basicFrom [] cs := by
  match cs, h with
  | [], _ => rfl
  | [c], _ => by_cases hc : c = '"' <;> simp [quoted, hc]
  | c :: d :: cs, h =>
      have hmarks : ¬ (c = '"' ∧ d = '"') := by
        rintro ⟨rfl, rfl⟩
        exact h cs rfl
      by_cases hc : c = '"' <;> simp_all [quoted]

/-- One single mark opens a string of its own unless two more follow. -/
private theorem quoted_single {cs : List Char} (h : ∀ rest, cs ≠ '\x27' :: '\x27' :: rest) :
    quoted ('\x27' :: cs) = literalFrom [] cs := by
  match cs, h with
  | [], _ => rfl
  | [c], _ => by_cases hc : c = '\x27' <;> simp [quoted, hc]
  | c :: d :: cs, h =>
      have hmarks : ¬ (c = '\x27' ∧ d = '\x27') := by
        rintro ⟨rfl, rfl⟩
        exact h cs rfl
      by_cases hc : c = '\x27' <;> simp_all [quoted]

/-- A text between double marks is read. -/
theorem quoted_basic (cs : List Char) {rest : List Char} (hrest : NoMark rest) :
    quoted (basic cs ++ rest) = some (String.ofList cs, rest) := by
  have hcontent : ∀ (cs done : List Char),
      basicFrom done (cs.flatMap basicChar ++ '"' :: rest) =
        some (String.ofList (done.reverse ++ cs), rest) := by
    intro cs
    induction cs with
    | nil =>
        intro done
        simp [basicFrom]
    | cons c cs ih =>
        intro done
        rw [List.flatMap_cons, List.append_assoc, basicFrom_basicChar, ih]
        simp
  have hmarks : ∀ more, cs.flatMap basicChar ++ '"' :: rest ≠ '"' :: '"' :: more := by
    intro more
    cases cs with
    | nil =>
        rintro heq
        obtain rfl : rest = '"' :: more := by simpa using heq
        exact (hrest '"' rfl).1 rfl
    | cons c cs =>
        obtain ⟨x, xs, hhead, hx⟩ : ∃ x xs, basicChar c = x :: xs ∧ x ≠ '"' := by
          unfold basicChar
          split
          · exact ⟨'\\', _, rfl, by decide⟩
          · exact ⟨'\\', _, rfl, by decide⟩
          · next hquote =>
            obtain ⟨x, xs, hescaped, hx, -⟩ := escaped_head hquote
            exact ⟨x, xs, hescaped, hx⟩
        rw [List.flatMap_cons, hhead]
        rintro heq
        exact hx (List.cons_eq_cons.mp heq).1
  have hbasic : basic cs ++ rest = '"' :: (cs.flatMap basicChar ++ '"' :: rest) := by
    simp [basic]
  rw [hbasic, quoted_double hmarks]
  exact hcontent cs []

/-- A text between single marks is read, if it is of characters that may stand there. -/
theorem quoted_literal {cs : List Char} (hne : cs ≠ []) (hmark : '\x27' ∉ cs)
    (hcontrol : ∀ c ∈ cs, isControl c = false) (rest : List Char) :
    quoted (literal cs ++ rest) = some (String.ofList cs, rest) := by
  have hcontent : ∀ (cs done : List Char), '\x27' ∉ cs → (∀ c ∈ cs, isControl c = false) →
      literalFrom done (cs ++ '\x27' :: rest) =
        some (String.ofList (done.reverse ++ cs), rest) := by
    intro cs
    induction cs with
    | nil =>
        intro done _ _
        simp [literalFrom]
    | cons c cs ih =>
        intro done hmark hcontrol
        obtain ⟨hc, hmark⟩ : c ≠ '\x27' ∧ '\x27' ∉ cs := by simpa [eq_comm] using hmark
        obtain ⟨hcontrol, hrest⟩ := List.forall_mem_cons.mp hcontrol
        have hstep : literalFrom done (c :: (cs ++ '\x27' :: rest)) =
            literalFrom (c :: done) (cs ++ '\x27' :: rest) := by
          simp [literalFrom, hcontrol]
        rw [List.cons_append, hstep, ih (c :: done) hmark hrest]
        simp
  have hmarks : ∀ more, cs ++ '\x27' :: rest ≠ '\x27' :: '\x27' :: more := by
    intro more heq
    cases cs with
    | nil => exact hne rfl
    | cons c cs =>
        obtain ⟨rfl, -⟩ := List.cons_eq_cons.mp heq
        exact hmark List.mem_cons_self
  have hliteral : literal cs ++ rest = '\x27' :: (cs ++ '\x27' :: rest) := by
    simp [literal]
  rw [hliteral, quoted_single hmarks]
  exact hcontent cs [] hmark hcontrol

/-! ## Three double marks -/

private theorem foldsLine_of_ne {c : Char} (rest : List Char) (hline : c ≠ '\n')
    (hreturn : c ≠ '\r') (hspace : c ≠ ' ') (htab : c ≠ '\t') :
    foldsLine (c :: rest) = false := by
  have hblank : (c :: rest).dropWhile (fun c => c = ' ' || c = '\t') = c :: rest := by
    simp [hspace, htab]
  rw [foldsLine, hblank]
  split <;> simp_all

theorem longBasicFrom_char {c : Char} (hc : c ≠ '"') (done rest : List Char) :
    longBasicFrom false done ((if c = '\n' then ['\n'] else escaped c) ++ rest) =
      longBasicFrom false (c :: done) rest := by
  split
  · next hline =>
    subst hline
    simp [longBasicFrom]
  · next hline =>
    obtain ⟨e, hescaped, hshort, hu, hU, hend, hreturn, hspace, htab⟩ |
      ⟨x, y, z, w, hescaped, hscalar⟩ | ⟨hescaped, hcontrol, hbackslash, hreturn⟩ :=
      escaped_cases c
    · have hfolds := foldsLine_of_ne rest hend hreturn hspace htab
      rw [hescaped]
      simp [longBasicFrom, hshort, hu, hU, hfolds]
    · rw [hescaped]
      simp [longBasicFrom, hscalar]
    · rw [hescaped]
      simp [longBasicFrom, hc, hcontrol, hbackslash, hreturn]

/-- A double mark is a character like any other unless two more follow. -/
theorem longBasicFrom_mark {cs : List Char} (h : ∀ rest, cs ≠ '"' :: '"' :: rest)
    (done : List Char) :
    longBasicFrom false done ('"' :: cs) = longBasicFrom false ('"' :: done) cs := by
  match cs, h with
  | [], _ => simp [longBasicFrom, isControl]
  | [c], _ => by_cases hc : c = '"' <;> simp [longBasicFrom, isControl, hc]
  | c :: d :: cs, h =>
      have hmarks : ¬ (c = '"' ∧ d = '"') := by
        rintro ⟨rfl, rfl⟩
        exact h cs rfl
      by_cases hc : c = '"'
      · have hd : d ≠ '"' := fun hd => hmarks ⟨hc, hd⟩
        rw [hc, longBasicFrom]
        all_goals simp [isControl, hd]
      · rw [longBasicFrom]
        all_goals simp [isControl, hc]

/-- The third double mark in a row is escaped. -/
theorem longBasicFrom_escapedMark (done rest : List Char) :
    longBasicFrom false done ('\\' :: '"' :: rest) = longBasicFrom false ('"' :: done) rest := by
  have hfolds : foldsLine ('"' :: rest) = false :=
    foldsLine_of_ne rest (by decide) (by decide) (by decide) (by decide)
  simp [longBasicFrom, hfolds, shortEscape?]

/-- Up to two double marks may stand right before the closing ones. -/
private theorem longBasicFrom_close {rest : List Char} (hrest : NoMark rest) (done : List Char) :
    longBasicFrom false done ('"' :: '"' :: '"' :: rest) =
        some (String.ofList done.reverse, rest) ∧
      longBasicFrom false done ('"' :: '"' :: '"' :: '"' :: rest) =
        some (String.ofList ('"' :: done).reverse, rest) ∧
      longBasicFrom false done ('"' :: '"' :: '"' :: '"' :: '"' :: rest) =
        some (String.ofList ('"' :: '"' :: done).reverse, rest) := by
  cases rest with
  | nil => simp [longBasicFrom]
  | cons c rest =>
      have hc : c ≠ '"' := (hrest c rfl).1
      refine ⟨?_, ?_, ?_⟩
      · rw [longBasicFrom]
        all_goals simp [hc]
      · rw [longBasicFrom]
        all_goals simp [hc]
      · rw [longBasicFrom]

/-- After two double marks, or with another character, the text does not go on with a mark. -/
private theorem longBasicChars_head {run : Nat} {c : Char} (cs : List Char)
    (h : c ≠ '"' ∨ run = 2) : ∃ x xs, longBasicChars run (c :: cs) = x :: xs ∧ x ≠ '"' := by
  by_cases hc : c = '"'
  · obtain rfl : run = 2 := h.resolve_left (not_not_intro hc)
    exact ⟨'\\', '"' :: longBasicChars 0 cs, by simp [longBasicChars, hc], by decide⟩
  · have hchars : longBasicChars run (c :: cs) =
        (if c = '\n' then ['\n'] else escaped c) ++ longBasicChars 0 cs := by
      simp [longBasicChars, hc]
    by_cases hline : c = '\n'
    · exact ⟨'\n', longBasicChars 0 cs, by rw [hchars, if_pos hline]; rfl, by decide⟩
    · obtain ⟨x, xs, hescaped, hx, -⟩ := escaped_head hc
      exact ⟨x, xs ++ longBasicChars 0 cs, by simp [hchars, hline, hescaped], hx⟩

/-- Between three double marks a text is read. -/
theorem longBasicFrom_chars {rest : List Char} (hrest : NoMark rest) (cs : List Char) :
    ∀ (run : Nat) (done : List Char), run ≤ 2 →
      longBasicFrom false done (longBasicChars run cs ++ '"' :: '"' :: '"' :: rest) =
        some (String.ofList (done.reverse ++ cs), rest) := by
  induction cs with
  | nil =>
      intro run done _
      simpa [longBasicChars] using (longBasicFrom_close hrest done).1
  | cons c cs ih =>
      intro run done hrun
      by_cases hc : c = '"'
      · subst hc
        by_cases htwo : run = 2
        · have hchars : longBasicChars run ('"' :: cs) = '\\' :: '"' :: longBasicChars 0 cs := by
            simp [longBasicChars, htwo]
          rw [hchars, List.cons_append, List.cons_append, longBasicFrom_escapedMark,
            ih 0 _ (by omega)]
          simp
        · have hchars : longBasicChars run ('"' :: cs) = '"' :: longBasicChars (run + 1) cs := by
            simp [longBasicChars, htwo]
          -- Only at the end of the text do more than two marks follow one another.
          have hstep (h : ∀ more, longBasicChars (run + 1) cs ++ '"' :: '"' :: '"' :: rest ≠
              '"' :: '"' :: more) :
              longBasicFrom false done
                  ('"' :: (longBasicChars (run + 1) cs ++ '"' :: '"' :: '"' :: rest)) =
                some (String.ofList (done.reverse ++ '"' :: cs), rest) := by
            rw [longBasicFrom_mark h, ih (run + 1) _ (by omega)]
            simp
          rw [hchars, List.cons_append]
          match cs with
          | [] => simpa [longBasicChars] using (longBasicFrom_close hrest done).2.1
          | d :: ds =>
              by_cases hd : d ≠ '"' ∨ run + 1 = 2
              · obtain ⟨x, xs, hhead, hx⟩ := longBasicChars_head ds hd
                refine hstep fun more heq => hx ?_
                rw [hhead] at heq
                exact (List.cons_eq_cons.mp heq).1
              · obtain ⟨hmark, hsecond⟩ := not_or.mp hd
                obtain rfl : d = '"' := Decidable.not_not.mp hmark
                obtain rfl : run = 0 := by omega
                have hnext : longBasicChars (0 + 1) ('"' :: ds) = '"' :: longBasicChars 2 ds := by
                  simp [longBasicChars]
                match ds with
                | [] => simpa [longBasicChars] using (longBasicFrom_close hrest done).2.2
                | e :: es =>
                    obtain ⟨x, xs, hhead, hx⟩ := longBasicChars_head es (.inr rfl)
                    refine hstep fun more heq => hx ?_
                    rw [hnext, hhead] at heq
                    exact (List.cons_eq_cons.mp (List.cons_eq_cons.mp heq).2).1
      · have hchars : longBasicChars run (c :: cs) =
            (if c = '\n' then ['\n'] else escaped c) ++ longBasicChars 0 cs := by
          simp [longBasicChars, hc]
        rw [hchars, List.append_assoc, longBasicFrom_char hc, ih 0 _ (by omega)]
        simp

/-- The line feed after the opening marks belongs to the text only if one is written. -/
private theorem dropLineFeed_lead {cs xs : List Char}
    (h : '\n' ∉ cs → ∀ c ∈ xs.head?, c ≠ '\n' ∧ c ≠ '\r') : dropLineFeed (lead cs ++ xs) = xs := by
  by_cases hline : '\n' ∈ cs
  · have hlead : lead cs = ['\n'] := by simp [lead, hline]
    rw [hlead]
    rfl
  · have hlead : lead cs = [] := by simp [lead, hline]
    rw [hlead, List.nil_append]
    cases xs with
    | nil => rfl
    | cons c xs =>
        obtain ⟨hfeed, hreturn⟩ := h hline c rfl
        unfold dropLineFeed
        split <;> simp_all

/-- A text between three double marks is read. -/
theorem quoted_longBasic (cs : List Char) {rest : List Char} (hrest : NoMark rest) :
    quoted (longBasic cs ++ rest) = some (String.ofList cs, rest) := by
  have hlong : longBasic cs ++ rest = '"' :: '"' :: '"' ::
      (lead cs ++ (longBasicChars 0 cs ++ '"' :: '"' :: '"' :: rest)) := by
    simp [longBasic]
  have hhead : '\n' ∉ cs → ∀ c ∈ (longBasicChars 0 cs ++ '"' :: '"' :: '"' :: rest).head?,
      c ≠ '\n' ∧ c ≠ '\r' := by
    intro hline
    cases cs with
    | nil => simp [longBasicChars]
    | cons c cs =>
        have hc : '\n' ≠ c := List.ne_of_not_mem_cons hline
        by_cases hmark : c = '"'
        · simp [longBasicChars, hmark]
        · obtain ⟨x, xs, hescaped, -, hreturn, hfeed⟩ := escaped_head hmark
          simp [longBasicChars, hmark, Ne.symm hc, hescaped, hreturn, hfeed (Ne.symm hc)]
  rw [hlong, quoted, dropLineFeed_lead hhead]
  exact longBasicFrom_chars hrest cs 0 [] (by omega)

/-! ## Three single marks -/

/-- A single mark is a character like any other unless two more follow. -/
private theorem longLiteralFrom_mark {cs : List Char}
    (h : ∀ rest, cs ≠ '\x27' :: '\x27' :: rest) (done : List Char) :
    longLiteralFrom done ('\x27' :: cs) = longLiteralFrom ('\x27' :: done) cs := by
  match cs, h with
  | [], _ => simp [longLiteralFrom, isControl]
  | [c], _ => by_cases hc : c = '\x27' <;> simp [longLiteralFrom, isControl, hc]
  | c :: d :: cs, h =>
      have hmarks : ¬ (c = '\x27' ∧ d = '\x27') := by
        rintro ⟨rfl, rfl⟩
        exact h cs rfl
      by_cases hc : c = '\x27'
      · have hd : d ≠ '\x27' := fun hd => hmarks ⟨hc, hd⟩
        rw [hc, longLiteralFrom]
        all_goals simp [isControl, hd]
      · rw [longLiteralFrom]
        all_goals simp [isControl, hc]

/-- Up to two single marks may stand right before the closing ones. -/
private theorem longLiteralFrom_close {rest : List Char} (hrest : NoMark rest) (done : List Char) :
    longLiteralFrom done ('\x27' :: '\x27' :: '\x27' :: rest) =
        some (String.ofList done.reverse, rest) ∧
      longLiteralFrom done ('\x27' :: '\x27' :: '\x27' :: '\x27' :: rest) =
        some (String.ofList ('\x27' :: done).reverse, rest) ∧
      longLiteralFrom done ('\x27' :: '\x27' :: '\x27' :: '\x27' :: '\x27' :: rest) =
        some (String.ofList ('\x27' :: '\x27' :: done).reverse, rest) := by
  cases rest with
  | nil => simp [longLiteralFrom]
  | cons c rest =>
      have hc : c ≠ '\x27' := (hrest c rfl).2
      refine ⟨?_, ?_, ?_⟩
      · rw [longLiteralFrom]
        all_goals simp [hc]
      · rw [longLiteralFrom]
        all_goals simp [hc]
      · rw [longLiteralFrom]

/-- The longest run is at least as long as the longest one so far. -/
theorem le_longestRun (c : Char) (cs : List Char) :
    ∀ run longest, longest ≤ longestRun c run longest cs := by
  induction cs with
  | nil => exact fun _ longest => Nat.le_refl longest
  | cons d ds ih =>
      intro run longest
      unfold longestRun
      split
      · exact Nat.le_trans (Nat.le_max_left _ _) (ih _ _)
      · exact ih _ _

/-- Where there is no run of a character, the character is not there. -/
theorem not_mem_of_longestRun {c : Char} {cs : List Char} :
    ∀ {run longest}, longestRun c run longest cs = 0 → c ∉ cs := by
  induction cs with
  | nil => simp
  | cons d ds ih =>
      intro run longest h
      unfold longestRun at h
      split at h
      · have hle := le_longestRun c ds (run + 1) (max longest (run + 1))
        omega
      · next hd => exact List.not_mem_cons_of_ne_of_not_mem (Ne.symm hd) (ih h)

/-- Between three single marks a text is read that has no more than two in a row. -/
theorem longLiteralFrom_chars {rest : List Char} (hrest : NoMark rest) (cs : List Char)
    (hplain : ∀ c ∈ cs, needsEscape c = false) :
    ∀ (run longest : Nat) (done : List Char), longestRun '\x27' run longest cs ≤ 2 →
      longLiteralFrom done (cs ++ '\x27' :: '\x27' :: '\x27' :: rest) =
        some (String.ofList (done.reverse ++ cs), rest) := by
  induction cs with
  | nil =>
      intro run longest done _
      simpa using (longLiteralFrom_close hrest done).1
  | cons c cs ih =>
      intro run longest done hrun
      obtain ⟨hc, hcs⟩ := List.forall_mem_cons.mp hplain
      by_cases hmark : c = '\x27'
      · subst hmark
        have hnext : longestRun '\x27' (run + 1) (max longest (run + 1)) cs ≤ 2 := by
          simpa [longestRun] using hrun
        have hstep (h : ∀ more, cs ++ '\x27' :: '\x27' :: '\x27' :: rest ≠
            '\x27' :: '\x27' :: more) :
            longLiteralFrom done ('\x27' :: (cs ++ '\x27' :: '\x27' :: '\x27' :: rest)) =
              some (String.ofList (done.reverse ++ '\x27' :: cs), rest) := by
          rw [longLiteralFrom_mark h, ih hcs _ _ _ hnext]
          simp
        rw [List.cons_append]
        match cs with
        | [] => simpa using (longLiteralFrom_close hrest done).2.1
        | d :: ds =>
            by_cases hd : d = '\x27'
            · subst hd
              match ds with
              | [] => simpa using (longLiteralFrom_close hrest done).2.2
              | e :: es =>
                  refine hstep fun more heq => ?_
                  obtain rfl : e = '\x27' :=
                    (List.cons_eq_cons.mp (List.cons_eq_cons.mp heq).2).1
                  simp only [longestRun, if_true] at hnext
                  have hle := Nat.le_trans (le_longestRun _ _ _ _) hnext
                  omega
            · exact hstep fun more heq => hd (List.cons_eq_cons.mp heq).1
      · have hstep : longLiteralFrom done (c :: (cs ++ '\x27' :: '\x27' :: '\x27' :: rest)) =
            longLiteralFrom (c :: done) (cs ++ '\x27' :: '\x27' :: '\x27' :: rest) := by
          by_cases hline : c = '\n'
          · subst hline
            simp [longLiteralFrom]
          · have hcontrol : isControl c = false := by
              simpa [isControl, needsEscape, hline] using hc
            have hreturn : c ≠ '\r' := by
              rintro rfl
              exact absurd hc (by decide)
            rw [longLiteralFrom]
            all_goals simp [hmark, hline, hcontrol, hreturn]
        have hrest : longestRun '\x27' 0 longest cs ≤ 2 := by
          simpa [longestRun, hmark] using hrun
        rw [List.cons_append, hstep, ih hcs 0 longest _ hrest]
        simp

/-- A text between three single marks is read, if it needs no escapes and has no more than
two single marks in a row. -/
theorem quoted_longLiteral {cs : List Char} (hplain : ∀ c ∈ cs, needsEscape c = false)
    (hruns : longestRun '\x27' 0 0 cs ≤ 2) {rest : List Char} (hrest : NoMark rest) :
    quoted (longLiteral cs ++ rest) = some (String.ofList cs, rest) := by
  have hlong : longLiteral cs ++ rest = '\x27' :: '\x27' :: '\x27' ::
      (lead cs ++ (cs ++ '\x27' :: '\x27' :: '\x27' :: rest)) := by
    simp [longLiteral]
  have hhead : '\n' ∉ cs → ∀ c ∈ (cs ++ '\x27' :: '\x27' :: '\x27' :: rest).head?,
      c ≠ '\n' ∧ c ≠ '\r' := by
    intro hline
    cases cs with
    | nil => simp
    | cons c cs =>
        have hc : '\n' ≠ c := List.ne_of_not_mem_cons hline
        have hreturn : c ≠ '\r' := by
          rintro rfl
          exact absurd (hplain '\r' List.mem_cons_self) (by decide)
        simp [Ne.symm hc, hreturn]
  rw [hlong, quoted, dropLineFeed_lead hhead]
  exact longLiteralFrom_chars hrest cs hplain 0 0 [] hruns

/-! ## The marks that suit a text -/

/-- A text is read again from the marks that suit it, unless more marks follow. -/
theorem quoted_textChars (cs : List Char) {rest : List Char} (hrest : NoMark rest) :
    quoted (textChars cs ++ rest) = some (String.ofList cs, rest) := by
  have hplain (h : cs.any needsEscape = false) : ∀ c ∈ cs, needsEscape c = false := by
    simpa using h
  unfold textChars
  dsimp only
  split
  · exact quoted_basic cs hrest
  · next hbasic =>
    split
    · next hliteral =>
      obtain ⟨⟨hescapes, hline⟩, hruns⟩ :
          (cs.any needsEscape = false ∧ cs.contains '\n' = false) ∧
            longestRun '\x27' 0 0 cs = 0 := by
        simpa only [Bool.and_eq_true, Bool.not_eq_true', decide_eq_true_eq] using hliteral
      have hne : cs ≠ [] := by
        rintro rfl
        exact hbasic rfl
      have hcontrol : ∀ c ∈ cs, isControl c = false := by
        intro c hc
        have hfeed : c ≠ '\n' := by
          rintro rfl
          simp [hc] at hline
        simpa [isControl, needsEscape, hfeed] using hplain hescapes c hc
      exact quoted_literal hne (not_mem_of_longestRun hruns) hcontrol rest
    · split
      · exact quoted_longBasic cs hrest
      · split
        · next hlong =>
          obtain ⟨hescapes, hruns⟩ :
              cs.any needsEscape = false ∧ longestRun '\x27' 0 0 cs ≤ 2 := by
            simpa only [Bool.and_eq_true, Bool.not_eq_true', decide_eq_true_eq] using hlong
          exact quoted_longLiteral (hplain hescapes) hruns hrest
        · split
          · exact quoted_longBasic cs hrest
          · exact quoted_basic cs hrest

/-- A text stands between quotation marks. -/
theorem textChars_head (cs : List Char) :
    ∃ x xs, textChars cs = x :: xs ∧ (x = '"' ∨ x = '\x27') := by
  unfold textChars
  dsimp only
  split
  · exact ⟨'"', _, rfl, .inl rfl⟩
  · split
    · exact ⟨'\x27', _, rfl, .inr rfl⟩
    · split
      · exact ⟨'"', _, rfl, .inl rfl⟩
      · split
        · exact ⟨'\x27', _, rfl, .inr rfl⟩
        · split <;> exact ⟨'"', _, rfl, .inl rfl⟩

end TeamDigest.Toml
