import TeamDigest.Json.Reader
import TeamDigest.Json.Writer
import TeamDigest.Proofs.Data.Order

/-!
# What JSON keeps

A tree of truth values, texts and integers of 64 bits is read again as it was written
(`Json.read?_write`).

## Strategy

A tree has its tokens (`Json.tokens`).  What is written of a tree is scanned to just these
(`scan_write`), as long as what comes next does not go on with the last word of it; and from
the tokens the tree is put together (`Builder.completes`).  Both go by induction on the tree,
with an induction on the items or the fields inside.
-/

namespace TeamDigest

namespace Json

open Text

mutual

/-- The tokens of a tree. -/
def tokens : Data → List Token
  | .list ds => .openList :: (itemTokens ds ++ [.closeList])
  | .record fs => .openRecord :: (fieldTokens fs ++ [.closeRecord])
  | d => [.scalar d]

/-- The tokens of items with commas between them. -/
def itemTokens : List Data → List Token
  | [] => []
  | [d] => tokens d
  | d :: e :: ds => tokens d ++ .comma :: itemTokens (e :: ds)

/-- The tokens of fields with commas between them. -/
def fieldTokens : List (String × Data) → List Token
  | [] => []
  | [(name, d)] => .scalar (.text name) :: .colon :: tokens d
  | (name, d) :: f :: fs =>
    .scalar (.text name) :: .colon :: (tokens d ++ .comma :: fieldTokens (f :: fs))

end

/-! ## Texts -/

/-- A string that holds these characters so far, last one first. -/
def Quoted.plain (cs : List Char) : Quoted := { reversed := cs }

/-- The four digits of a control character are read as its number. -/
private theorem read_hexadecimal : ∀ n < 0x20,
    (List.replicate (4 - (hexadecimal n).length) '0' ++ hexadecimal n).length = 4 ∧
    (List.replicate (4 - (hexadecimal n).length) '0' ++ hexadecimal n).foldlM
      (fun value c => (hexValue? c).map (value * 16 + ·)) 0 = some n := by
  decide

/-- An escape with four digits is read as the character with their number. -/
private theorem scan_hexadecimal {c : Char} (hc : c.toNat < 0x20) (done : List Char)
    (found : List Token) (rest : List Char) :
    scan (.hexadecimal (.plain done) 0 0) found
        (List.replicate (4 - (hexadecimal c.toNat).length) '0' ++ hexadecimal c.toNat ++ rest) =
      scan (.quoted (.plain (c :: done))) found rest := by
  obtain ⟨hlength, hvalue⟩ := read_hexadecimal c.toNat hc
  generalize List.replicate _ '0' ++ hexadecimal c.toNat = digits at hlength hvalue
  match digits, hlength with
  | [x, y, z, w], _ =>
      have hunit : (Quoted.plain done).pushUnit c.toNat = .plain (c :: done) := by
        have hlow : ¬ (0xD800 ≤ c.toNat ∧ c.toNat < 0xDC00) := by omega
        have hhigh : ¬ (0xDC00 ≤ c.toNat ∧ c.toNat < 0xE000) := by omega
        rw [Quoted.pushUnit, if_neg hlow, if_neg hhigh, Char.ofNat_toNat]
        rfl
      simp only [List.foldlM_cons, List.foldlM_nil, Option.bind_eq_bind,
        Option.bind_eq_some_iff, Option.map_eq_some_iff, Option.pure_def,
        Option.some.injEq] at hvalue
      obtain ⟨_, ⟨a, hx, rfl⟩, _, ⟨b, hy, rfl⟩, _, ⟨d, hz, rfl⟩, _, ⟨e, hw, rfl⟩, hsum⟩ := hvalue
      rw [Nat.zero_mul, Nat.zero_add] at hsum
      simp only [List.cons_append, List.nil_append, scan, hx, hy, hz, hw, Option.bind_eq_bind,
        Option.bind_some]
      simp [hsum, hunit]

/-- A character is read again from what is written for it. -/
theorem scan_escape (c : Char) (done : List Char) (found : List Token) (rest : List Char) :
    scan (.quoted (.plain done)) found (escape c ++ rest) =
      scan (.quoted (.plain (c :: done))) found rest := by
  unfold escape
  split
  · rfl
  · rfl
  · rfl
  · rfl
  · rfl
  · rfl
  · rfl
  · next hquote hbackslash _ _ _ _ _ =>
    split
    · next hc =>
      have hscan := scan_hexadecimal hc done found rest
      simpa [scan] using hscan
    · next hc =>
      rw [List.singleton_append, scan, if_neg hquote, if_neg hbackslash, if_neg hc]
      rfl

theorem scan_quote (s : String) (found : List Token) (rest : List Char) :
    scan .between found ((quote s).toList ++ rest) =
      scan .between (.scalar (.text s) :: found) rest := by
  have hcontent : ∀ (cs done : List Char),
      scan (.quoted (.plain done)) found (cs.flatMap escape ++ '"' :: rest) =
        scan .between (.scalar (.text (String.ofList (done.reverse ++ cs))) :: found) rest := by
    intro cs
    induction cs with
    | nil =>
        intro done
        simp [scan, Quoted.scalar, Quoted.settle, Quoted.plain]
    | cons c cs ih =>
        intro done
        rw [List.flatMap_cons, List.append_assoc, scan_escape, ih]
        simp
  have hopen : (quote s).toList ++ rest = '"' :: (s.toList.flatMap escape ++ '"' :: rest) := by
    simp [quote]
  have hbegin : begin '"' = (none, .quoted (.plain [])) := rfl
  rw [hopen, scan, hbegin]
  simpa using hcontent s.toList []

/-! ## Words -/

/-- The text does not go on with a word. -/
def EndsWord (rest : List Char) : Prop := ∀ c ∈ rest.head?, endsWord c = true

/-- A word is scanned up to its end. -/
theorem scan_word {c : Char} {cs rest : List Char} {d : Data} (found : List Token)
    (hbegin : begin c = (none, .word [c])) (hcs : ∀ x ∈ cs, endsWord x = false)
    (hd : word? (c :: cs) = some d) (hrest : EndsWord rest) :
    scan .between found (c :: cs ++ rest) = scan .between (.scalar d :: found) rest := by
  have hword : ∀ (cs done : List Char), (∀ x ∈ cs, endsWord x = false) →
      word? (done.reverse ++ cs) = some d →
      scan (.word done) found (cs ++ rest) = scan .between (.scalar d :: found) rest := by
    intro cs
    induction cs with
    | nil =>
        intro done _ hd
        rw [List.append_nil] at hd
        cases rest with
        | nil => simp [scan, hd]
        | cons e rest => simp [scan, hd, hrest e rfl]
    | cons x cs ih =>
        intro done hcs hd
        obtain ⟨hx, hcs⟩ := List.forall_mem_cons.mp hcs
        rw [List.cons_append, scan, hx, if_neg Bool.false_ne_true]
        exact ih (x :: done) hcs (by simpa using hd)
  rw [List.cons_append, scan, hbegin]
  exact hword cs [c] hcs hd

/-- A digit is none of the characters that are no digits. -/
private theorem ne_of_isAsciiDigit {c e : Char} (h : isAsciiDigit c = true)
    (he : isAsciiDigit e = false) : c ≠ e := by
  rintro rfl
  simp [h] at he

theorem endsWord_of_isAsciiDigit {c : Char} (h : isAsciiDigit c = true) : endsWord c = false := by
  simp only [endsWord, isSpace, Bool.or_eq_false_iff, decide_eq_false_iff_not]
  and_intros <;> exact ne_of_isAsciiDigit h rfl

theorem begin_of_isAsciiDigit {c : Char} (h : isAsciiDigit c = true) :
    begin c = (none, .word [c]) := by
  have hspace : isSpace c = false := by
    simp only [isSpace, Bool.or_eq_false_iff, decide_eq_false_iff_not]
    and_intros <;> exact ne_of_isAsciiDigit h rfl
  unfold begin
  rw [hspace, if_neg Bool.false_ne_true]
  split
  all_goals first
    | rfl
    | simp [isAsciiDigit] at h

theorem digits?_of_all {ds : List Char} (hne : ds ≠ []) (h : ∀ c ∈ ds, isAsciiDigit c = true) :
    digits? ds = some (ds, []) := by
  have hspan : spanDigits (ds ++ []) = (ds, []) := spanDigits_of_all h (by simp)
  rw [List.append_nil] at hspan
  simp [digits?, hspan, hne]

/-- The digits of a number are read as that number, with or without a minus sign. -/
private theorem number?_numeral (negative : Bool) {n : Nat}
    (hlimit : n < if negative then Number.wordSize64 / 2 + 1 else Number.wordSize64)
    (hzero : ¬ (negative = true ∧ n = 0)) :
    number? ((if negative then ['-'] else []) ++ numeral n) =
      some (.integer (if negative then -(n : Int) else n)) := by
  have hdigits : digits? (numeral n) = some (numeral n, []) :=
    digits?_of_all (numeral_ne_nil n) fun c hc => isAsciiDigit_of_mem_numeral hc
  have hlead : ¬ (1 < (numeral n).length ∧ (numeral n).head? = some '0') := by
    rintro ⟨hlength, hhead⟩
    exact head?_numeral_of_long hlength hhead
  have hfirst : ∀ rest, numeral n ≠ '-' :: rest := by
    intro rest hrest
    have hminus : isAsciiDigit '-' = true :=
      isAsciiDigit_of_mem_numeral (hrest ▸ List.mem_cons_self)
    exact absurd hminus (by decide)
  unfold number?
  cases negative with
  | true => simp_all [numeralValue_numeral]
  | false => simp_all [numeralValue_numeral]

/-- An integer of 64 bits is read again from its digits. -/
theorem number?_signedDecimal {i : Int}
    (h : Number.signedLeast64 ≤ i ∧ i ≤ Number.signedGreatest64) :
    number? (signedDecimal i).toList = some (.integer i) := by
  obtain ⟨negative, n, rfl, hzero, hchars⟩ := signedDecimal_cases i
  have hleast : Number.signedLeast64 = -9223372036854775808 := rfl
  have hgreatest : Number.signedGreatest64 = 9223372036854775807 := rfl
  have hsize : Number.wordSize64 = 18446744073709551616 := rfl
  rw [hchars]
  refine number?_numeral negative ?_ fun hboth => hzero hboth.1 hboth.2
  cases negative with
  | true =>
      simp only [if_true] at h ⊢
      omega
  | false =>
      simp only [Bool.false_eq_true, if_false] at h ⊢
      omega

/-- An integer of 64 bits is scanned from its digits. -/
theorem scan_signedDecimal {i : Int}
    (h : Number.signedLeast64 ≤ i ∧ i ≤ Number.signedGreatest64) (found : List Token)
    {rest : List Char} (hrest : EndsWord rest) :
    scan .between found ((signedDecimal i).toList ++ rest) =
      scan .between (.scalar (.integer i) :: found) rest := by
  obtain ⟨c, cs, hchars, hc, hcs⟩ := signedDecimal_eq_cons i
  have hbegin : begin c = (none, .word [c]) := by
    rcases hc with hc | rfl
    · exact begin_of_isAsciiDigit hc
    · rfl
  have hword : word? (c :: cs) = some (.integer i) := by
    -- Null and the truth values begin with letters, so the word is none of them.
    have hname : ∀ e, isAsciiDigit e = false → e ≠ '-' → ∀ es, c :: cs ≠ e :: es := by
      rintro e he hminus es heq
      obtain ⟨rfl, -⟩ := List.cons_eq_cons.mp heq
      rcases hc with hc | rfl
      · simp [he] at hc
      · exact hminus rfl
    have hnames : ∀ name : String, ∀ e es, name.toList = e :: es → isAsciiDigit e = false →
        e ≠ '-' → String.ofList (c :: cs) ≠ name := by
      rintro name e es hlist he hminus rfl
      exact hname e he hminus es (by simpa using hlist)
    unfold word?
    split
    · next h => exact absurd h (hnames _ 'n' _ rfl rfl (by decide))
    · next h => exact absurd h (hnames _ 't' _ rfl rfl (by decide))
    · next h => exact absurd h (hnames _ 'f' _ rfl rfl (by decide))
    · rw [← hchars]
      exact number?_signedDecimal h
  rw [hchars]
  exact scan_word found hbegin (fun x hx => endsWord_of_isAsciiDigit (hcs x hx)) hword hrest

/-! ## Trees -/

/-- What is written of a tree is scanned to its tokens. -/
def Scans (d : Data) : Prop := ∀ (found : List Token) (rest : List Char), EndsWord rest →
  scan .between found ((write d).toList ++ rest) = scan .between ((tokens d).reverse ++ found) rest

theorem scan_comma (found : List Token) (rest : List Char) :
    scan .between found (',' :: rest) = scan .between (.comma :: found) rest := rfl

theorem scan_items {ds : List Data} (h : ∀ d ∈ ds, Scans d) (found : List Token)
    {rest : List Char} (hrest : EndsWord rest) :
    scan .between found ((join "," (writeItems ds)).toList ++ rest) =
      scan .between ((itemTokens ds).reverse ++ found) rest := by
  induction ds generalizing found with
  | nil => rfl
  | cons d ds ih =>
      obtain ⟨hd, hds⟩ := List.forall_mem_cons.mp h
      cases ds with
      | nil => exact hd found rest hrest
      | cons e ds =>
          have hlist : (join "," (writeItems (d :: e :: ds))).toList ++ rest =
              (write d).toList ++ ',' :: ((join "," (writeItems (e :: ds))).toList ++ rest) := by
            simp [writeItems, join]
          rw [hlist, hd found _ (by simp [EndsWord, endsWord]), scan_comma, ih hds]
          simp [itemTokens]

theorem scan_fields {fs : List (String × Data)} (h : ∀ f ∈ fs, Scans f.2) (found : List Token)
    {rest : List Char} (hrest : EndsWord rest) :
    scan .between found ((join "," (writeFields fs)).toList ++ rest) =
      scan .between ((fieldTokens fs).reverse ++ found) rest := by
  induction fs generalizing found with
  | nil => rfl
  | cons f fs ih =>
      obtain ⟨name, d⟩ := f
      obtain ⟨hd, hfs⟩ := List.forall_mem_cons.mp h
      have hfield : ∀ rest, EndsWord rest →
          scan .between found ((quote name ++ ":" ++ write d).toList ++ rest) =
            scan .between ((tokens d).reverse ++ .colon :: .scalar (.text name) :: found) rest := by
        intro rest hrest
        have hlist : (quote name ++ ":" ++ write d).toList ++ rest =
            (quote name).toList ++ ':' :: ((write d).toList ++ rest) := by
          simp
        rw [hlist, scan_quote]
        exact hd _ rest hrest
      cases fs with
      | nil =>
          refine (hfield rest hrest).trans ?_
          simp [fieldTokens]
      | cons g fs =>
          have hlist : (join "," (writeFields ((name, d) :: g :: fs))).toList ++ rest =
              (quote name ++ ":" ++ write d).toList ++
                ',' :: ((join "," (writeFields (g :: fs))).toList ++ rest) := by
            simp [writeFields, join]
          rw [hlist, hfield _ (by simp [EndsWord, endsWord]), scan_comma, ih hfs]
          simp [fieldTokens]

theorem scan_write {d : Data} (h : d.Whole) : Scans d := by
  induction h with
  | null =>
      have hword : ∀ c ∈ ['u', 'l', 'l'], endsWord c = false := by simp [endsWord, isSpace]
      exact fun found rest => scan_word found rfl hword rfl
  | bool b =>
      cases b with
      | true =>
          have hword : ∀ c ∈ ['r', 'u', 'e'], endsWord c = false := by simp [endsWord, isSpace]
          exact fun found rest => scan_word found rfl hword rfl
      | false =>
          have hword : ∀ c ∈ ['a', 'l', 's', 'e'], endsWord c = false := by
            simp [endsWord, isSpace]
          exact fun found rest => scan_word found rfl hword rfl
  | integer h => exact fun found rest => scan_signedDecimal h found
  | text s => exact fun found rest _ => scan_quote s found rest
  | @list ds h ih =>
      intro found rest hrest
      have hlist : (write (.list ds)).toList ++ rest =
          '[' :: ((join "," (writeItems ds)).toList ++ ']' :: rest) := by
        simp [write]
      have hopen : ∀ rest, scan .between found ('[' :: rest) =
          scan .between (.openList :: found) rest := fun _ => rfl
      have hclose : ∀ found, scan .between found (']' :: rest) =
          scan .between (.closeList :: found) rest := fun _ => rfl
      rw [hlist, hopen, scan_items ih _ (by simp [EndsWord, endsWord]), hclose]
      simp [tokens]
  | @record fs h ih =>
      intro found rest hrest
      have hlist : (write (.record fs)).toList ++ rest =
          '\x7b' :: ((join "," (writeFields fs)).toList ++ '\x7d' :: rest) := by
        simp [write]
      have hopen : ∀ rest, scan .between found ('\x7b' :: rest) =
          scan .between (.openRecord :: found) rest := fun _ => rfl
      have hclose : ∀ found, scan .between found ('\x7d' :: rest) =
          scan .between (.closeRecord :: found) rest := fun _ => rfl
      rw [hlist, hopen, scan_fields ih _ (by simp [EndsWord, endsWord]), hclose]
      simp [tokens]

/-! ## From tokens to trees -/

namespace Builder

/-- From the tokens of the tree the tree is put together, wherever a value may stand. -/
def Completes (d : Data) : Prop := ∀ (b : Builder) (stack : List Frame),
  (∀ t, t ≠ .closeList → b.next? t = open? stack t) →
    (tokens d).foldlM next? b = some (complete d stack)

theorem completes_items {ds : List Data} (h : ∀ d ∈ ds, Completes d) (hne : ds ≠ [])
    {b : Builder} {done : List Data} {stack : List Frame}
    (hb : ∀ t, t ≠ .closeList → b.next? t = open? (.items done :: stack) t) :
    (itemTokens ds).foldlM next? b = some (.separator (.items (ds.reverse ++ done)) stack) := by
  induction ds generalizing b done with
  | nil => exact absurd rfl hne
  | cons d ds ih =>
      obtain ⟨hd, hds⟩ := List.forall_mem_cons.mp h
      cases ds with
      | nil => exact hd b _ hb
      | cons e ds =>
          have hnext : (itemTokens (e :: ds)).foldlM next? (.value (.items (d :: done) :: stack)) =
              some (.separator (.items ((e :: ds).reverse ++ d :: done)) stack) :=
            ih hds (by simp) fun t _ => rfl
          rw [itemTokens, List.foldlM_append, hd b _ hb]
          refine hnext.trans ?_
          simp

theorem completes_fields {fs : List (String × Data)} (h : ∀ f ∈ fs, Completes f.2) (hne : fs ≠ [])
    {b : Builder} {done : List (String × Data)} {stack : List Frame}
    (hb : ∀ name, b.next? (.scalar (.text name)) = some (.colon done name stack)) :
    ∃ name, (fieldTokens fs).foldlM next? b =
      some (.separator (.fields (fs.reverse ++ done) name) stack) := by
  induction fs generalizing b done with
  | nil => exact absurd rfl hne
  | cons f fs ih =>
      obtain ⟨name, d⟩ := f
      obtain ⟨hd, hfs⟩ := List.forall_mem_cons.mp h
      have hvalue : (tokens d).foldlM next? (.value (.fields done name :: stack)) =
          some (.separator (.fields ((name, d) :: done) name) stack) :=
        hd _ (.fields done name :: stack) fun t _ => rfl
      have hname : ∀ ts, (.scalar (.text name) :: .colon :: ts).foldlM next? b =
          ts.foldlM next? (.value (.fields done name :: stack)) := by
        intro ts
        rw [List.foldlM_cons, hb]
        rfl
      cases fs with
      | nil => exact ⟨name, (hname _).trans hvalue⟩
      | cons g fs =>
          obtain ⟨last, hnext⟩ :
              ∃ last, (fieldTokens (g :: fs)).foldlM next? (.fieldName ((name, d) :: done) stack) =
                some (.separator (.fields ((g :: fs).reverse ++ (name, d) :: done) last) stack) :=
            ih hfs (by simp) fun t => rfl
          refine ⟨last, ?_⟩
          rw [fieldTokens, hname, List.foldlM_append, hvalue]
          refine hnext.trans ?_
          simp

theorem completes {d : Data} (h : d.Whole) : Completes d := by
  induction h with
  | null => exact fun b stack hb => by simp [tokens, hb, open?]
  | bool => exact fun b stack hb => by simp [tokens, hb, open?]
  | integer => exact fun b stack hb => by simp [tokens, hb, open?]
  | text => exact fun b stack hb => by simp [tokens, hb, open?]
  | @list ds h ih =>
      intro b stack hb
      rw [tokens, List.foldlM_cons, hb .openList (by simp)]
      cases ds with
      | nil => rfl
      | cons d ds =>
          have hitems : (itemTokens (d :: ds)).foldlM next? (.firstItem stack) =
              some (.separator (.items ((d :: ds).reverse ++ [])) stack) :=
            completes_items ih (by simp) fun t ht => by
              cases t <;> first | rfl | exact absurd rfl ht
          have hclose : next? (.separator (.items ((d :: ds).reverse ++ [])) stack) .closeList =
              some (complete (.list (d :: ds)) stack) := by
            simp [next?]
          change List.foldlM next? (.firstItem stack) _ = _
          rw [List.foldlM_append, hitems]
          simpa using hclose
  | @record fs h ih =>
      intro b stack hb
      rw [tokens, List.foldlM_cons, hb .openRecord (by simp)]
      cases fs with
      | nil => rfl
      | cons f fs =>
          obtain ⟨name, hfields⟩ : ∃ name,
              (fieldTokens (f :: fs)).foldlM next? (.firstField stack) =
                some (.separator (.fields ((f :: fs).reverse ++ []) name) stack) :=
            completes_fields ih (by simp) fun t => rfl
          have hclose : next? (.separator (.fields ((f :: fs).reverse ++ []) name) stack)
              .closeRecord = some (complete (.record (f :: fs)) stack) := by
            simp [next?]
          change List.foldlM next? (.firstField stack) _ = _
          rw [List.foldlM_append, hfields]
          simpa using hclose

end Builder

/-- A tree is read again from what is written of it. -/
theorem read?_write {d : Data} (h : d.Whole) : read? (write d).toList = some d := by
  have hscan : tokens? (write d).toList = some (tokens d) := by
    have hscans := scan_write h [] [] (by simp [EndsWord])
    simpa [tokens?, scan] using hscans
  have hbuild : (tokens d).foldlM Builder.next? (.value []) = some (.done d) :=
    Builder.completes h _ [] fun t _ => rfl
  rw [read?, hscan]
  simp [hbuild]

end Json

/-- The bytes of a text are read as that text. -/
theorem fromUTF8?_toUTF8 (text : String) : String.fromUTF8? text.toUTF8 = some text :=
  dif_pos text.isValidUTF8

end TeamDigest
