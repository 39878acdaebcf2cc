/-!
# Decimal numerals

Natural numbers and integers as decimal text, with and without a fixed width,
and the value of a run of ASCII digits.
-/

namespace TeamDigest.Text

/-- The decimal digits of `n`, without leading zeros. -/
def numeral (n : Nat) : List Char :=
  Nat.toDigits 10 n

/-- The decimal text of `n`. -/
def decimal (n : Nat) : String :=
  String.ofList (numeral n)

/-- The decimal text of an integer; negative ones carry a minus sign. -/
def signedDecimal (i : Int) : String :=
  match i with
  | .ofNat n => decimal n
  | .negSucc n => "-" ++ decimal (n + 1)

/-- The digits of `n`, filled with zeros on the left up to `width`. -/
def padded (width n : Nat) : List Char :=
  let ds := numeral n
  List.replicate (width - ds.length) '0' ++ ds

/-- Holds of the ten ASCII digits. -/
def isAsciiDigit (c : Char) : Bool :=
  '0' ≤ c && c ≤ '9'

/-- The value of one ASCII digit. -/
def digitValue (c : Char) : Nat :=
  c.toNat - '0'.toNat

/-- The value of a run of ASCII digits, read from the left. -/
def numeralValue (ds : List Char) : Nat :=
  Nat.ofDigitChars 10 ds 0

/-- Splits off the longest run of ASCII digits at the start. -/
def spanDigits (cs : List Char) : List Char × List Char :=
  (cs.takeWhile isAsciiDigit, cs.dropWhile isAsciiDigit)

/-- The decimal digits of a number have that number as their value. -/
theorem numeralValue_numeral (n : Nat) : numeralValue (numeral n) = n :=
  Nat.ofDigitChars_toDigits (by decide) (by decide)

theorem numeral_ne_nil (n : Nat) : numeral n ≠ [] :=
  Nat.toDigits_ne_nil

theorem isAsciiDigit_of_mem_numeral {n : Nat} {c : Char} (h : c ∈ numeral n) :
    isAsciiDigit c = true := by
  have hdigit : c.isDigit = true := Nat.isDigit_of_mem_toDigits (by decide) (by decide) h
  simpa [Char.isDigit, isAsciiDigit, Char.le_def] using hdigit

theorem numeralValue_padded (width n : Nat) : numeralValue (padded width n) = n := by
  have hzeros : ∀ count, Nat.ofDigitChars 10 (List.replicate count '0') 0 = 0 := by
    intro count
    induction count with
    | zero => rfl
    | succ count ih => rw [List.replicate_succ, Nat.ofDigitChars_cons]; exact ih
  rw [padded, numeralValue, Nat.ofDigitChars_append, hzeros]
  exact numeralValue_numeral n

theorem length_padded {width n : Nat} (h : (numeral n).length ≤ width) :
    (padded width n).length = width := by
  rw [padded, List.length_append, List.length_replicate]
  omega

theorem padded_injective {width m n : Nat} (h : padded width m = padded width n) : m = n := by
  rw [← numeralValue_padded width m, ← numeralValue_padded width n, h]

theorem isAsciiDigit_of_mem_padded {width n : Nat} {c : Char} (h : c ∈ padded width n) :
    isAsciiDigit c = true := by
  rcases List.mem_append.1 h with hzero | hdigit
  · rw [List.eq_of_mem_replicate hzero]
    rfl
  · exact isAsciiDigit_of_mem_numeral hdigit

/-- No numeral but that of zero begins with a zero. -/
theorem head?_numeral {n : Nat} (h : n ≠ 0) : (numeral n).head? ≠ some '0' := by
  induction n using Nat.strongRecOn with
  | ind n ih =>
    by_cases hsmall : n < 10
    · simpa [numeral, Nat.toDigits_of_lt_base hsmall] using h
    · have hhead : (numeral n).head? = (numeral (n / 10)).head? := by
        rw [numeral, Nat.toDigits_of_base_le (by decide) (by omega)]
        exact (List.head?_append ..).trans (Option.or_of_isSome (by simp [Nat.toDigits_ne_nil]))
      rw [hhead]
      exact ih (n / 10) (by omega) (by omega)

theorem head?_numeral_of_long {n : Nat} (h : 1 < (numeral n).length) :
    (numeral n).head? ≠ some '0' := by
  by_cases hn : n = 0
  · subst hn
    exact absurd h (by decide)
  · exact head?_numeral hn

/-- An integer is written with a minus sign where it is negative, and the digits of its
magnitude. -/
theorem signedDecimal_cases (i : Int) :
    ∃ (negative : Bool) (n : Nat), i = (if negative then -(n : Int) else n) ∧
      (negative = true → n ≠ 0) ∧
      (signedDecimal i).toList = (if negative then ['-'] else []) ++ numeral n := by
  cases i with
  | ofNat n => exact ⟨false, n, rfl, nofun, by simp [signedDecimal, decimal]⟩
  | negSucc n =>
    exact ⟨true, n + 1, by simp [Int.negSucc_eq], fun _ => by simp,
      by simp [signedDecimal, decimal]⟩

/-- After the first character of an integer there are digits only. -/
theorem signedDecimal_eq_cons (i : Int) : ∃ c cs, (signedDecimal i).toList = c :: cs ∧
    (isAsciiDigit c = true ∨ c = '-') ∧ ∀ x ∈ cs, isAsciiDigit x = true := by
  obtain ⟨negative, n, -, -, hchars⟩ := signedDecimal_cases i
  have hdigits : ∀ x ∈ numeral n, isAsciiDigit x = true := fun x => isAsciiDigit_of_mem_numeral
  rw [hchars]
  cases negative with
  | true => exact ⟨'-', numeral n, rfl, .inr rfl, hdigits⟩
  | false =>
    obtain ⟨c, cs, hnumeral⟩ := List.exists_cons_of_ne_nil (numeral_ne_nil n)
    rw [hnumeral] at hdigits ⊢
    obtain ⟨hc, hcs⟩ := List.forall_mem_cons.mp hdigits
    exact ⟨c, cs, rfl, .inl hc, hcs⟩

/-- Characters of a kind that stand before one of another kind are split off. -/
theorem span_of_all {p : Char → Bool} {cs rest : List Char} (hcs : ∀ c ∈ cs, p c = true)
    (hrest : ∀ c ∈ rest.head?, p c = false) :
    (cs ++ rest).takeWhile p = cs ∧ (cs ++ rest).dropWhile p = rest := by
  rw [List.takeWhile_append_of_pos hcs, List.dropWhile_append_of_pos hcs]
  cases rest with
  | nil => simp
  | cons c rest => simp [hrest c rfl]

theorem spanDigits_of_all {ds rest : List Char} (hds : ∀ c ∈ ds, isAsciiDigit c = true)
    (hrest : ∀ c ∈ rest.head?, isAsciiDigit c = false) : spanDigits (ds ++ rest) = (ds, rest) :=
  Prod.ext (span_of_all hds hrest).1 (span_of_all hds hrest).2

theorem spanDigits_append (cs : List Char) :
    (spanDigits cs).1 ++ (spanDigits cs).2 = cs :=
  List.takeWhile_append_dropWhile

/-- Reads a whole natural number: one or more ASCII digits after an optional
plus sign. -/
def natural? (cs : List Char) : Option Nat :=
  let ds := match cs with
    | '+' :: rest => rest
    | _ => cs
  if ds.isEmpty then none
  else if ds.all isAsciiDigit then some (numeralValue ds)
  else none

/-- Reads a whole integer: an optional sign and one or more ASCII digits. -/
def integer? (cs : List Char) : Option Int :=
  match cs with
  | '-' :: rest =>
    if rest.isEmpty then none
    else if rest.all isAsciiDigit then some (-(numeralValue rest : Int))
    else none
  | _ => (natural? cs).map Int.ofNat

/-- The lower-case hexadecimal digits of `n`, without leading zeros. -/
def hexadecimal (n : Nat) : List Char :=
  Nat.toDigits 16 n

/-- The value of one hexadecimal digit of either case. -/
def hexValue? (c : Char) : Option Nat :=
  if isAsciiDigit c then some (digitValue c)
  else if 'a' ≤ c && c ≤ 'f' then some (c.toNat - 'a'.toNat + 10)
  else if 'A' ≤ c && c ≤ 'F' then some (c.toNat - 'A'.toNat + 10)
  else none

end TeamDigest.Text
