import TeamDigest.Number.Rounding
import TeamDigest.Text.Numeral

/-!
# Binary approximations of decimal numbers

A `Binary` is a number `significand · 2 ^ exponent` with at most 53 significant
bits, the precision of a double.  `Binary.nearest` rounds a quotient to the
nearest of them, ties to the even significand, and `Binary.shortest` gives the
fewest decimal digits that round back to the same one.
-/

namespace TeamDigest.Number

/-- A decimal number as it is written: `± digits · 10 ^ exponent`. -/
structure Decimal where
  negative : Bool
  digits : Nat
  exponent : Int
  deriving DecidableEq

/-- The magnitude of a double. -/
structure Binary where
  significand : Nat
  exponent : Int
  deriving DecidableEq

namespace Binary

/-- The number of significant bits. -/
def precision : Nat := 53

/-- The least exponent. -/
def leastExponent : Int := -1074

/-- The value of `n · 2 ^ e` as a quotient. -/
def scaled (n : Nat) (e : Int) : Nat × Nat :=
  if 0 ≤ e then (n * Nat.pow 2 e.toNat, 1) else (n, Nat.pow 2 (-e).toNat)

/-- The double nearest to `num / den`, without an upper limit. -/
def nearest (num den : Nat) : Binary :=
  if num = 0 ∨ den = 0 then ⟨0, leastExponent⟩
  else
    let guess : Int := (Nat.log2 num : Int) - Nat.log2 den
    let (a, b) := scaled den guess
    -- the greatest `lead` with `2 ^ lead ≤ num / den`
    let lead := if num * b < a then guess - 1 else guess
    let exponent := max (lead - (precision - 1)) leastExponent
    if 0 ≤ exponent then ⟨roundEven num (den * Nat.pow 2 exponent.toNat), exponent⟩
    else ⟨roundEven (num * Nat.pow 2 (-exponent).toNat) den, exponent⟩

/-- Doubles end below `2 ^ 1024`. -/
def overflows (b : Binary) : Bool :=
  b.significand != 0 && 1024 ≤ (Nat.log2 b.significand : Int) + b.exponent

/-- The whole number nearest to the value; a half goes away from zero. -/
def rounded (b : Binary) : Nat :=
  if 0 ≤ b.exponent then b.significand * Nat.pow 2 b.exponent.toNat
  else roundUp b.significand (Nat.pow 2 (-b.exponent).toNat)

end Binary

namespace Decimal

/-- The magnitude as a double; `none` when it is beyond the greatest one. -/
def toBinary? (d : Decimal) : Option Binary :=
  let size : Int := (Text.numeral d.digits).length + d.exponent
  if d.digits = 0 ∨ size < -330 then some ⟨0, Binary.leastExponent⟩
  else if 310 < size then none
  else
    let b :=
      if 0 ≤ d.exponent then Binary.nearest (d.digits * Nat.pow 10 d.exponent.toNat) 1
      else Binary.nearest d.digits (Nat.pow 10 (-d.exponent).toNat)
    if b.overflows then none else some b

end Decimal

namespace Binary

/-- The two neighbours of the value on the grid of decimals whose last digit
stands at `10 ^ place`, the nearer one first. -/
def neighbours (b : Binary) (place : Int) : List Nat :=
  let (num, den) := scaled b.significand b.exponent
  let (num, den) :=
    if 0 ≤ place then (num, den * Nat.pow 10 place.toNat)
    else (num * Nat.pow 10 (-place).toNat, den)
  let below := num / den
  if roundEven num den = below then [below, below + 1] else [below + 1, below]

/-- The place of the first digit of a value other than zero. -/
def leadingPlace (b : Binary) : Int :=
  let (num, den) := scaled b.significand b.exponent
  let whole := num / den
  if whole ≠ 0 then (Text.numeral whole).length - 1
  else
    -- `10 ^ (k - 1) ≤ den / num` puts the first digit at the place `-k` or one above
    let k : Nat := (Text.numeral (den / num)).length
    if den ≤ num * Nat.pow 10 (k - 1) then -((k : Int) - 1) else -(k : Int)

/-- The fewest decimal digits that round back to `b`, with the place of the last
of them.  Seventeen digits always do. -/
def shortest (b : Binary) : Nat × Int :=
  if b.significand = 0 then (0, 0)
  else
    let places := (List.range 17).map fun k : Nat => b.leadingPlace - k
    let candidates := places.flatMap fun place => (b.neighbours place).map (·, place)
    match candidates.find? fun (n, place) =>
        (Decimal.mk false n place).toBinary? == some b with
    | some (n, place) => if n % 10 = 0 then (n / 10, place + 1) else (n, place)
    | none => (0, 0)

end Binary

end TeamDigest.Number
