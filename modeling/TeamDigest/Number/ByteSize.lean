import TeamDigest.Number.Binary

/-!
# Sizes in bytes

A size is written in bytes below one kilobyte, in kilobytes below one megabyte
and in megabytes from there on, with two decimal places.  The number is taken
with the precision of a double and a half goes to the even neighbour.
-/

namespace TeamDigest.Number

open Text

/-- A number of hundredths with its decimal point. -/
def hundredths (n : Nat) : String :=
  decimal (n / 100) ++ "." ++ String.ofList (padded 2 (n % 100))

/-- The text of a size. -/
def byteSize (bytes : Nat) : String :=
  if bytes < 1024 then decimal bytes ++ " B"
  else
    let b := Binary.nearest bytes 1
    let (num, den) := Binary.scaled b.significand b.exponent
    if bytes < 1024 * 1024 then hundredths (roundEven (num * 100) (den * 1024)) ++ " KB"
    else hundredths (roundEven (num * 100) (den * (1024 * 1024))) ++ " MB"

end TeamDigest.Number
