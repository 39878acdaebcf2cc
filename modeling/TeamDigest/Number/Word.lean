/-!
# Machine words

The bounds of numbers that are kept in words of 32 and of 64 bits.
-/

namespace TeamDigest.Number

/-- How many numbers a word of 32 bits can hold. -/
def wordSize32 : Nat := 4294967296

/-- How many numbers a word of 64 bits can hold. -/
def wordSize64 : Nat := 18446744073709551616

/-- The least number of a signed word of 64 bits. -/
def signedLeast64 : Int := -9223372036854775808

/-- The greatest number of a signed word of 64 bits. -/
def signedGreatest64 : Int := 9223372036854775807

end TeamDigest.Number
