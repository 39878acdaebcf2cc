/-!
# SipHash-1-3

The keyed hash function with one mixing round for each word of the message and
three at the end, here with both halves of the key zero.
-/

namespace TeamDigest.Hash

/-- The four words on which the rounds work. -/
structure SipState where
  v0 : UInt64
  v1 : UInt64
  v2 : UInt64
  v3 : UInt64

namespace SipState

/-- The state before the first word, for the key zero. -/
def initial : SipState :=
  ⟨0x736f6d6570736575, 0x646f72616e646f6d, 0x6c7967656e657261, 0x7465646279746573⟩

/-- Moves the bits of a word to the left; those that leave it come in again on
the right. -/
def rotate (x : UInt64) (bits : UInt64) : UInt64 :=
  (x <<< bits) ||| (x >>> (64 - bits))

/-- One mixing round. -/
def round (s : SipState) : SipState :=
  let v0 := s.v0 + s.v1
  let v1 := rotate s.v1 13 ^^^ v0
  let v0 := rotate v0 32
  let v2 := s.v2 + s.v3
  let v3 := rotate s.v3 16 ^^^ v2
  let v0 := v0 + v3
  let v3 := rotate v3 21 ^^^ v0
  let v2 := v2 + v1
  let v1 := rotate v1 17 ^^^ v2
  let v2 := rotate v2 32
  ⟨v0, v1, v2, v3⟩

/-- Takes in one word of the message. -/
def absorb (s : SipState) (word : UInt64) : SipState :=
  let s := round { s with v3 := s.v3 ^^^ word }
  { s with v0 := s.v0 ^^^ word }

/-- The hash value once the whole message has been taken in. -/
def finish (s : SipState) : UInt64 :=
  let s := round (round (round { s with v2 := s.v2 ^^^ 0xff }))
  s.v0 ^^^ s.v1 ^^^ s.v2 ^^^ s.v3

end SipState

/-- The word whose bytes are given, least significant first. -/
def littleEndian : List UInt8 → UInt64
  | [] => 0
  | b :: bs => b.toUInt64 ||| (littleEndian bs <<< 8)

/-- Takes in the whole words of a message and then what is left of it, with the
length of the message, `length`, in the top byte. -/
def absorbAll (length : Nat) : SipState → List UInt8 → SipState
  | s, b₀ :: b₁ :: b₂ :: b₃ :: b₄ :: b₅ :: b₆ :: b₇ :: rest =>
    absorbAll length (s.absorb (littleEndian [b₀, b₁, b₂, b₃, b₄, b₅, b₆, b₇])) rest
  | s, rest => s.absorb (littleEndian rest ||| (UInt64.ofNat (length % 256) <<< 56))

/-- The hash value of a message. -/
def sip (message : List UInt8) : UInt64 :=
  (absorbAll message.length .initial message).finish

end TeamDigest.Hash
