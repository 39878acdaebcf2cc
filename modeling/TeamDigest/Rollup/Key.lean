import TeamDigest.Hash.Sip
import TeamDigest.Text.Numeral

/-!
# Keys of stored rollups

A rollup is stored under a key that is computed from the text it sums up: the
hash of the bytes of the text and of one byte 255 that ends it, in hexadecimal.
-/

namespace TeamDigest.Rollup

/-- The key of the rollup of `text`. -/
def key (text : String) : String :=
  let hash := Hash.sip (text.toUTF8.toList ++ [0xff])
  "rollup_" ++ String.ofList (Text.hexadecimal hash.toNat)

end TeamDigest.Rollup
