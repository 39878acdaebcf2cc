/-!
# Ignoring case

Text is compared with fixed ASCII words without regard to case.  Only the
letters `A` to `Z` and the Kelvin sign have a lower-case form in ASCII, so all
other characters can stay as they are.
-/

namespace TeamDigest.Text

/-- The lower-case form of a character, if that is in ASCII, or the character
itself. -/
def foldChar (c : Char) : Char :=
  if c = '\u212A' then 'k' else c.toLower

/-- The text with every character folded. -/
def fold (cs : List Char) : List Char := cs.map foldChar

end TeamDigest.Text
