import Kaleidoscope.Unicode.Ranges

/-!
# White space

The property White_Space of the Unicode standard. It has 25 members, so the list is searched
for every character alike.
-/

namespace Kaleidoscope.Unicode

/-- Code points with the property White_Space, as inclusive ranges in increasing order. -/
def whiteSpaceRanges : List (Nat × Nat) := [
  (0x9, 0xD), (0x20, 0x20), (0x85, 0x85), (0xA0, 0xA0), (0x1680, 0x1680), (0x2000, 0x200A),
  (0x2028, 0x2029), (0x202F, 0x202F), (0x205F, 0x205F), (0x3000, 0x3000)]

/-- Whether a character has the property White_Space. -/
def isWhiteSpace (c : Char) : Bool :=
  inRanges whiteSpaceRanges c

end Kaleidoscope.Unicode
