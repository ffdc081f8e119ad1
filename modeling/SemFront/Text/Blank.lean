/-
White space: the characters that separate tokens and belong to none.
-/
import SemFront.Text.Ranges

namespace SemFront.Text

/-- The white space outside ASCII: next line, no-break space and the separator categories. -/
def blankRanges : Ranges := [
  (0x85, 0x85), (0xA0, 0xA0), (0x1680, 0x1680), (0x2000, 0x200A), (0x2028, 0x2029),
  (0x202F, 0x202F), (0x205F, 0x205F), (0x3000, 0x3000)
]

/-- Whether a character is white space. -/
def isBlank (c : Char) : Bool :=
  if c.toNat < 0x80 then c.toNat = 0x20 || (0x09 ≤ c.toNat && c.toNat ≤ 0x0D)
  else blankRanges.holds c.toNat

end SemFront.Text
