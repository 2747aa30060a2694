import Redex.Text.Interval

/-!
# Blank characters

A blank is a character with the property White_Space: space and the five ASCII controls from
tab to carriage return, and the spaces and separators of the other blocks. Format characters
of no width are not blank.
-/

set_option autoImplicit false

namespace Redex.Text

/-- The blanks above ASCII, in increasing order. -/
def wideBlanks : Intervals := [
  (0x0085, 0x0085), (0x00A0, 0x00A0), (0x1680, 0x1680), (0x2000, 0x200A), (0x2028, 0x2029),
  (0x202F, 0x202F), (0x205F, 0x205F), (0x3000, 0x3000)]

/-- Whether a character is blank. -/
def isBlank (c : Char) : Bool :=
  if c.toNat < 0x80 then c == ' ' || (0x09 ≤ c.toNat && c.toNat ≤ 0x0D) else wideBlanks.holds c

end Redex.Text
