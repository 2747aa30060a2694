/-!
# Classes of characters given by intervals

A property of characters above ASCII is a list of closed intervals of code points. A character
has the property when its code point lies in one of them.
-/

set_option autoImplicit false

namespace Redex.Text

/-- Closed intervals of code points. -/
abbrev Intervals := List (Nat × Nat)

/-- Whether the code point of a character lies in one of the intervals. -/
def Intervals.holds (table : Intervals) (c : Char) : Bool :=
  table.any fun interval => interval.1 ≤ c.toNat && c.toNat ≤ interval.2

end Redex.Text
