import Redex.Text.Decomposition

/-!
# Characters that attach

A mark attaches to the character before it, and so does a starter that is the second part of a
composite. Text is cut where nothing attaches, and runs of attaching characters are counted. A
character counts with what it begins and ends with when it is taken apart, also into characters it
is only compatible with, so that the count is the same in every normal form.
-/

set_option autoImplicit false

namespace Redex.Text

/-- The starters that may join what precedes them: trailing parts of composites. -/
def attachingStarters : List (Nat × Nat) := [
  (0x09BE, 0x09BE), (0x09D7, 0x09D7), (0x0B3E, 0x0B3E), (0x0B56, 0x0B56), (0x0B57, 0x0B57),
  (0x0BBE, 0x0BBE), (0x0BD7, 0x0BD7), (0x0CC2, 0x0CC2), (0x0CD5, 0x0CD5), (0x0CD6, 0x0CD6),
  (0x0D3E, 0x0D3E), (0x0D57, 0x0D57), (0x0DCF, 0x0DCF), (0x0DDF, 0x0DDF), (0x102E, 0x102E),
  (0x1161, 0x1175), (0x11A8, 0x11C2), (0x1B35, 0x1B35), (0x11127, 0x11127), (0x1133E, 0x1133E),
  (0x11357, 0x11357), (0x114B0, 0x114B0), (0x114BA, 0x114BA), (0x114BD, 0x114BD),
  (0x115AF, 0x115AF), (0x11930, 0x11930)]

/-- Characters whose compatibility equivalent begins or ends with attaching characters: first and
last code point of an interval, the number at the beginning and the number at the end. -/
def compatibilityRuns : List (Nat × Nat × Nat × Nat) := [
  (0x00A8, 0x00A8, 0, 1), (0x00AF, 0x00AF, 0, 1), (0x00B4, 0x00B4, 0, 1), (0x00B8, 0x00B8, 0, 1),
  (0x01C4, 0x01C6, 0, 1), (0x02D8, 0x02DD, 0, 1), (0x037A, 0x037A, 0, 1), (0x0384, 0x0384, 0, 1),
  (0x0385, 0x0385, 0, 2), (0x0F77, 0x0F77, 0, 2), (0x0F79, 0x0F79, 0, 2), (0x1FBD, 0x1FBD, 0, 1),
  (0x1FBF, 0x1FC0, 0, 1), (0x1FC1, 0x1FC1, 0, 2), (0x1FCD, 0x1FCF, 0, 2), (0x1FDD, 0x1FDF, 0, 2),
  (0x1FED, 0x1FEE, 0, 2), (0x1FFD, 0x1FFE, 0, 1), (0x2017, 0x2017, 0, 1), (0x203E, 0x203E, 0, 1),
  (0x309B, 0x309C, 0, 1), (0x3133, 0x3133, 1, 1), (0x3135, 0x3136, 1, 1), (0x313A, 0x313F, 1, 1),
  (0x314F, 0x3163, 1, 1), (0x326E, 0x327E, 0, 1), (0x3304, 0x3304, 0, 1), (0x3307, 0x3307, 0, 1),
  (0x3310, 0x3310, 0, 1), (0x331E, 0x331E, 0, 1), (0x3321, 0x3321, 0, 1), (0x3332, 0x3332, 0, 1),
  (0x333B, 0x333B, 0, 1), (0x3340, 0x3340, 0, 1), (0x334B, 0x334B, 0, 1), (0x334E, 0x334E, 0, 1),
  (0xFBA4, 0xFBA5, 0, 1), (0xFBB0, 0xFBB1, 0, 1), (0xFC5B, 0xFC5D, 0, 1), (0xFC5E, 0xFC63, 0, 2),
  (0xFC90, 0xFC90, 0, 1), (0xFCD9, 0xFCD9, 0, 1), (0xFCF2, 0xFCF4, 0, 2), (0xFD3C, 0xFD3D, 0, 1),
  (0xFE49, 0xFE4C, 0, 1), (0xFE70, 0xFE72, 0, 1), (0xFE74, 0xFE74, 0, 1), (0xFE76, 0xFE7F, 0, 1),
  (0xFE81, 0xFE8C, 0, 1), (0xFEF5, 0xFEFA, 0, 1), (0xFF9E, 0xFF9F, 1, 1), (0xFFA3, 0xFFA3, 1, 1),
  (0xFFA5, 0xFFA6, 1, 1), (0xFFAA, 0xFFAF, 1, 1), (0xFFC2, 0xFFC7, 1, 1), (0xFFCA, 0xFFCF, 1, 1),
  (0xFFD2, 0xFFD7, 1, 1), (0xFFDA, 0xFFDC, 1, 1), (0xFFE3, 0xFFE3, 0, 1),
  (0x1F213, 0x1F213, 0, 1)]

/-- Whether a character may be the second part of a composite. -/
def joinsBack (c : Char) : Bool :=
  0x300 ≤ c.toNat &&
    (composites.any (·.2.2 = c.toNat) ||
      attachingStarters.any fun interval => interval.1 ≤ c.toNat && c.toNat ≤ interval.2)

/-- Whether a character attaches to what precedes it. -/
def attaches (c : Char) : Bool :=
  combiningClass c != 0 ||
    attachingStarters.any fun interval => interval.1 ≤ c.toNat && c.toNat ≤ interval.2

/-- How many attaching characters a character begins and ends with when it is taken apart. -/
def attachingEnds (c : Char) : Nat × Nat :=
  if c.toNat < 0xA8 then (0, 0)
  else
    match compatibilityRuns.find? fun row => row.1 ≤ c.toNat && c.toNat ≤ row.2.1 with
    | some (_, _, leading, trailing) => (leading, trailing)
    | none =>
      let parts := decompose c
      ((parts.takeWhile attaches).length, (parts.reverse.takeWhile attaches).length)

end Redex.Text
