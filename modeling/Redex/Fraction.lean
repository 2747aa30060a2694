/-!
# Decimal fractions

Numbers written with a decimal point or an exponent. They are held with 53 significant bits: of the
numbers that can be held the nearest one is taken, and of two equally near ones the one whose last
bit is zero. What does not stay below the 1024th power of two is out of range.

Only the integer part of a fraction is asked for here, so the bits behind it matter for rounding
alone.
-/

set_option autoImplicit false

namespace Redex

/-- A decimal fraction: its sign, its digits as one number, and the power of ten they count. -/
structure Fraction where
  negative : Bool
  digits : Nat
  scale : Int
deriving DecidableEq, Repr

namespace Fraction

/-! ## Reading -/

/-- The decimal digits at the front of a text, and what follows. -/
def splitDigits (text : List Char) : List Char × List Char :=
  (text.takeWhile Char.isDigit, text.dropWhile Char.isDigit)

/-- The number written by decimal digits. -/
def ofDigits (digits : List Char) : Nat :=
  digits.foldl (fun value digit => 10 * value + (digit.toNat - '0'.toNat)) 0

/-- A text without the sign at its front, and whether that is a minus. -/
def splitSign : List Char → Bool × List Char
  | '-' :: rest => (true, rest)
  | '+' :: rest => (false, rest)
  | rest => (false, rest)

/-- An exponent is read up to its first five digits, the rest makes no difference. -/
def longestExponent : Nat := 5

/-- The exponent that makes up a text, which may be left out. -/
def exponent? : List Char → Option Int
  | [] => some 0
  | mark :: rest =>
    let (negative, rest) := splitSign rest
    let (digits, after) := splitDigits rest
    if (mark = 'e' || mark = 'E') && !digits.isEmpty && after.isEmpty then
      let size := ofDigits ((digits.dropWhile (· = '0')).take longestExponent)
      some (if negative then -(size : Int) else size)
    else none

/-- Whether every underscore of a text stands between two digits; `digit` tells whether the
character before the text is one. -/
def separated (digit : Bool) : List Char → Bool
  | [] => true
  | ['_'] => false
  | '_' :: c :: rest => digit && c.isDigit && separated true rest
  | c :: rest => separated c.isDigit rest

/-- The fraction a text stands for: an optional sign, digits with at most one point among them, and
an optional exponent. -/
def parse? (text : List Char) : Option Fraction := do
  let (negative, rest) := splitSign text
  let (whole, rest) := splitDigits rest
  let (part, rest) := match rest with
    | '.' :: rest => splitDigits rest
    | rest => ([], rest)
  if whole.isEmpty && part.isEmpty then none
  else return ⟨negative, ofDigits (whole ++ part), (← exponent? rest) - part.length⟩

/-! ## Rounding -/

/-- The quotient of two numbers rounded to the nearest one, and to the even one of two. -/
def nearest (number divisor : Nat) : Nat :=
  let quotient := number / divisor
  let twice := 2 * (number % divisor)
  if divisor < twice || (twice = divisor && quotient % 2 = 1) then quotient + 1 else quotient

/-- The integer part of a quotient that is held with 53 significant bits. -/
def heldPart (number divisor : Nat) : Nat :=
  let whole := number / divisor
  let bits := if whole = 0 then 0 else Nat.log2 whole + 1
  if bits < 53 then
    let unit := Nat.pow 2 (53 - bits)
    nearest (number * unit) divisor / unit
  else
    let unit := Nat.pow 2 (bits - 53)
    nearest number (divisor * unit) * unit

/-- The integer part of a fraction, if the fraction is in range. -/
def integerPart? (fraction : Fraction) : Option Int :=
  let size :=
    if 0 ≤ fraction.scale then heldPart (fraction.digits * Nat.pow 10 fraction.scale.toNat) 1
    else heldPart fraction.digits (Nat.pow 10 (-fraction.scale).toNat)
  if size < Nat.pow 2 1024 then some (if fraction.negative then -(size : Int) else size) else none

end Fraction

end Redex
