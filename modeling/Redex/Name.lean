import Redex.Numeral
import Redex.Term.Basic
import Redex.Term.Occurrence

/-!
# Names

A name is the spelling of an identifier, and two names are the same variable when they are spelled
alike. New names are made from old ones by counting up the decimal number at the end of the name:
`x`, `x1`, `x2` and so on. The number is a signed 64-bit word, so the count wraps once; a number
that does not fit is left alone and a digit is put behind it.
-/

set_option autoImplicit false

namespace Redex

/-- The spelling of an identifier. -/
abbrev Name := String

instance : Identifier Name Name where
  key name := name
  label name := name

namespace Name

/-- A name without the ASCII digits at its end, and those digits. -/
def splitDigits (name : Name) : List Char × List Char :=
  let backwards := name.toList.reverse
  ((backwards.dropWhile Char.isDigit).reverse, (backwards.takeWhile Char.isDigit).reverse)

/-- The number written by decimal digits. -/
def digitsValue (digits : List Char) : Nat :=
  digits.foldl (fun value digit => 10 * value + (digit.toNat - '0'.toNat)) 0

/-- The name after a name: its number counted up by one, or a first number put behind it when it
has none or one of more than 63 bits. -/
def fresh (name : Name) : Name :=
  let (stem, digits) := name.splitDigits
  let value := digitsValue digits
  if digits.isEmpty || Numeral.signedBound ≤ value then name ++ "1"
  else String.ofList stem ++ toString (Int64.ofNat value + 1).toInt

/-- The names other than the given one. -/
def without (names : List Name) (name : Name) : List Name := names.filter (· ≠ name)

theorem length_without_lt {names : List Name} {name : Name} (member : name ∈ names) :
    (without names name).length < names.length :=
  List.length_filter_lt_length_iff_exists.2 ⟨name, member, by simp⟩

/-- The first of the names `name`, `name.fresh`, … that is not among the taken ones. A name found
taken is not looked for again, since counting up never comes back to it. -/
def freshOutside (taken : List Name) (name : Name) : Name :=
  if _member : name ∈ taken then freshOutside (without taken name) name.fresh else name
termination_by taken.length
decreasing_by exact length_without_lt _member

/-- Names in the order of their code points. -/
def sorted (names : List Name) : List Name := names.mergeSort fun a b => !decide (b < a)

end Name

/-- The free names of a term, sorted. -/
def Term.freeNames (t : Term Name) : List Name := Name.sorted t.free

end Redex
