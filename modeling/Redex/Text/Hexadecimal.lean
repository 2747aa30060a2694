/-!
# Characters by number

A character may be written by its code point in hexadecimal digits, of either case.
-/

set_option autoImplicit false

namespace Redex.Text

/-- The value of a hexadecimal digit. -/
def hexValue? (c : Char) : Option Nat :=
  if c.isDigit then some (c.toNat - '0'.toNat)
  else if 'a' ≤ c && c ≤ 'f' then some (c.toNat - 'a'.toNat + 10)
  else if 'A' ≤ c && c ≤ 'F' then some (c.toNat - 'A'.toNat + 10)
  else none

/-- The number written by hexadecimal digits. -/
def hexNumber? (digits : List Char) : Option Nat :=
  digits.foldlM (fun value digit => (hexValue? digit).map (16 * value + ·)) 0

/-- The character of a code point, if it is one. -/
def charOf? (code : Nat) : Option Char := if code.isValidChar then some (Char.ofNat code) else none

/-- The character of a high and a low surrogate. -/
def surrogatePair? (high low : Nat) : Option Char :=
  if 0xD800 ≤ high && high < 0xDC00 && 0xDC00 ≤ low && low < 0xE000 then
    charOf? (0x10000 + (high - 0xD800) * 0x400 + (low - 0xDC00))
  else none

/-- The characters of code points in front of `chars`. The last code point comes first; a high and a
low surrogate are one character. -/
def ofCodes? (chars : List Char) : List Nat → Option (List Char)
  | [] => some chars
  | code :: before =>
    match charOf? code with
    | some char => ofCodes? (char :: chars) before
    | none =>
      match before with
      | high :: before =>
        match surrogatePair? high code with
        | some char => ofCodes? (char :: chars) before
        | none => none
      | [] => none

end Redex.Text
