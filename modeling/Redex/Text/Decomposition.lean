import Redex.Text.Canonical
import Redex.Text.CombiningClass

/-!
# Composites and their parts

A composite can be taken apart into the characters it is canonically equivalent to, and two
characters may have a composite. Hangul syllables are composites by arithmetic: a leading consonant,
a vowel and possibly a trailing consonant.
-/

set_option autoImplicit false

namespace Redex.Text

/-! ## Hangul syllables -/

/-- The first Hangul syllable. -/
def hangulBase : Nat := 0xAC00

/-- The first leading consonant. -/
def leadBase : Nat := 0x1100

/-- The first vowel. -/
def vowelBase : Nat := 0x1161

/-- The code point before the first trailing consonant. -/
def tailBase : Nat := 0x11A7

/-- The parts of a Hangul syllable: leading consonant, vowel and, if there is one, trailing
consonant. -/
def hangulParts? (code : Nat) : Option (List Nat) :=
  if hangulBase ≤ code && code < hangulBase + 19 * 21 * 28 then
    let index := code - hangulBase
    let lead := leadBase + index / (21 * 28)
    let vowel := vowelBase + index % (21 * 28) / 28
    if index % 28 = 0 then some [lead, vowel] else some [lead, vowel, tailBase + index % 28]
  else none

/-- The Hangul syllable of a leading consonant and a vowel, or of an open syllable and a trailing
consonant. -/
def hangulWhole? (first second : Nat) : Option Nat :=
  if leadBase ≤ first && first < leadBase + 19 && vowelBase ≤ second && second < vowelBase + 21 then
    some (hangulBase + ((first - leadBase) * 21 + (second - vowelBase)) * 28)
  else if hangulBase ≤ first && first < hangulBase + 19 * 21 * 28 &&
      (first - hangulBase) % 28 = 0 && tailBase < second && second < tailBase + 28 then
    some (first + (second - tailBase))
  else none

/-- Whether a character is a part of Hangul syllables. -/
def isHangulPart (c : Char) : Bool := leadBase ≤ c.toNat && c.toNat < leadBase + 0x100

/-! ## Other composites -/

/-- The composites nest at most three deep. -/
def compositeDepth : Nat := 3

/-- The code points a code point is canonically made of, down to the given depth. -/
def partsTo : Nat → Nat → List Nat
  | 0, code => [code]
  | depth + 1, code =>
    match composites.find? (·.1 = code) with
    | some (_, first, second) => partsTo depth first ++ [second]
    | none =>
      match replacements.lookup code, unifiedIdeograph? code with
      | some parts, _ => parts
      | none, some unified => [unified]
      | none, none => [code]

/-- The full canonical decomposition of a character. -/
def decompose (c : Char) : List Char :=
  if c.toNat < 0xC0 then [c]
  else ((hangulParts? c.toNat).getD (partsTo compositeDepth c.toNat)).map Char.ofNat

/-- The composite of two characters, if they have one. Pairs are told apart by the lower sixteen
bits of their code points. -/
def join? (first second : Char) : Option Char :=
  let low := fun (code : Nat) => code % 0x10000
  (composites.find? fun row =>
    low row.2.2 = low second.toNat && low row.2.1 = low first.toNat).map
      fun row => Char.ofNat row.1

/-- Whether a character has to be taken apart, because it is no part of any normal form. -/
def isReplaced (c : Char) : Bool :=
  0x300 ≤ c.toNat &&
    ((replacements.lookup c.toNat).isSome || (unifiedIdeograph? c.toNat).isSome)

end Redex.Text
