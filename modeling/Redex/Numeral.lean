/-!
# Numerals

Integers as they are written on the command line and in settings: an optional sign, then digits in
base ten, or in base two, eight or sixteen behind `0b`, `0o` and `0x`, or in base eight behind a
plain zero. Underscores may separate digits. The value has to fit a signed 64-bit word.

Digits are read from left to right, so a number is found to be too large before a character behind
the digits it is too large with is looked at.
-/

set_option autoImplicit false

namespace Redex.Numeral

/-- The causes for which a text is not a number. -/
inductive Error where
  | invalid
  | outOfRange
deriving DecidableEq, Repr

/-- The wording of an error. -/
def Error.message : Error → String
  | invalid => "invalid syntax"
  | outOfRange => "value out of range"

/-- The bound of unsigned 64-bit words, the 64th power of two. -/
def unsignedBound : Nat := 0x10000000000000000

/-- The bound of signed 64-bit words, the 63rd power of two. -/
def signedBound : Nat := 0x8000000000000000

/-- The value of a character as a digit of some base. -/
def digit? (c : Char) : Option Nat :=
  if c.isDigit then some (c.toNat - '0'.toNat)
  else if 'a' ≤ c.toLower && c.toLower ≤ 'z' then some (c.toLower.toNat - 'a'.toNat + 10)
  else none

/-- The base a numeral is written in, and its digits. -/
def splitBase : List Char → Nat × List Char
  | '0' :: mark :: digit :: rest =>
    match mark.toLower with
    | 'b' => (2, digit :: rest)
    | 'o' => (8, digit :: rest)
    | 'x' => (16, digit :: rest)
    | _ => (8, mark :: digit :: rest)
  | '0' :: rest => (8, rest)
  | digits => (10, digits)

/-- Read digits behind the number read so far. -/
def digits (base value : Nat) : List Char → Except Error Nat
  | [] => .ok value
  | '_' :: rest => digits base value rest
  | c :: rest =>
    match digit? c with
    | none => .error .invalid
    | some digit =>
      if base ≤ digit then .error .invalid
      else if unsignedBound ≤ base * value + digit then .error .outOfRange
      else digits base (base * value + digit) rest

/-- Whether every underscore stands between two digits; `digit` tells whether the character before
the text is one. -/
def separated (digit : Bool) : List Char → Bool
  | [] => true
  | ['_'] => false
  | '_' :: c :: rest => digit && c != '_' && separated true rest
  | _ :: rest => separated true rest

/-- An unsigned numeral. The mark of a base counts as a digit before an underscore. -/
def unsigned (text : List Char) : Except Error Nat :=
  match text with
  | [] => .error .invalid
  | text => do
    let (base, written) := splitBase text
    let value ← digits base 0 written
    if separated (base != 10) written then return value else throw .invalid

/-- An unsigned numeral in a given base. -/
def unsignedInBase (base : Nat) (text : List Char) : Except Error Nat :=
  if text.isEmpty then .error .invalid else digits base 0 text

/-- A number behind an optional sign, where `magnitude` reads the number without one. -/
def withSign (magnitude : List Char → Except Error Nat) (text : List Char) : Except Error Int := do
  let (negative, rest) := match text with
    | '-' :: rest => (true, rest)
    | '+' :: rest => (false, rest)
    | rest => (false, rest)
  let value ← magnitude rest
  if negative then
    if signedBound < value then throw .outOfRange else return -(value : Int)
  else if signedBound ≤ value then throw .outOfRange
  else return value

/-- A numeral with an optional sign. -/
def signed (text : List Char) : Except Error Int := withSign unsigned text

/-- A numeral in a given base with an optional sign. -/
def signedInBase (base : Nat) (text : List Char) : Except Error Int :=
  withSign (unsignedInBase base) text

end Redex.Numeral
