import Redex.Text.Glyph
import Redex.Text.Printable

/-!
# Quoted text

Messages show a piece of text between quotes. A printable character stands for itself, except
that the quote and the backslash are written after a backslash. The seven controls with a letter
of their own are written with it, the other ASCII controls and stray bytes as `\x` and two
hexadecimal digits, and the remaining characters as `\u` and four or `\U` and eight digits.
-/

set_option autoImplicit false

namespace Redex.Text

/-- A number in lower-case hexadecimal, with at least `width` digits. -/
def hexadecimal (width number : Nat) : String :=
  let digits := Nat.toDigits 16 number
  String.ofList (List.replicate (width - digits.length) '0' ++ digits)

/-- The letter that names an ASCII control after a backslash. -/
def controlLetter? (c : Char) : Option Char :=
  match c.toNat with
  | 0x07 => some 'a'
  | 0x08 => some 'b'
  | 0x09 => some 't'
  | 0x0A => some 'n'
  | 0x0B => some 'v'
  | 0x0C => some 'f'
  | 0x0D => some 'r'
  | _ => none

/-- A character inside text quoted with `mark`. -/
def escape (mark c : Char) : String :=
  if c = mark || c = '\\' then String.ofList ['\\', c]
  else if isPrintable c then String.singleton c
  else
    match controlLetter? c with
    | some letter => String.ofList ['\\', letter]
    | none =>
      if c.toNat < 0x80 then "\\x" ++ hexadecimal 2 c.toNat
      else if c.toNat < 0x10000 then "\\u" ++ hexadecimal 4 c.toNat
      else "\\U" ++ hexadecimal 8 c.toNat

/-- A glyph inside text quoted with `mark`. -/
def escapeGlyph (mark : Char) : Glyph → String
  | .char c => escape mark c
  | .stray byte => "\\x" ++ hexadecimal 2 byte.toNat

/-- A text between double quotes. -/
def quote (text : Text) : String := "\"" ++ String.join (text.map (escapeGlyph '"')) ++ "\""

/-- A string between double quotes. -/
def quoteString (string : String) : String := quote (ofString string)

/-- A character between single quotes. -/
def quoteChar (c : Char) : String := "'" ++ escape '\'' c ++ "'"

end Redex.Text
