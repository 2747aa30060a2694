import Redex.Text.Blank
import Redex.Text.NormalForm

/-!
# Text that may hold stray bytes

Text comes from files and arguments, which are sequences of bytes. Read as UTF-8, such a sequence
falls into characters and stray bytes: bytes that are not part of any well-formed character. A
`Glyph` is one or the other, and a `Text` is a list of glyphs, so nothing of the input is lost
(`Text.bytes` gives it back) and every rule about characters is a rule about a list.
-/

set_option autoImplicit false

namespace Redex

/-- A character, or a byte that belongs to none. -/
inductive Glyph where
  | char (c : Char)
  | stray (byte : UInt8)
deriving DecidableEq, Repr

/-- A sequence of characters and stray bytes. -/
abbrev Text := List Glyph

namespace Glyph

/-- The number of bytes a glyph takes. -/
def size : Glyph → Nat
  | char c => c.utf8Size
  | stray _ => 1

/-- Whether a glyph is a character. -/
def isChar : Glyph → Bool
  | char _ => true
  | stray _ => false

/-- Whether a glyph is a character with the given property. -/
def satisfies (property : Char → Bool) : Glyph → Bool
  | char c => property c
  | stray _ => false

/-- The character a glyph is shown as: a stray byte is shown as the replacement character. -/
def shown : Glyph → Char
  | char c => c
  | stray _ => '�'

/-- The same glyph with its character changed. -/
def mapChar (f : Char → Char) : Glyph → Glyph
  | char c => char (f c)
  | stray byte => stray byte

/-- The bytes of a glyph. -/
def bytes : Glyph → List UInt8
  | char c => (String.singleton c).toUTF8.toList
  | stray byte => [byte]

end Glyph

namespace Text

/-! ## From and to bytes -/

/-- What the first byte of a longer character promises: the number of continuation bytes, the
least and greatest value of the first of them, and its own share of the code point. -/
def lead? (byte : UInt8) : Option (Nat × UInt8 × UInt8 × Nat) :=
  if 0xC2 ≤ byte && byte ≤ 0xDF then some (1, 0x80, 0xBF, byte.toNat - 0xC0)
  else if byte = 0xE0 then some (2, 0xA0, 0xBF, 0)
  else if byte = 0xED then some (2, 0x80, 0x9F, 0x0D)
  else if 0xE1 ≤ byte && byte ≤ 0xEF then some (2, 0x80, 0xBF, byte.toNat - 0xE0)
  else if byte = 0xF0 then some (3, 0x90, 0xBF, 0)
  else if 0xF1 ≤ byte && byte ≤ 0xF3 then some (3, 0x80, 0xBF, byte.toNat - 0xF0)
  else if byte = 0xF4 then some (3, 0x80, 0x8F, 4)
  else none

/-- Whether the continuation bytes are there, the first of them between the bounds. -/
def continues (low high : UInt8) : List UInt8 → Bool
  | [] => false
  | first :: others =>
    low ≤ first && first ≤ high && others.all fun byte => 0x80 ≤ byte && byte ≤ 0xBF

/-- The character that begins with `byte`, and how many bytes of `rest` it takes. -/
def decodeFirst (byte : UInt8) (rest : List UInt8) : Option (Char × Nat) :=
  if byte < 0x80 then some (Char.ofNat byte.toNat, 0)
  else
    match lead? byte with
    | none => none
    | some (count, low, high, share) =>
      let tail := rest.take count
      if tail.length = count && continues low high tail then
        let code := tail.foldl (fun code byte => code * 64 + (byte.toNat - 0x80)) share
        some (Char.ofNat code, count)
      else none

/-- Read bytes as UTF-8. A byte that begins no well-formed character is stray. -/
def ofBytes : List UInt8 → Text
  | [] => []
  | byte :: rest =>
    match decodeFirst byte rest with
    | some (c, count) => .char c :: ofBytes (rest.drop count)
    | none => .stray byte :: ofBytes rest
termination_by bytes => bytes.length
decreasing_by all_goals simp only [List.length_cons, List.length_drop]; omega

/-- The bytes of a text. -/
def bytes (text : Text) : List UInt8 := text.flatMap Glyph.bytes

/-- The number of bytes of a text. -/
def size (text : Text) : Nat := text.foldr (fun glyph total => glyph.size + total) 0

/-! ## From and to strings -/

/-- A string as a text without stray bytes. -/
def ofString (string : String) : Text := string.toList.map .char

/-- A text as a string, each stray byte shown as the replacement character. -/
def shown (text : Text) : String := String.ofList (text.map Glyph.shown)

/-- Whether a text is the given string. -/
def isString (text : Text) (string : String) : Bool := text = ofString string

/-! ## Blanks and joins -/

/-- A text without the blanks at its two ends. -/
def trim (text : Text) : Text :=
  let blank := Glyph.satisfies isBlank
  ((text.dropWhile blank).reverse.dropWhile blank).reverse

/-- The texts one after the other, with `separator` between two. -/
def join (separator : Text) (texts : List Text) : Text := (texts.intersperse separator).flatten

/-! ## Normal form -/

/-- The characters before the first stray byte. -/
def readable (text : Text) : List Char := (text.takeWhile (·.isChar)).map Glyph.shown

/-- The text from the first stray byte on. -/
def unreadable (text : Text) : Text := text.dropWhile (·.isChar)

/-- The normal form of a text: every stretch between stray bytes is put in normal form, and the
stray bytes are left alone. -/
def normalize (text : Text) : Text :=
  match _rest : text.unreadable with
  | [] => (normalForm text.readable).map .char
  | byte :: after => (normalForm text.readable).map .char ++ byte :: normalize after
termination_by text.length
decreasing_by
  have shorter : text.unreadable.length ≤ text.length :=
    (List.dropWhile_sublist _).length_le
  rw [_rest, List.length_cons] at shorter
  omega

end Text

end Redex
