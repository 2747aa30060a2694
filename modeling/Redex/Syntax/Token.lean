import Redex.Name
import Redex.Text.Digit
import Redex.Text.Glyph
import Redex.Text.Letter
import Redex.Text.Quoted

/-!
# Tokens

The written form of a term is read in normal form C, so that a composed and a decomposed spelling
of a name are one name, and is cut into tokens: names, and the signs `λ` (also written as a
backslash), `π`, `.`, `:`, `(`, `)`, `*` and `□`. Blanks separate tokens and mean nothing else.

A name starts with a letter or an underscore and goes on with letters, underscores, decimal digits
and apostrophes. The two Greek letters that are binder signs are not letters of a name.

A position counts bytes from zero, and lines and characters of the line from one; only a line feed
ends a line. Every error of reading a term has a position and a cause (`Fault`).
-/

set_option autoImplicit false

namespace Redex

/-- A place in a text. -/
structure Position where
  /-- Bytes before the place. -/
  offset : Nat
  /-- Line feeds before the place, and one. -/
  line : Nat
  /-- Characters between the start of the line and the place, and one. -/
  column : Nat
deriving DecidableEq, Repr

namespace Position

/-- The place before the first character. -/
def start : Position := ⟨0, 1, 1⟩

/-- The place after a character. -/
def after (pos : Position) (c : Char) : Position :=
  if c = '\n' then ⟨pos.offset + c.utf8Size, pos.line + 1, 1⟩
  else ⟨pos.offset + c.utf8Size, pos.line, pos.column + 1⟩

/-- The place after several characters. -/
def afterAll (pos : Position) (chars : List Char) : Position := chars.foldl after pos

/-- Line and column. -/
def print (pos : Position) : String := toString pos.line ++ ":" ++ toString pos.column

end Position

/-- The kinds of tokens. -/
inductive Token.Kind where
  | name
  | lambda
  | pi
  | dot
  | colon
  | opening
  | closing
  | star
  | box
deriving DecidableEq, Repr

/-- A token: its kind, its spelling and the place before it. -/
structure Token where
  kind : Token.Kind
  text : String
  pos : Position
deriving DecidableEq, Repr

/-- What a reader of tokens may be waiting for. -/
inductive Expected where
  | term
  | name
  | dot
  | colon
  | closing
  | finish
deriving DecidableEq, Repr

/-- How an expectation is worded. -/
def Expected.print : Expected → String
  | term => "term"
  | name => "identifier"
  | dot => "\".\""
  | colon => "\":\""
  | closing => "\")\""
  | finish => "EOF"

/-- The causes of a syntax error. -/
inductive Fault where
  /-- A stray byte. -/
  | malformed
  /-- A character that no token starts with. -/
  | unexpected (c : Char)
  /-- A token, or the end of the text, in place of what was expected. -/
  | mismatch (expected : Expected) (found : Option Token)
  /-- A token that no operand starts with, taken as the first one of an operand. -/
  | misplaced (token : Token)
deriving DecidableEq, Repr

/-- The wording of a fault. -/
def Fault.message : Fault → String
  | malformed => "invalid UTF-8 encoding"
  | unexpected c => "unexpected character " ++ Text.quoteChar c
  | misplaced token => "unexpected token " ++ Text.quoteString token.text
  | mismatch expected found =>
    "expected " ++ expected.print ++ ", got " ++
      Text.quoteString (match found with
        | some token => token.text
        | none => "EOF")

/-- A fault at a place. -/
structure SyntaxError where
  pos : Position
  fault : Fault
deriving DecidableEq, Repr

/-- The wording of a syntax error. -/
def SyntaxError.message (error : SyntaxError) : String :=
  error.pos.print ++ ": " ++ error.fault.message

/-! ## Cutting a text into tokens -/

/-- Whether a name may start with a character. -/
def startsName (c : Char) : Bool := c != 'λ' && c != 'π' && (c == '_' || Text.isLetter c)

/-- Whether a name may go on with a character. -/
def continuesName (c : Char) : Bool :=
  startsName c || c == '\'' || Text.isDecimalDigit c

/-- The kind of a sign. -/
def signKind? : Char → Option Token.Kind
  | 'λ' => some .lambda
  | '\\' => some .lambda
  | 'π' => some .pi
  | '.' => some .dot
  | ':' => some .colon
  | '(' => some .opening
  | ')' => some .closing
  | '*' => some .star
  | '□' => some .box
  | _ => none

/-- The tokens of a text, and the place of its end. -/
structure Tokens where
  tokens : List Token
  finish : Position
deriving DecidableEq, Repr

/-- One more token in front. -/
def Tokens.push (token : Token) (rest : Tokens) : Tokens :=
  { rest with tokens := token :: rest.tokens }

/-- The tokens of a text that starts at the given place. -/
def scanFrom (pos : Position) : Text → Except SyntaxError Tokens
  | [] => .ok ⟨[], pos⟩
  | .stray _ :: _ => .error ⟨pos, .malformed⟩
  | .char c :: rest =>
    if Text.isBlank c then scanFrom (pos.after c) rest
    else if startsName c then
      let name := c :: (rest.takeWhile (·.satisfies continuesName)).map Glyph.shown
      let token : Token := ⟨.name, String.ofList name, pos⟩
      (scanFrom (pos.afterAll name) (rest.dropWhile (·.satisfies continuesName))).map
        (Tokens.push token)
    else
      match signKind? c with
      | some kind =>
        let token : Token := ⟨kind, String.singleton c, pos⟩
        (scanFrom (pos.after c) rest).map (Tokens.push token)
      | none => .error ⟨pos, .unexpected c⟩
termination_by text => text.length
decreasing_by
  · simp
  · exact Nat.lt_succ_of_le (List.dropWhile_sublist _).length_le
  · simp

/-- The tokens of the normal form of a text. -/
def scan (text : Text) : Except SyntaxError Tokens := scanFrom .start text.normalize

end Redex
