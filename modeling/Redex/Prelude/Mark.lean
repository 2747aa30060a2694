import Redex.Text.Digit
import Redex.Text.Hexadecimal
import Redex.Text.Letter

/-!
# Marks of a document

The text of a prelude document is cut into marks: braces, colons, commas, names and texts in quotes.
Blanks and comments are left out, and a line end behind a mark that can end a field is a comma.
-/

set_option autoImplicit false

namespace Redex.Document

/-- The marks of a document. -/
inductive Mark where
  | opening
  | closing
  | colon
  | comma
  | label (name : String)
  | text (value : String)
deriving DecidableEq, Repr

/-- Whether a line end behind a mark stands for a comma. -/
def Mark.endsItem : Mark → Bool
  | closing | label _ | text _ => true
  | opening | colon | comma => false

/-! ## Quoted text -/

/-- The characters named by one letter behind a backslash. -/
def simpleEscape? : Char → Option Char
  | 'a' => some '\x07'
  | 'b' => some '\x08'
  | 'f' => some '\x0c'
  | 'n' => some '\n'
  | 'r' => some '\r'
  | 't' => some '\t'
  | 'v' => some '\x0b'
  | '/' => some '/'
  | '\\' => some '\\'
  | '"' => some '"'
  | _ => none

/-- Read text up to the closing quote. The code points of its characters so far stand in `codes`,
the last one first. Half of a pair may be written by four digits and the other by eight. -/
def quoted (codes : List Nat) : List Char → Option (String × List Char)
  | '"' :: rest => (Text.ofCodes? [] codes).map fun chars => (String.ofList chars, rest)
  | '\n' :: _ => none
  | '\r' :: _ => none
  | '\\' :: 'u' :: a :: b :: c :: d :: rest =>
    match Text.hexNumber? [a, b, c, d] with
    | some code => quoted (code :: codes) rest
    | none => none
  | '\\' :: 'U' :: a :: b :: c :: d :: e :: f :: g :: h :: rest =>
    match Text.hexNumber? [a, b, c, d, e, f, g, h] with
    | some code => quoted (code :: codes) rest
    | none => none
  | '\\' :: c :: rest =>
    match simpleEscape? c with
    | some char => quoted (char.toNat :: codes) rest
    | none => none
  | c :: rest => quoted (c.toNat :: codes) rest
  | [] => none

/-! ## Marks -/

/-- Whether a character is blank, apart from line feeds. -/
def isBlank (c : Char) : Bool := c = ' ' || c = '\t' || c = '\r'

/-- Whether a name without quotes may go on with a character. -/
def continuesLabel (c : Char) : Bool :=
  c = '_' || c = '$' || Text.isLetter c || Text.isDecimalDigit c

/-- Whether a name without quotes may start with a character. -/
def startsLabel (c : Char) : Bool := c = '#' || (continuesLabel c && !Text.isDecimalDigit c)

/-- Read a name without quotes. The hash of a hidden name stands in front or behind an underscore.
An underscore alone is no name, and two in front are not allowed. -/
def label? (text : List Char) : Option (String × List Char) :=
  let (signs, rest) := match text with
    | '_' :: '#' :: rest => (['_', '#'], rest)
    | '#' :: rest => (['#'], rest)
    | rest => ([], rest)
  let name := signs ++ rest.takeWhile continuesLabel
  let hashDigit := signs != [] && (rest.head?.map Text.isDecimalDigit).getD false
  if name = ['_'] || name.take 2 = ['_', '_'] || hashDigit then none
  else some (String.ofList name, rest.dropWhile continuesLabel)

/-- Put the comma that a line end stands for behind the marks so far, the last one first. -/
def endLine : List Mark → List Mark
  | mark :: before => if mark.endsItem then .comma :: mark :: before else mark :: before
  | [] => []

/-- Whether the next character that is not blank is a comma or a colon. Before one of them a line
end means nothing. -/
def atSign (text : List Char) : Bool :=
  match text.dropWhile fun c => isBlank c || c = '\n' with
  | ',' :: _ | ':' :: _ => true
  | _ => false

/-- Cut a document into marks. The marks so far stand in `before`, the last one first; `fuel` bounds
the number of characters left. -/
def marks (before : List Mark) : Nat → List Char → Option (List Mark)
  | _, [] => some (endLine before).reverse
  | 0, _ => none
  | fuel + 1, c :: rest =>
    match c with
    | '\n' => marks (if atSign rest then before else endLine before) fuel rest
    | '{' => marks (.opening :: before) fuel rest
    | '}' => marks (.closing :: before) fuel rest
    | ':' => marks (.colon :: before) fuel rest
    | ',' => marks (.comma :: before) fuel rest
    | '/' =>
      match rest with
      | '/' :: comment => marks (endLine before) fuel (comment.dropWhile (· != '\n'))
      | _ => none
    | '"' =>
      match quoted [] rest with
      | some (value, rest) => marks (.text value :: before) fuel rest
      | none => none
    | c =>
      if isBlank c then marks before fuel rest
      else if startsLabel c then
        match label? (c :: rest) with
        | some (name, rest) => marks (.label name :: before) fuel rest
        | none => none
      else none

end Redex.Document
