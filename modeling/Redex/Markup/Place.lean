/-!
# Places in a document

A document is read from front to back, and the place where reading has come to knows its line and
its column, since indentation carries meaning and problems are reported by line.

Five characters end a line: line feed, carriage return, next line, line separator and paragraph
separator. A carriage return and a line feed together end one line.
-/

set_option autoImplicit false

namespace Redex.Markup

/-! ## Characters -/

/-- Whether a document may hold a character. -/
def isAllowed (c : Char) : Bool :=
  c = '\t' || c = '\n' || c = '\r' || c.toNat = 0x85 ||
    (0x20 ≤ c.toNat && c.toNat ≤ 0x7E) || (0xA0 ≤ c.toNat && c.toNat ≤ 0xD7FF) ||
    (0xE000 ≤ c.toNat && c.toNat ≤ 0xFFFD) || 0x10000 ≤ c.toNat

/-- Whether a character is a space or a tab. -/
def isGap (c : Char) : Bool := c = ' ' || c = '\t'

/-- Whether a character ends a line. -/
def isBreak (c : Char) : Bool :=
  c = '\n' || c = '\r' || c = '\u0085' || c = '\u2028' || c = '\u2029'

/-- Whether a text is at its end, at the end of a line, or at a space or tab. -/
def atGap : List Char → Bool
  | [] => true
  | c :: _ => isGap c || isBreak c

/-- Whether a text is at its end or at the end of a line. -/
def atBreak : List Char → Bool
  | [] => true
  | c :: _ => isBreak c

/-! ## Places -/

/-- A place in a document: the number of characters before it, its line and column, whether nothing
but gaps stands between it and the last line break, and the characters from there on. Lines are
counted from one and columns from zero. -/
structure Place where
  index : Nat
  line : Nat
  column : Nat
  fresh : Bool
  rest : List Char

namespace Place

/-- The place at the front of a text. -/
def start (text : List Char) : Place := ⟨0, 1, 0, false, text⟩

/-- Go over one character of a line. -/
def skip (place : Place) : Place :=
  match place.rest with
  | [] => place
  | c :: rest => ⟨place.index + 1, place.line, place.column + 1, place.fresh && isGap c, rest⟩

/-- Go over the end of a line. -/
def skipBreak (place : Place) : Place :=
  match place.rest with
  | '\r' :: '\n' :: rest => ⟨place.index + 2, place.line + 1, 0, true, rest⟩
  | _ :: rest => ⟨place.index + 1, place.line + 1, 0, true, rest⟩
  | [] => place

/-- Go over some characters of a line. -/
def skipMany : Place → Nat → Place
  | place, 0 => place
  | place, count + 1 => skipMany place.skip count

/-- Go over the characters at the front of a line that have a property. -/
def skipWhile (property : Char → Bool) (place : Place) : Place :=
  place.skipMany (place.rest.takeWhile property).length

/-- Go to the end of the line. -/
def skipLine (place : Place) : Place := place.skipWhile fun c => !isBreak c

/-- What the end of a line is read as. Separators of lines and paragraphs stay what they are. -/
def breakText (place : Place) : List Char :=
  match place.rest with
  | '\u2028' :: _ => ['\u2028']
  | '\u2029' :: _ => ['\u2029']
  | _ => ['\n']

/-- Whether a line that separates documents starts here. -/
def atSeparator (place : Place) : Bool :=
  place.column = 0 && atGap (place.rest.drop 3) &&
    (place.rest.take 3 = ['-', '-', '-'] || place.rest.take 3 = ['.', '.', '.'])

/-! ## Comments -/

/-- How far a comment is looked for, in characters. -/
def commentReach : Nat := 512

/-- Go over gaps and line breaks up to a comment. -/
def skipToComment : Nat → Place → Place
  | 0, place => place
  | fuel + 1, place =>
    match place.rest with
    | [] => place
    | c :: _ =>
      if isBreak c then skipToComment fuel place.skipBreak
      else if isGap c then skipToComment fuel place.skip
      else place

/-- Go over a comment and over the comments in the lines below it, with blank lines between them.
The place behind is the end of the last comment's line. -/
def skipComments : Nat → Place → Place
  | 0, place => place
  | fuel + 1, place =>
    let behind := place.skipLine
    let blank := behind.rest.takeWhile fun c => isGap c || c = '\n' || c = '\r'
    if 0 < blank.length && blank.length < commentReach &&
        (behind.rest.drop blank.length).head? = some '#' then
      skipComments fuel (skipToComment blank.length behind)
    else behind

/-- Go over a comment in the same line, if there is one. -/
def skipLineComment (place : Place) : Place :=
  let gaps := place.rest.takeWhile isGap
  if !place.fresh && gaps.length < commentReach &&
      (place.rest.drop gaps.length).head? = some '#' then
    place.skipLine
  else place

/-- Go over gaps, comments and line breaks to the next token. A tab is passed over only in a flow
collection, and where no key may start; a new line in a block may start a key. -/
def skipBlanks (flow : Bool) : Nat → Bool → Place → Bool × Place
  | 0, keyAllowed, place => (keyAllowed, place)
  | fuel + 1, keyAllowed, place =>
    let place := place.skipWhile fun c => c = ' ' || (c = '\t' && (flow || !keyAllowed))
    let place :=
      if place.rest.head? = some '#' then skipComments place.rest.length place else place
    match place.rest with
    | [] => (keyAllowed, place)
    | c :: _ =>
      if isBreak c then skipBlanks flow fuel (keyAllowed || !flow) place.skipBreak
      else (keyAllowed, place)

end Place

end Redex.Markup
