import Redex.Text.Attachment

/-!
# Canonical composition

Two spellings of a text are canonically equivalent when they differ only in the order of marks
that do not interact, or in the use of a composite for its parts. The normal form chosen here is
form C: characters are taken apart, marks are put in the order of their classes, and parts are
joined to composites again, as far as nothing stands between them.

The text is worked on in segments. A segment is a starter with all that attaches to it, at most
thirty characters: if there are more, a combining grapheme joiner is put in and the rest is a
segment of its own. A stretch of text that is in normal form already is left alone.
-/

set_option autoImplicit false

namespace Redex.Text

/-! ## Cells -/

/-- A character of a segment, its class, and whether it may join a character before it. -/
structure Cell where
  char : Char
  rank : Nat
  joins : Bool
deriving DecidableEq, Repr

namespace Cell

/-- A character that is not a composite. -/
def ofChar (c : Char) : Cell := ⟨c, combiningClass c, joinsBack c⟩

/-- A character that takes no part in ordering and joins nothing before it. -/
def fixed (c : Char) : Cell := ⟨c, 0, false⟩

/-- Put a cell behind the cells of a segment, the last one first, and before marks of a higher
class. -/
def insert (cell : Cell) : List Cell → List Cell
  | [] => [cell]
  | last :: before =>
    if 0 < cell.rank && cell.rank < last.rank then last :: insert cell before
    else cell :: last :: before

end Cell

/-! ## Composition -/

/-- A segment while it is composed: the cell that composites are formed with, the cells before it
and the cells behind it, the last one first in both. -/
structure Composition where
  before : List Cell
  base : Cell
  behind : List Cell

namespace Composition

/-- Keep a cell as it is. -/
def keep (state : Composition) (cell : Cell) : Composition :=
  { state with behind := cell :: state.behind }

/-- Take the last cell for the base if it is a starter. -/
def rebase (state : Composition) : Composition :=
  match state.behind with
  | last :: others =>
    if last.rank = 0 then ⟨others ++ state.base :: state.before, last, []⟩ else state
  | [] => state

/-- Whether a mark between the base and a cell keeps them apart. -/
def blocks (state : Composition) (cell : Cell) : Bool :=
  match state.behind with
  | last :: _ => cell.rank ≤ last.rank
  | [] => false

/-- Join a cell to the base if the two have a composite and nothing is between them. -/
def join (state : Composition) (whole? : Char → Char → Option Char) (cell : Cell) : Composition :=
  let state := state.rebase
  match if state.blocks cell then none else whole? state.base.char cell.char with
  | some whole => { state with base := .fixed whole }
  | none => state.keep cell

/-- The characters of the segment. -/
def chars (state : Composition) : List Char :=
  (state.behind ++ state.base :: state.before).reverse.map Cell.char

end Composition

/-- The Hangul syllable of two characters. -/
def syllable? (first second : Char) : Option Char :=
  (hangulWhole? first.toNat second.toNat).map Char.ofNat

/-- Compose the cells behind those of the state. From the first part of a Hangul syllable on only
syllables are composed. -/
def composeCells (hangul : Bool) (state : Composition) : List Cell → Composition
  | [] => state
  | cell :: rest =>
    if hangul || isHangulPart cell.char then composeCells true (state.join syllable? cell) rest
    else if cell.joins then composeCells false (state.join join? cell) rest
    else composeCells false (state.keep cell) rest

/-- Compose a segment. -/
def composeSegment : List Cell → List Char
  | [] => []
  | base :: rest => (composeCells false ⟨[], base, []⟩ rest).chars

/-! ## Segments -/

/-- The longest run of attaching characters. -/
def longestRun : Nat := 30

/-- The combining grapheme joiner. -/
def graphemeJoiner : Char := '\u034F'

/-- A segment while it is read: its cells, the last one first, and the text composed so far, the
last character first. -/
structure Segment where
  cells : List Cell
  composed : List Char

namespace Segment

/-- Compose the segment. -/
def flush (segment : Segment) : Segment :=
  ⟨[], (composeSegment segment.cells.reverse).reverse ++ segment.composed⟩

/-- Add a part of a character that was taken apart. A part that attaches to nothing before it starts
a new segment. -/
def addPart (segment : Segment) (part : Char) : Segment :=
  let segment := if attaches part then segment else segment.flush
  { segment with cells := (Cell.ofChar part).insert segment.cells }

/-- Add a character. -/
def add (segment : Segment) (c : Char) : Segment :=
  match hangulParts? c.toNat with
  | some parts =>
    { segment with cells := (parts.map fun code => .fixed (.ofNat code)).reverse ++ segment.cells }
  | none =>
    match decompose c with
    | [single] =>
      if single = c then { segment with cells := (Cell.ofChar c).insert segment.cells }
      else segment.addPart single
    | parts => parts.foldl addPart segment

/-- Read a segment from the front of a text, and give the text behind it. The run of attaching
characters so far has length `run`; only the first character of the segment attaches to nothing. -/
def read (segment : Segment) (first : Bool) (run : Nat) : List Char → Segment × List Char
  | [] => (segment.flush, [])
  | c :: rest =>
    let (leading, trailing) := attachingEnds c
    if leading = 0 then
      if first then (segment.add c).read false trailing rest else (segment.flush, c :: rest)
    else if longestRun < run + leading then
      ({ segment with cells := .fixed graphemeJoiner :: segment.cells }.flush, c :: rest)
    else (segment.add c).read false (run + leading) rest

end Segment

/-! ## Stretches in normal form -/

/-- The length of a stretch at the front of a text that is in normal form, up to the start of the
first segment that is not. Before the text come `length` characters; the last segment among them
starts behind `settled`, its last character has class `rank`, and its run of attaching characters
has length `run`. -/
def settledLength (length settled rank run : Nat) : List Char → Nat
  | [] => length
  | c :: rest =>
    let (leading, trailing) := attachingEnds c
    let here := ((decompose c).head?.map combiningClass).getD 0
    if longestRun < run + leading || (0 < leading && here < rank) then settled
    else
      let settled := if leading = 0 then length else settled
      if joinsBack c || isReplaced c then settled
      else settledLength (length + 1) settled here (if leading = 0 then trailing else run + leading)
        rest

/-- Put a text in normal form behind what is composed, the last character first: segment by segment,
with the stretches between them left alone. -/
def normalizeBehind : Nat → List Char → List Char → List Char
  | 0, composed, text => composed.reverse ++ text
  | _ + 1, composed, [] => composed.reverse
  | fuel + 1, composed, text =>
    let (segment, rest) := Segment.read ⟨[], composed⟩ true 0 text
    let settled := settledLength 0 0 0 0 rest
    normalizeBehind fuel ((rest.take settled).reverse ++ segment.composed) (rest.drop settled)

/-- The normal form C of a text, with runs of marks of bounded length. Nothing attaches to what
precedes it below the first mark, so a text without characters from there on stays as it is. -/
def normalForm (text : List Char) : List Char :=
  if text.all (·.toNat < 0x300) then text
  else
    let settled := settledLength 0 0 0 0 text
    normalizeBehind text.length (text.take settled).reverse (text.drop settled)

end Redex.Text
