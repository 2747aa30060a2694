import Redex.Markup.Place
import Redex.Text.Hexadecimal

/-!
# Scalars of a document

A scalar is written plainly, in single quotes or in double quotes, and may go over several lines.
Between two words of one line the gaps stay as they are; a line break with the gaps around it is
read as a space, or as the line breaks that follow it if there are any.
-/

set_option autoImplicit false

namespace Redex.Markup

/-- A scalar: the line it starts in, its text, and whether it stands in quotes. -/
structure Scalar where
  line : Nat
  text : String
  quoted : Bool
deriving DecidableEq, Repr

/-! ## Between words -/

/-- What stands between two words of a scalar: gaps in one line; or, if the line was left, the text
of the first break and of those after it. -/
structure Between where
  broken : Bool
  gaps : List Char
  first : List Char
  later : List Char

namespace Between

/-- Nothing, in the same line. -/
def nothing : Between := ⟨false, [], [], []⟩

/-- The end of a line that is not read. -/
def joined : Between := ⟨true, [], [], []⟩

/-- Add a gap. Gaps at the front of a line do not count. -/
def gap (between : Between) (c : Char) : Between :=
  if between.broken then between else { between with gaps := between.gaps ++ [c] }

/-- Add a line break. Gaps at the end of a line do not count. -/
def newLine (between : Between) (text : List Char) : Between :=
  if between.broken then { between with later := between.later ++ text }
  else ⟨true, [], text, []⟩

/-- What is read between the two words. -/
def text (between : Between) : List Char :=
  if !between.broken then between.gaps
  else if between.first != ['\n'] then between.first ++ between.later
  else if between.later.isEmpty then [' ']
  else between.later

end Between

/-- Go over gaps and line breaks. At the front of a line there is no tab before column `tabs`. -/
def skipBetween (tabs : Nat) : Nat → Between → Place → Option (Between × Place)
  | 0, between, place => some (between, place)
  | fuel + 1, between, place =>
    match place.rest with
    | [] => some (between, place)
    | c :: _ =>
      if isGap c then
        if between.broken && c = '\t' && place.column < tabs then none
        else skipBetween tabs fuel (between.gap c) place.skip
      else if isBreak c then
        skipBetween tabs fuel (between.newLine place.breakText) place.skipBreak
      else some (between, place)

/-! ## Quoted scalars -/

/-- The characters named by one character behind a backslash. -/
def escape? : Char → Option Char
  | '0' => some '\x00'
  | 'a' => some '\x07'
  | 'b' => some '\x08'
  | 't' => some '\t'
  | '\t' => some '\t'
  | 'n' => some '\n'
  | 'v' => some '\x0b'
  | 'f' => some '\x0c'
  | 'r' => some '\r'
  | 'e' => some '\x1b'
  | ' ' => some ' '
  | '"' => some '"'
  | '\'' => some '\''
  | '\\' => some '\\'
  | 'N' => some '\u0085'
  | '_' => some '\u00a0'
  | 'L' => some '\u2028'
  | 'P' => some '\u2029'
  | _ => none

/-- The number of hexadecimal digits behind an escape letter. -/
def escapeWidth? : Char → Option Nat
  | 'x' => some 2
  | 'u' => some 4
  | 'U' => some 8
  | _ => none

/-- Read an escape behind its backslash: the character, and the number of characters it is written
with. -/
def readEscape? : List Char → Option (Char × Nat)
  | [] => none
  | c :: rest =>
    match escape? c, escapeWidth? c with
    | some char, _ => some (char, 1)
    | none, some width =>
      let digits := rest.take width
      if digits.length = width then
        ((Text.hexNumber? digits).bind Text.charOf?).map (·, width + 1)
      else none
    | none, none => none

/-- Read a scalar up to its closing quote; `value` is what was read, the last character first. In
single quotes a quote is written twice. In double quotes a backslash starts an escape, and one at
the end of a line joins the next line to it. No document ends inside a quoted scalar. -/
def quotedText (quote : Char) : Nat → List Char → Place → Option (List Char × Place)
  | 0, _, _ => none
  | fuel + 1, value, place =>
    let skipOver := fun (between : Between) (place : Place) => do
      let (between, place) ← skipBetween 0 place.rest.length between place
      quotedText quote fuel (between.text.reverse ++ value) place
    if place.atSeparator then none
    else
      match place.rest with
      | [] => none
      | c :: rest =>
        if isGap c || isBreak c then skipOver .nothing place
        else if c = quote then
          if c = '\'' && rest.head? = some '\'' then
            quotedText quote fuel ('\'' :: value) place.skip.skip
          else some (value.reverse, place.skip)
        else if c = '\\' && quote = '"' then
          if rest.isEmpty then none
          else if atBreak rest then skipOver .joined place.skip.skipBreak
          else
            match readEscape? rest with
            | none => none
            | some (char, width) =>
              quotedText quote fuel (char :: value) (place.skip.skipMany width)
        else quotedText quote fuel (c :: value) place.skip

/-- Read a quoted scalar from its opening quote on. -/
def quotedScalar? (quote : Char) (place : Place) : Option (Scalar × Place) :=
  (quotedText quote place.rest.length [] place.skip).map fun (value, behind) =>
    (⟨place.line, String.ofList value, true⟩, behind)

/-! ## Plain scalars -/

/-- The signs that stand between the parts of a flow collection. -/
def flowSigns : List Char := [',', '?', '[', ']', '\x7b', '\x7d']

/-- The characters no plain scalar starts with. -/
def reserved : List Char := "?:,[]\x7b\x7d#&*!|>'\"%@`".toList

/-- Whether a plain scalar may start here. A dash, and outside a flow collection a question mark or
a colon, may start one if no gap follows. -/
def startsPlain (flow : Bool) (text : List Char) : Bool :=
  match text with
  | [] => false
  | c :: rest =>
    if c = '-' || (!flow && (c = '?' || c = ':')) then !atGap rest
    else !(atGap text || reserved.contains c)

/-- Read a word of a plain scalar: up to a gap, a colon before a gap, or in a flow collection one of
its signs. -/
def word (flow : Bool) : List Char → List Char
  | [] => []
  | c :: rest =>
    if isGap c || isBreak c || (c = ':' && atGap rest) || (flow && flowSigns.contains c) then []
    else c :: word flow rest

/-- Read the words of a plain scalar behind those in `value`, the last character first, and what is
`between`. It ends before a comment, between two documents, and outside a flow collection in a line
that starts before column `indent`. Also tells whether the line of the last word was left. -/
def plainText (flow : Bool) (indent : Nat) :
    Nat → List Char → Between → Place → Option (List Char × Bool × Place)
  | 0, _, _, _ => none
  | fuel + 1, value, between, place =>
    let stop := fun value broken place => some (value.reverse, broken, place)
    if place.atSeparator || place.rest.head? = some '#' then stop value between.broken place
    else
      match word flow place.rest with
      | [] => stop value between.broken place
      | text =>
        let value := text.reverse ++ (between.text.reverse ++ value)
        let place := place.skipMany text.length
        match skipBetween indent place.rest.length .nothing place with
        | none => none
        | some (between, next) =>
          if next.rest.length = place.rest.length ||
              (!flow && next.column < indent) then stop value between.broken next
          else plainText flow indent fuel value between next

/-- Read a plain scalar, and whether its last line was left. -/
def plainScalar? (flow : Bool) (indent : Nat) (place : Place) : Option (Scalar × Bool × Place) :=
  (plainText flow indent (place.rest.length + 1) [] .nothing place).map
    fun (value, broken, behind) => (⟨place.line, String.ofList value, false⟩, broken, behind)

end Redex.Markup
