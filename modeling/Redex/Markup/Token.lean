import Redex.Markup.Scalar

/-!
# Tokens of a document

A document falls into scalars and signs. Indentation is made visible by tokens that open and close
blocks, so that what follows needs no columns.

A key is known as one only by the colon behind it. A token that may be a key is therefore kept back
until the colon is found or can no longer follow: a key is at most 1024 characters long and stays in
one line. In a block a scalar at the column of the keys around it has to be a key.

A `Stream` hands out tokens one by one. It reads ahead as far as needed to settle whether the next
token is a key, and at least three tokens.
-/

set_option autoImplicit false

namespace Redex.Markup

/-- The kinds of token. -/
inductive Sign where
  | scalar (value : Scalar)
  | openSequence
  | closeSequence
  | openMapping
  | closeMapping
  | comma
  | blockSequence
  | blockMapping
  | blockEnd
  | item
  | key
  | value
  | documentStart
  | documentEnd
  | streamEnd
deriving DecidableEq, Repr

/-- A token, with the line it starts in. -/
structure Token where
  line : Nat
  sign : Sign
deriving DecidableEq, Repr

/-- A token that may turn out to be a key: whether it has to be one, whether it is kept back until
that is settled, how many tokens there are before it, and its place. -/
structure Candidate where
  required : Bool
  keptBack : Bool
  number : Nat
  index : Nat
  line : Nat
  column : Nat
deriving DecidableEq, Repr

/-- The greatest length of a key. -/
def keyReach : Nat := 1024

/-- Whether the colon of a key may stand at a place. -/
def Candidate.reaches (candidate : Candidate) (place : Place) : Bool :=
  candidate.line = place.line && place.index ≤ candidate.index + keyReach

/-- A flow collection that is open, or the text around all of them: the candidate for a key in it,
and the number of its last candidate, or of the bracket that opened it. -/
structure Level where
  candidate : Option Candidate
  number : Nat
deriving DecidableEq, Repr

/-- A level behind a flow collection in it. A collection in which there was no candidate is no
longer kept back. -/
def Level.behind (level inner : Level) : Level :=
  { level with
    candidate := level.candidate.map fun candidate =>
      { candidate with keptBack := candidate.keptBack && candidate.number != inner.number } }

/-- The tokens of a document from some place on. The tokens in `queue` are read and not yet handed
out, those before are counted by `taken`. Blocks are given by the column of their entries, which is
-1 outside all of them. -/
structure Stream where
  place : Place
  taken : Nat
  queue : List Token
  indent : Int
  outerIndents : List Int
  keyAllowed : Bool
  level : Level
  outerLevels : List Level

namespace Stream

/-- The tokens of a text. -/
def start (text : List Char) : Stream :=
  ⟨Place.start text, 0, [], -1, [], true, ⟨none, 0⟩, []⟩

/-- Whether the place is inside a flow collection. -/
def inFlow (stream : Stream) : Bool := !stream.outerLevels.isEmpty

/-- The number of the next token to be read. -/
def number (stream : Stream) : Nat := stream.taken + stream.queue.length

/-- Add a token to the queue. -/
def push (stream : Stream) (line : Nat) (sign : Sign) : Stream :=
  { stream with queue := stream.queue ++ [⟨line, sign⟩] }

/-- Add a token that is written with so many characters. -/
def pushSign (stream : Stream) (width : Nat) (sign : Sign) : Stream :=
  { stream.push stream.place.line sign with place := stream.place.skipMany width }

/-- Add a token to the queue behind the first `position` ones. -/
def insert (stream : Stream) (position line : Nat) (sign : Sign) : Stream :=
  { stream with
    queue := stream.queue.take position ++ ⟨line, sign⟩ :: stream.queue.drop position }

/-! ## Blocks -/

/-- How deep blocks and flow collections may be nested. -/
def deepest : Nat := 10000

/-- Open a block at a column, unless the column belongs to the current one. The token that says so
comes behind the first `position` ones of the queue. -/
def openBlock (stream : Stream) (column position line : Nat) (sign : Sign) : Option Stream :=
  if stream.inFlow || (column : Int) ≤ stream.indent then some stream
  else if deepest ≤ stream.outerIndents.length then none
  else some { stream.insert position line sign with
    indent := column, outerIndents := stream.indent :: stream.outerIndents }

/-- The number of blocks that end before a column, and the blocks that remain. -/
def blocksBehind (column : Int) : Int → List Int → Nat × Int × List Int
  | indent, [] => (0, indent, [])
  | indent, outer :: rest =>
    if indent ≤ column then (0, indent, outer :: rest)
    else
      let (closed, indent, rest) := blocksBehind column outer rest
      (closed + 1, indent, rest)

/-- Close the blocks whose entries stand behind a column. -/
def closeBlocks (stream : Stream) (column : Int) : Stream :=
  if stream.inFlow then stream
  else
    let (closed, indent, outer) := blocksBehind column stream.indent stream.outerIndents
    { stream with
      queue := stream.queue ++ List.replicate closed ⟨stream.place.line, .blockEnd⟩
      indent := indent
      outerIndents := outer }

/-! ## Keys -/

/-- Change the candidate for a key. -/
def withCandidate (stream : Stream) (candidate : Option Candidate) : Stream :=
  { stream with level := { stream.level with candidate := candidate } }

/-- Give up the candidate for a key. -/
def dropCandidate (stream : Stream) : Option Stream :=
  match stream.level.candidate with
  | none => some stream
  | some candidate => if candidate.required then none else some (stream.withCandidate none)

/-- Take the next token for a candidate, where a key may start. -/
def saveCandidate (stream : Stream) : Option Stream :=
  if stream.keyAllowed then do
    let ⟨index, line, column, _, _⟩ := stream.place
    let required := !stream.inFlow && stream.indent = column
    let candidate := ⟨required, true, stream.number, index, line, column⟩
    let stream ← stream.dropCandidate
    return { stream with level := ⟨some candidate, stream.number⟩ }
  else some stream

/-- The candidate whose colon may stand here. -/
def settledKey (stream : Stream) : Option (Option Candidate) :=
  match stream.level.candidate with
  | none => some none
  | some candidate =>
    if candidate.reaches stream.place then some (some candidate)
    else if candidate.required then none
    else some none

/-! ## Signs -/

/-- Read the end of the text. It counts as the start of a new line. -/
def readEnd (stream : Stream) : Option Stream := do
  let place := stream.place
  let place :=
    if place.column = 0 then place else { place with column := 0, line := place.line + 1 }
  let stream ← ({ stream with place := place }.closeBlocks (-1)).dropCandidate
  return { stream with keyAllowed := false }.push place.line .streamEnd

/-- Read the line between two documents. -/
def readSeparator (stream : Stream) (sign : Sign) : Option Stream := do
  let stream ← (stream.closeBlocks (-1)).dropCandidate
  return { stream with keyAllowed := false }.pushSign 3 sign

/-- Read the opening bracket of a flow collection. -/
def readOpening (stream : Stream) (sign : Sign) : Option Stream := do
  let stream ← stream.saveCandidate
  if deepest ≤ stream.outerLevels.length then none
  else
    let stream := { stream with
      keyAllowed := true
      level := ⟨none, stream.number⟩
      outerLevels := stream.level :: stream.outerLevels }
    return stream.pushSign 1 sign

/-- Read the closing bracket of a flow collection. -/
def readClosing (stream : Stream) (sign : Sign) : Option Stream := do
  let stream ← stream.dropCandidate
  let stream := match stream.outerLevels with
    | [] => stream
    | outer :: rest => { stream with level := outer.behind stream.level, outerLevels := rest }
  return { stream with keyAllowed := false }.pushSign 1 sign

/-- Read the comma between the parts of a flow collection. -/
def readComma (stream : Stream) : Option Stream := do
  let stream ← stream.dropCandidate
  return { stream with keyAllowed := true }.pushSign 1 .comma

/-- Open a block at the current place, where one may start. -/
def openHere (stream : Stream) (sign : Sign) : Option Stream :=
  if stream.inFlow then some stream
  else if stream.keyAllowed then
    stream.openBlock stream.place.column stream.queue.length stream.place.line sign
  else none

/-- Read the dash before an item of a sequence. -/
def readItem (stream : Stream) : Option Stream := do
  let stream ← (← stream.openHere .blockSequence).dropCandidate
  return { stream with keyAllowed := true }.pushSign 1 .item

/-- Read the question mark before a key. -/
def readKey (stream : Stream) : Option Stream := do
  let stream ← (← stream.openHere .blockMapping).dropCandidate
  return { stream with keyAllowed := !stream.inFlow }.pushSign 1 .key

/-- Where tokens before a candidate are put into the queue. If the candidate has been handed out
already they come last. -/
def positionOf (stream : Stream) (candidate : Candidate) : Nat :=
  if candidate.number < stream.taken then stream.queue.length
  else candidate.number - stream.taken

/-- Read the colon before a value. The candidate before it, if there is one, is the key. -/
def readValue (stream : Stream) : Option Stream := do
  match ← stream.settledKey with
  | some candidate =>
    let stream := stream.insert (stream.positionOf candidate) candidate.line .key
    let stream ← stream.openBlock candidate.column (stream.positionOf candidate) candidate.line
      .blockMapping
    return { stream.withCandidate none with keyAllowed := false }.pushSign 1 .value
  | none =>
    let stream ← stream.openHere .blockMapping
    return { stream.withCandidate none with keyAllowed := !stream.inFlow }.pushSign 1 .value

/-- Read a quoted scalar. -/
def readQuoted (stream : Stream) (quote : Char) : Option Stream := do
  let stream ← stream.saveCandidate
  let (scalar, place) ← quotedScalar? quote stream.place
  return { stream.push scalar.line (.scalar scalar) with keyAllowed := false, place := place }

/-- Read a plain scalar. -/
def readPlain (stream : Stream) : Option Stream := do
  let stream ← stream.saveCandidate
  let indent := (stream.indent + 1).toNat
  let (scalar, broken, place) ← plainScalar? stream.inFlow indent stream.place
  return { stream.push scalar.line (.scalar scalar) with keyAllowed := broken, place := place }

/-- Go over a comment behind the last token. -/
def skipLineComment (stream : Stream) : Stream :=
  { stream with place := stream.place.skipLineComment }

/-- Read the token that starts with a character. -/
def readToken (stream : Stream) (c : Char) (rest : List Char) : Option Stream :=
  if c = '-' && atGap rest then stream.readItem
  else Option.map skipLineComment <|
    if c = '[' then stream.readOpening .openSequence
    else if c = '\x7b' then stream.readOpening .openMapping
    else if c = ']' then stream.readClosing .closeSequence
    else if c = '\x7d' then stream.readClosing .closeMapping
    else if c = ',' then stream.readComma
    else if c = '?' && (stream.inFlow || atGap rest) then stream.readKey
    else if c = ':' && (stream.inFlow || atGap rest) then stream.readValue
    else if c = '\'' || c = '"' then stream.readQuoted c
    else if startsPlain stream.inFlow (c :: rest) then stream.readPlain
    else none

/-- Read the next token, and the tokens that its column and its being a value add. -/
def readNext (stream : Stream) : Option Stream :=
  let (keyAllowed, place) :=
    stream.place.skipBlanks stream.inFlow (stream.place.rest.length + 1) stream.keyAllowed
  let stream := { stream with keyAllowed := keyAllowed, place := place }.closeBlocks place.column
  match place.rest with
  | [] => stream.readEnd
  | c :: rest =>
    if place.atSeparator then
      stream.readSeparator (if c = '-' then .documentStart else .documentEnd)
    else if place.column = 0 && c = '%' then none
    else stream.readToken c rest

/-! ## Handing out tokens -/

/-- How many tokens are read before the first of them is handed out. -/
def ahead : Nat := 3

/-- Whether the first token of the queue may still become a key; nothing if it had to become one
and did not. -/
def undecided (stream : Stream) : Option Bool :=
  match (stream.level :: stream.outerLevels).findSome? fun level =>
      level.candidate.filter fun candidate =>
        candidate.keptBack && candidate.number = stream.taken with
  | none => some false
  | some candidate =>
    if candidate.reaches stream.place then some true
    else if candidate.required then none
    else some false

/-- Read tokens until the first one is settled. Every token but the last has a character, so the
length of a key bounds how many there are. -/
def settle : Nat → Stream → Option Stream
  | 0, _ => none
  | fuel + 1, stream =>
    if stream.queue.length < ahead then stream.readNext.bind (settle fuel)
    else
      match stream.undecided with
      | none => none
      | some true => stream.readNext.bind (settle fuel)
      | some false => some stream

/-- The next token. -/
def peek (stream : Stream) : Option (Token × Stream) := do
  let stream ← settle (keyReach + 2 * ahead) stream
  let token ← stream.queue.head?
  return (token, stream)

/-- The stream behind its next token. -/
def next (stream : Stream) : Stream :=
  { stream with queue := stream.queue.tail, taken := stream.taken + 1 }

end Stream

end Redex.Markup
