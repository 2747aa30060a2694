import Redex.Markup.Token
import Redex.Text.Glyph

/-!
# Documents as trees

A document is a scalar, a sequence or a mapping, and the parts of sequences and mappings are again
such nodes. Both kinds of collection are written in two ways: as a block, by indentation, or as a
flow, in brackets. A part that is left out is the empty scalar.

Only the first document of a text is read. The text behind it need not make sense, as far as it
still falls into tokens where it is looked at.
-/

set_option autoImplicit false

namespace Redex.Markup

/-- A node of a document, a collection with the line it starts in. -/
inductive Node where
  | scalar (value : Scalar)
  | sequence (line : Nat) (items : List Node)
  | mapping (line : Nat) (entries : List (Node × Node))

/-- The scalar of a part that is left out. -/
def absent (line : Nat) : Node := .scalar ⟨line, "", false⟩

/-- A node and the stream behind it; nothing if the text is malformed. -/
abbrev Parsed := Option (Node × Stream)

mutual

/-- Read a node. A block may start only where `block` says so; an item may start a sequence that is
not indented only where `flat` says so. -/
def readNode : Nat → Bool → Bool → Stream → Parsed
  | 0, _, _, _ => none
  | fuel + 1, block, flat, stream => do
    let (token, stream) ← stream.peek
    match token.sign with
    | .scalar value => return (.scalar value, stream.next)
    | .openSequence => readFlowItems fuel token.line true [] stream.next
    | .openMapping => readFlowEntries fuel token.line true [] stream.next
    | .blockSequence => if block then readBlockItems fuel token.line [] stream.next else none
    | .blockMapping => if block then readBlockEntries fuel token.line [] stream.next else none
    | .item => if flat then readFlatItems fuel token.line [] stream else none
    | _ => none

/-- Read a node of a block, unless one of the signs in `ends` follows. -/
def readPart : Nat → Bool → Nat → List Sign → Stream → Parsed
  | 0, _, _, _, _ => none
  | fuel + 1, flat, line, ends, stream => do
    let (token, stream) ← stream.peek
    if ends.contains token.sign then return (absent line, stream)
    else readNode fuel true flat stream

/-- Read the items of a block sequence that started in `line`; those before stand in `items`, the
last one first. -/
def readBlockItems : Nat → Nat → List Node → Stream → Parsed
  | 0, _, _, _ => none
  | fuel + 1, line, items, stream => do
    let (token, stream) ← stream.peek
    match token.sign with
    | .item =>
      let (item, stream) ← readPart fuel false token.line [.item, .blockEnd] stream.next
      readBlockItems fuel line (item :: items) stream
    | .blockEnd => return (.sequence line items.reverse, stream.next)
    | _ => none

/-- Read the items of a sequence at the column of the keys around it. It ends with the next key. -/
def readFlatItems : Nat → Nat → List Node → Stream → Parsed
  | 0, _, _, _ => none
  | fuel + 1, line, items, stream => do
    let (token, stream) ← stream.peek
    match token.sign with
    | .item =>
      let (item, stream) ←
        readPart fuel false token.line [.item, .key, .value, .blockEnd] stream.next
      readFlatItems fuel line (item :: items) stream
    | _ => return (.sequence line items.reverse, stream)

/-- Read the entries of a block mapping that started in `line`; those before stand in `entries`,
the last one first. -/
def readBlockEntries : Nat → Nat → List (Node × Node) → Stream → Parsed
  | 0, _, _, _ => none
  | fuel + 1, line, entries, stream => do
    let (token, stream) ← stream.peek
    match token.sign with
    | .key =>
      let (key, stream) ← readPart fuel true token.line [.key, .value, .blockEnd] stream.next
      let (token, stream) ← stream.peek
      let (value, stream) ←
        if token.sign = .value then
          readPart fuel true token.line [.key, .value, .blockEnd] stream.next
        else some (absent token.line, stream)
      readBlockEntries fuel line ((key, value) :: entries) stream
    | .blockEnd => return (.mapping line entries.reverse, stream.next)
    | _ => none

/-- Read a node of a flow collection, unless a comma or the end of the collection follows. -/
def readFlowPart : Nat → List Sign → Stream → Parsed
  | 0, _, _ => none
  | fuel + 1, ends, stream => do
    let (token, stream) ← stream.peek
    if ends.contains token.sign then return (absent token.line, stream)
    else readNode fuel false false stream

/-- Read the value of an entry of a flow collection, which the given sign closes. -/
def readFlowValue : Nat → Sign → Stream → Parsed
  | 0, _, _ => none
  | fuel + 1, close, stream => do
    let (token, stream) ← stream.peek
    if token.sign = .value then readFlowPart fuel [.comma, close] stream.next
    else return (absent token.line, stream)

/-- Read the items of a flow sequence that started in `line`. An item may be an entry without
braces, which is a mapping of its own. -/
def readFlowItems : Nat → Nat → Bool → List Node → Stream → Parsed
  | 0, _, _, _, _ => none
  | fuel + 1, line, first, items, stream => do
    let (token, stream) ← stream.peek
    let stream ← if first || token.sign = .closeSequence then some stream
      else if token.sign = .comma then some stream.next
      else none
    let (token, stream) ← stream.peek
    match token.sign with
    | .closeSequence => return (.sequence line items.reverse, stream.next)
    | .key =>
      let (key, stream) ← readPairKey fuel stream.next
      let (value, stream) ← readFlowValue fuel .closeSequence stream
      readFlowItems fuel line false (.mapping token.line [(key, value)] :: items) stream
    | _ =>
      let (item, stream) ← readNode fuel false false stream
      readFlowItems fuel line false (item :: items) stream

/-- Read the key of an entry without braces. One that is left out takes the sign behind it along. -/
def readPairKey : Nat → Stream → Parsed
  | 0, _ => none
  | fuel + 1, stream => do
    let (token, stream) ← stream.peek
    if [.value, .comma, .closeSequence].contains token.sign then
      return (absent token.line, stream.next)
    else readNode fuel false false stream

/-- Read the entries of a flow mapping that started in `line`. -/
def readFlowEntries : Nat → Nat → Bool → List (Node × Node) → Stream → Parsed
  | 0, _, _, _, _ => none
  | fuel + 1, line, first, entries, stream => do
    let (token, stream) ← stream.peek
    let stream ← if first || token.sign = .closeMapping then some stream
      else if token.sign = .comma then some stream.next
      else none
    let (token, stream) ← stream.peek
    match token.sign with
    | .closeMapping => return (.mapping line entries.reverse, stream.next)
    | .key =>
      let (key, stream) ← readFlowPart fuel [.value, .comma, .closeMapping] stream.next
      let (value, stream) ← readFlowValue fuel .closeMapping stream
      readFlowEntries fuel line false ((key, value) :: entries) stream
    | _ =>
      let (key, stream) ← readNode fuel false false stream
      readFlowEntries fuel line false ((key, absent token.line) :: entries) stream

end

/-! ## Documents -/

/-- The characters without the mark of the byte order that may stand in front. -/
def dropOrderMark : List Char → List Char
  | '\ufeff' :: rest => rest
  | chars => chars

/-- The root of a document behind the line that starts it, if there is one. -/
def readRoot (fuel : Nat) (stream : Stream) : Parsed := do
  let (token, stream) ← stream.peek
  if token.sign = .documentStart then
    readPart fuel false token.line [.documentStart, .documentEnd, .streamEnd] stream.next
  else readNode fuel true false stream

/-- The first document of a text. The inner value is missing if there is none, the outer one if the
text is malformed. The token behind the document is looked at. -/
def parse? (text : Text) : Option (Option Node) := do
  let chars := dropOrderMark text.readable
  if text.unreadable.isEmpty && chars.all isAllowed then
    let (token, stream) ← (Stream.start chars).peek
    if token.sign = .streamEnd then return none
    else
      let (root, stream) ← readRoot (8 * chars.length + 16) stream
      let _ ← stream.peek
      return some root
  else none

end Redex.Markup
