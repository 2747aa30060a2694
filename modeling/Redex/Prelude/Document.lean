import Redex.Name
import Redex.Prelude.Arrangement
import Redex.Prelude.Mark
import Redex.Text.Glyph
import Redex.Text.NormalForm

/-!
# Prelude documents

A prelude is written as a document with one field, `definitions`: a record that gives each name the
text of its term. JSON documents are of this form, and so are documents in the lighter notation in
which the outer braces and the quotes of names may be left out, a line end may stand for a comma, a
comma may stand before a closing brace, `//` starts a comment, and the braces of a record with one
field may be left out:

```
definitions: {
  id: "λx.x"   // identity
  "pair": "λx y f.f x y"
}
definitions: const: "λx y.x"
```

A field may be written several times: records are put together, and texts have to be the same. The
entries of a record in braces without a name belong to the record around it. A name without quotes
that starts with `_` or `#` is hidden: it belongs to the document alone and defines nothing. Names
in quotes are read in normal form C. A document without the field defines nothing.
-/

set_option autoImplicit false

namespace Redex.Document

/-! ## Entries -/

/-- The name of a field. A hidden one is for the document alone. -/
structure Label where
  hidden : Bool
  name : Name
deriving DecidableEq, Repr

/-- An entry of a record: a field with a text, a field with a record, or a record without a name,
whose entries are joined to those around it. -/
inductive Entry where
  | text (label : Label) (value : String)
  | record (label : Label) (entries : List Entry)
  | joined (entries : List Entry)
deriving Repr

/-- A name in normal form. -/
def normalName (name : String) : Name := String.ofList (Text.normalForm name.toList)

/-- The name of a field that a mark stands for. A name in quotes is put in normal form. -/
def Mark.label? : Mark → Option Label
  | label name => some ⟨[some '_', some '#'].contains name.toList.head?, name⟩
  | text name => some ⟨false, normalName name⟩
  | _ => none

mutual

/-- Read the entries of a record, up to a closing brace or the end. -/
def entries : Nat → List Mark → Option (List Entry × List Mark)
  | 0, _ => none
  | _ + 1, [] => some ([], [])
  | _ + 1, .closing :: rest => some ([], .closing :: rest)
  | fuel + 1, marks => do
    let (first, rest) ← entry fuel marks
    match rest with
    | .comma :: rest =>
      let (others, rest) ← entries fuel rest
      return (first :: others, rest)
    | [] => return ([first], [])
    | .closing :: rest => return ([first], .closing :: rest)
    | _ => none

/-- Read one entry. -/
def entry : Nat → List Mark → Option (Entry × List Mark)
  | 0, _ => none
  | fuel + 1, .opening :: rest => do
    let (found, rest) ← record fuel rest
    return (.joined found, rest)
  | fuel + 1, name :: .colon :: rest => do value (← name.label?) fuel rest
  | _ + 1, _ => none

/-- Read the entries behind an opening brace and the closing one. -/
def record : Nat → List Mark → Option (List Entry × List Mark)
  | 0, _ => none
  | fuel + 1, marks => do
    let (found, rest) ← entries fuel marks
    match rest with
    | .closing :: rest => return (found, rest)
    | _ => none

/-- Read what a field holds: a text, a record, or one entry without braces around it. -/
def value (label : Label) : Nat → List Mark → Option (Entry × List Mark)
  | 0, _ => none
  | fuel + 1, .opening :: rest => do
    let (found, rest) ← record fuel rest
    return (.record label found, rest)
  | fuel + 1, .text name :: .colon :: rest => do
    let (found, rest) ← entry fuel (.text name :: .colon :: rest)
    return (.record label [found], rest)
  | _ + 1, .text value :: rest => some (.text label value, rest)
  | fuel + 1, marks => do
    let (found, rest) ← entry fuel marks
    return (.record label [found], rest)

end

/-! ## Facts -/

/-- What a document says about the place that a path of names leads to: the text that stands there,
or none if a record does. -/
structure Fact where
  path : List Label
  text : Option String
deriving DecidableEq, Repr

mutual

/-- What an entry of the record at a path says. -/
def Entry.facts (path : List Label) : Entry → List Fact
  | .text label value => [⟨path ++ [label], some value⟩]
  | .record label entries => ⟨path ++ [label], none⟩ :: factsOf (path ++ [label]) entries
  | .joined entries => factsOf path entries

/-- What the entries of the record at a path say. -/
def factsOf (path : List Label) : List Entry → List Fact
  | [] => []
  | first :: others => first.facts path ++ factsOf path others

end

/-- Whether two facts can hold together: one place has one text, and nothing below a text. -/
def Fact.agrees (fact other : Fact) : Bool :=
  if fact.path = other.path then fact.text = other.text
  else fact.text.isNone || !fact.path.isPrefixOf other.path

/-! ## Definitions -/

/-- The field that holds the definitions. -/
def definitionsLabel : Label := ⟨false, "definitions"⟩

/-- What a fact defines, which is nothing for a hidden field or the record of definitions itself.
Fails if it speaks of a place that a prelude does not have. -/
def Fact.definition? (fact : Fact) : Option (Option (Name × String)) :=
  if (fact.path.take 2).any (·.hidden) then some none
  else if fact.path.head? ≠ some definitionsLabel then none
  else
    match fact.path, fact.text with
    | [_], none => some none
    | [_, label], some source => some (some (label.name, source))
    | _, _ => none

/-! ## The order of definitions -/

/-- The name of a field. -/
def Entry.label? : Entry → Option Label
  | .text label _ | .record label _ => some label
  | .joined _ => none

mutual

/-- The names in the records that an entry joins to the record around it, a run for each. -/
def Entry.joinedRuns : Entry → List (List Label)
  | .joined entries => entries.filterMap Entry.label? :: joinedRuns entries
  | .text _ _ | .record _ _ => []

/-- The names in the records that entries join to the record around them. -/
def joinedRuns : List Entry → List (List Label)
  | [] => []
  | first :: others => first.joinedRuns ++ joinedRuns others

end

mutual

/-- The names in the records of definitions that an entry gives, a run for each record. A record
comes before those joined to it. -/
def Entry.definitionRuns : Entry → List (List Label)
  | .record label entries =>
    if label = definitionsLabel then entries.filterMap Entry.label? :: joinedRuns entries else []
  | .joined entries => definitionRuns entries
  | .text _ _ => []

/-- The names in the records of definitions that entries give. -/
def definitionRuns : List Entry → List (List Label)
  | [] => []
  | first :: others => first.definitionRuns ++ definitionRuns others

end

/-- The definitions that entries give, in the order in which their names are arranged. -/
def definitions? (document : List Entry) : Option (List (Name × String)) := do
  let facts := factsOf [] document
  if facts.all fun fact => facts.all fact.agrees then
    let found := (← facts.mapM Fact.definition?).filterMap id
    let visible := (arrange (definitionRuns document)).filter fun label => !label.hidden
    return (visible.map (·.name)).eraseDups.filterMap fun name =>
      (found.lookup name).map fun text => (name, text)
  else none

/-! ## Documents -/

/-- The characters of a document without the mark of the byte order that may stand in front. -/
def dropOrderMark : List Char → List Char
  | '\ufeff' :: rest => rest
  | chars => chars

/-- The named texts of a document, in the order in which they are to be read. -/
def parse? (document : Text) : Option (List (Name × String)) := do
  let chars := dropOrderMark document.readable
  if !document.unreadable.isEmpty || chars.any fun c => c = '\x00' || c = '\ufeff' then none
  else
    let all ← marks [] chars.length chars
    let (found, rest) ← entries (4 * all.length + 4) all
    if rest.isEmpty then definitions? found else none

end Redex.Document
