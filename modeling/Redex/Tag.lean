import Redex.Name

/-!
# Tags

A tagged identifier is a name together with a tag, and it is the tag alone that decides which
variable it is; the name is kept for display. Tags are signed 64-bit words. A generator counts up
and hands out the word of its count, so its tags are distinct and come after the last one it gave
until the count passes the largest word; from there on the words wrap while the count goes on.
-/

set_option autoImplicit false

namespace Redex

/-- What decides the identity of a tagged identifier. -/
abbrev Tag := Int64

/-- A tag in decimal. -/
def Tag.print (tag : Tag) : String := toString tag.toInt

/-- A name with a tag. -/
structure Tagged where
  name : Name
  tag : Tag
deriving DecidableEq, Repr

instance : Identifier Tagged Tag where
  key x := x.tag
  label x := x.name ++ "#" ++ x.tag.print

/-- A source of tags, which remembers the number whose word it gave last. -/
structure Generator where
  count : Int
deriving DecidableEq, Repr

namespace Generator

/-- The generator whose first tag is one. -/
def start : Generator := ⟨0⟩

/-- The next tag, and the generator after it. -/
def next (gen : Generator) : Tag × Generator := (Int64.ofInt (gen.count + 1), ⟨gen.count + 1⟩)

/-- The generator after handing out some tags. -/
def skip (gen : Generator) (count : Nat) : Generator := ⟨gen.count + count⟩

/-- The greatest of some tags, and zero if there are none. -/
def greatest : List Tag → Tag
  | [] => 0
  | tag :: rest => rest.foldl (fun a b => if a < b then b else a) tag

/-- The generator whose tags come after every tag, free or bound, in the given terms. -/
def above (terms : List (Term Tagged)) : Generator :=
  ⟨(greatest (terms.flatMap fun t => t.identifiers.map Tagged.tag)).toInt⟩

end Generator

/-- The free variables of a tagged term, sorted by tag. -/
def Term.freeTagged (t : Term Tagged) : List Tagged :=
  t.free.mergeSort fun a b => !decide (b.tag < a.tag)

end Redex
