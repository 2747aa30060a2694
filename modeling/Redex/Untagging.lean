import Redex.Tag

/-!
# Untagging

Untagging turns a tagged term back into a term with names. An occurrence keeps its name unless its
binder had to be renamed, and a binder is renamed only when its scope mentions another variable
that would be printed with the binder's name.

The new name of a binder occurs nowhere in its scope. A name of several characters is counted up
until it is free. A name of one character is replaced by a letter: the first one in alphabetical
order, lower case before upper case, that is free and stands after every letter already given to a
binder around it. When no letter is left, untagging fails.

Renamings are handed down: a binder's choice holds in its own scope, and branches beside each
other choose on their own.
-/

set_option autoImplicit false

namespace Redex

/-- No letter is left for a binder of this name. -/
structure NamesExhausted where
  name : Name
deriving DecidableEq, Repr

/-- The wording of the failure. -/
def NamesExhausted.message (failure : NamesExhausted) : String :=
  "renaming " ++ failure.name ++ ": display names exhausted"

/-- The new names of the binders renamed so far, by tag. -/
abbrev Renaming := List (Tag × Name)

namespace Renaming

/-- The name an identifier is printed with. -/
def display (renamed : Renaming) (x : Tagged) : Name := (renamed.lookup x.tag).getD x.name

/-- The renaming that gives `name` to `tag` in place of any name it had. -/
def give (renamed : Renaming) (tag : Tag) (name : Name) : Renaming :=
  (tag, name) :: renamed.filter (·.1 ≠ tag)

/-- Whether a variable other than `x` that occurs in the scope is printed with the name of `x`. -/
def collides (renamed : Renaming) (x : Tagged) (scope : Term Tagged) : Bool :=
  scope.occurrences.any fun y => decide (y.tag ≠ x.tag) && renamed.display y == x.name

/-- The names a new name has to differ from: those given around the scope, and those of the
identifiers in it, before and after renaming. -/
def taken (renamed : Renaming) (scope : Term Tagged) : List Name :=
  renamed.map (·.2) ++ scope.identifiers.flatMap fun y => [y.name, renamed.display y]

/-- The names of one letter, in the order in which they are tried. -/
def alphabet : List Name :=
  "abcdefghijklmnopqrstuvwxyzABCDEFGHIJKLMNOPQRSTUVWXYZ".toList.map String.singleton

/-- How many letters stand before or at the last letter given so far. -/
def lettersUsed (renamed : Renaming) : Nat :=
  (renamed.filterMap fun entry => alphabet.idxOf? entry.2).foldl (fun used i => max used (i + 1)) 0

/-- A new name for a binder of the given name, outside the taken names. -/
def pick (renamed : Renaming) (takenNames : List Name) (name : Name) :
    Except NamesExhausted Name :=
  if 1 < name.length then .ok (name.fresh.freshOutside takenNames)
  else
    match (alphabet.drop renamed.lettersUsed).find? (· ∉ takenNames) with
    | some letter => .ok letter
    | none => .error ⟨name⟩

/-- The name a binder is printed with, and the renaming that holds in its scope. -/
def enter (renamed : Renaming) (x : Tagged) (scope : Term Tagged) :
    Except NamesExhausted (Name × Renaming) :=
  if renamed.collides x scope then do
    let name ← renamed.pick (renamed.taken scope) x.name
    return (name, renamed.give x.tag name)
  else .ok (x.name, renamed)

end Renaming

/-- Untag a term where the binders around it are renamed as given. -/
def Term.untagIn (renamed : Renaming) : Term Tagged → Except NamesExhausted (Term Name)
  | .var x => .ok (.var (renamed.display x))
  | .app fn arg => do
    let fn ← fn.untagIn renamed
    let arg ← arg.untagIn renamed
    return .app fn arg
  | .abs x body => do
    let (name, inner) ← renamed.enter x body
    let body ← body.untagIn inner
    return .abs name body
  | .pi x dom cod => do
    let dom ← dom.untagIn renamed
    let (name, inner) ← renamed.enter x cod
    let cod ← cod.untagIn inner
    return .pi name dom cod
  | .sort u => .ok (.sort u)

/-- Untag a term. -/
def Term.untag (t : Term Tagged) : Except NamesExhausted (Term Name) := t.untagIn []

end Redex
