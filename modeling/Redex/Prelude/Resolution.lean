import Redex.Prelude.Basic
import Redex.Prelude.Document
import Redex.Syntax.Parser

/-!
# Resolution of definitions

A definition may use other definitions by name. Resolving a name first resolves every name its term
mentions, then expands the term with what has been resolved; afterwards the term must be closed. A
definition that is met again while it is being resolved refers to itself, directly or through
others.

The names are taken in sorted order. The free variables of a term are a set, so the order in which
the references of one definition are followed is a parameter, `arrange`, which may choose anew for
each definition; the order in which they are met in the term is used if nothing else is said.
-/

set_option autoImplicit false

namespace Redex

/-- The causes for which a prelude is refused. -/
inductive PreludeError where
  /-- The document is not a record of definitions. -/
  | invalidDocument
  /-- The text of a definition is not a term. -/
  | unreadable (name : Name) (error : SyntaxError)
  /-- A definition refers to itself. -/
  | cyclic (name : Name)
  /-- A definition mentions names, here sorted, that are not defined. -/
  | unbound (name : Name) (mentioned : List Name)
deriving DecidableEq, Repr

/-- The wording of an error. -/
def PreludeError.message : PreludeError → String
  | invalidDocument => "the document is not a record of definitions"
  | unreadable name error => "definition " ++ name ++ ": " ++ error.message
  | cyclic name => "definition " ++ name ++ ": cyclic definition"
  | unbound name mentioned =>
    "definition " ++ name ++ " mentions [" ++ String.intercalate " " mentioned ++
      "]: open definition"

namespace Prelude

/-- Definitions as they are written. -/
abbrev Raw := List (Name × Term Name)

/-- The definitions other than that of a name. -/
def Raw.without (raw : Raw) (name : Name) : Raw := raw.filter (·.1 ≠ name)

theorem Raw.length_without_lt {raw : Raw} {name : Name} {t : Term Name}
    (found : raw.lookup name = some t) : (raw.without name).length < raw.length := by
  induction raw with
  | nil => simp at found
  | cons entry rest ih =>
    obtain ⟨other, u⟩ := entry
    simp only [List.lookup_cons] at found
    by_cases same : other = name
    · subst same
      simp only [without, List.filter_cons, ne_eq, not_true_eq_false, decide_false,
        Bool.false_eq_true, if_false, List.length_cons]
      exact Nat.lt_succ_of_le (List.length_filter_le _ _)
    · have differs : (name == other) = false := by simpa using fun h : name = other => same h.symm
      rw [differs] at found
      have shorter := ih found
      simp only [without, List.filter_cons, ne_eq, same, not_false_eq_true, decide_true, if_true,
        List.length_cons] at shorter ⊢
      omega

/-- Resolve one name. The definitions that are not being resolved yet are `unvisited`. -/
def resolve (arrange : Name → List Name → List Name) (raw unvisited : Raw) (p : Prelude)
    (name : Name) : Except PreludeError Prelude :=
  if (p.lookup? name).isSome then .ok p
  else
    match _found : unvisited.lookup name with
    | none => .error (.cyclic name)
    | some t => do
      let references := (arrange name t.free).filter fun x => (raw.lookup x).isSome
      let p ← references.foldlM (resolve arrange raw (unvisited.without name)) p
      let expanded := p.expand t
      match expanded.freeNames with
      | [] => .ok (p.define name expanded)
      | mentioned => .error (.unbound name mentioned)
termination_by unvisited.length
decreasing_by exact Raw.length_without_lt _found

/-- Resolve every name, in sorted order. -/
def resolveAllBy (arrange : Name → List Name → List Name) (raw : Raw) :
    Except PreludeError Prelude :=
  (Name.sorted (raw.map (·.1))).foldlM (resolve arrange raw raw) empty

/-- Resolve every name, following references as they are met. -/
def resolveAll (raw : Raw) : Except PreludeError Prelude := resolveAllBy (fun _ => id) raw

/-- Read the texts of definitions, in the order in which they are given. -/
def readAll (texts : List (Name × String)) : Except PreludeError Raw :=
  texts.mapM fun (name, text) =>
    match Term.parse (.ofString text) with
    | .ok t => .ok (name, t)
    | .error error => .error (.unreadable name error)

/-- Make a prelude from the texts of definitions. -/
def ofTexts (texts : List (Name × String)) : Except PreludeError Prelude := do
  resolveAll (← readAll texts)

/-- Make a prelude from a document. -/
def compile (document : Text) : Except PreludeError Prelude :=
  match Document.parse? document with
  | none => .error .invalidDocument
  | some texts => ofTexts texts

end Prelude

end Redex
