import Redex.Term.Basic

/-!
# Nameless terms

In a nameless term a bound variable is the number of binders between it and its own, so terms that
differ only in bound identifiers have one nameless image. A free variable is kept as a value of any
type, chosen by the reader of the term: its label, its name or its tag.

The written form puts every application, abstraction and product in parentheses.
-/

set_option autoImplicit false

namespace Redex

/-- Terms whose bound variables are indices and whose free variables are values of `φ`. -/
inductive Nameless (φ : Type) where
  | bound (index : Nat)
  | free (x : φ)
  | app (fn arg : Nameless φ)
  | abs (body : Nameless φ)
  | pi (dom cod : Nameless φ)
  | sort (u : Universe)
deriving DecidableEq, Repr

/-- The nameless image of a term under the binders with the keys `scope`, the innermost first. An
occurrence belongs to the innermost binder of its key; what belongs to none is free and is read by
`reading`. -/
def Term.namelessIn {ι κ φ : Type} [Identifier ι κ] [DecidableEq κ] (reading : ι → φ)
    (scope : List κ) : Term ι → Nameless φ
  | .var x =>
    match scope.idxOf? (Identifier.key x) with
    | some index => .bound index
    | none => .free (reading x)
  | .app fn arg => .app (fn.namelessIn reading scope) (arg.namelessIn reading scope)
  | .abs x body => .abs (body.namelessIn reading (Identifier.key x :: scope))
  | .pi x dom cod =>
    .pi (dom.namelessIn reading scope) (cod.namelessIn reading (Identifier.key x :: scope))
  | .sort u => .sort u

/-- The nameless image of a term. -/
def Term.nameless {ι κ φ : Type} [Identifier ι κ] [DecidableEq κ] (reading : ι → φ)
    (t : Term ι) : Nameless φ :=
  t.namelessIn reading []

/-- The written form of a nameless term whose free variables are labels. -/
def Nameless.print : Nameless String → String
  | bound index => toString index
  | free label => label
  | app fn arg => "(" ++ fn.print ++ " " ++ arg.print ++ ")"
  | abs body => "(λ." ++ body.print ++ ")"
  | pi dom cod => "(π:" ++ dom.print ++ "." ++ cod.print ++ ")"
  | sort u => u.sign

/-- The written form of the nameless image, free variables shown by their labels. -/
def Term.printNameless {ι κ : Type} [Identifier ι κ] [DecidableEq κ] (t : Term ι) : String :=
  (t.nameless fun x : ι => Identifier.label x).print

end Redex
