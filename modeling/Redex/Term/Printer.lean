import Redex.Term.Basic

/-!
# Printed terms

A term is printed with the fewest parentheses that let it be read back: an application needs them
as an argument, a binder needs them as a function, as an argument and as the domain of a product.
-/

set_option autoImplicit false

namespace Redex.Term

variable {ι κ : Type}

/-- The place a subterm stands in, by how tightly it must hold together. -/
inductive Place where
  /-- The whole term, the body of a binder. -/
  | whole
  /-- The function of an application, the domain of a product. -/
  | head
  /-- The argument of an application. -/
  | argument
deriving DecidableEq, Repr

/-- A text in parentheses, if they are needed. -/
def enclose (needed : Bool) (text : String) : String :=
  if needed then "(" ++ text ++ ")" else text

/-- A term as printed in the given place. -/
def printAt [Identifier ι κ] (place : Place) : Term ι → String
  | var x => Identifier.label x
  | app fn arg =>
    enclose (place = .argument) (fn.printAt .head ++ " " ++ arg.printAt .argument)
  | abs x body =>
    enclose (place ≠ .whole) ("λ" ++ Identifier.label x ++ "." ++ body.printAt .whole)
  | pi x dom cod =>
    enclose (place ≠ .whole)
      ("π" ++ Identifier.label x ++ ":" ++ dom.printAt .head ++ "." ++ cod.printAt .whole)
  | sort u => u.sign

/-- A term as printed. -/
def print [Identifier ι κ] (t : Term ι) : String := t.printAt .whole

end Redex.Term
