import Redex.Term.Basic

/-!
# Identifiers of a term

The identifiers of a term in the order in which they are written: all of them, the occurrences of
variables only, and the occurrences that no binder around them claims. An occurrence is claimed
by a binder when the two have the same key; a product claims occurrences in its codomain only.
-/

set_option autoImplicit false

namespace Redex.Term

variable {ι κ : Type}

/-- All identifiers, binders included, from left to right. -/
def identifiers : Term ι → List ι
  | var x => [x]
  | app fn arg => fn.identifiers ++ arg.identifiers
  | abs x body => x :: body.identifiers
  | pi x dom cod => x :: (dom.identifiers ++ cod.identifiers)
  | sort _ => []

/-- The occurrences of variables, from left to right. -/
def occurrences : Term ι → List ι
  | var x => [x]
  | app fn arg => fn.occurrences ++ arg.occurrences
  | abs _ body => body.occurrences
  | pi _ dom cod => dom.occurrences ++ cod.occurrences
  | sort _ => []

section Free

variable [Identifier ι κ] [DecidableEq κ]

/-- The occurrences whose key is not among `bound` and that no binder of the term claims. -/
def freeOccurrences (bound : List κ) : Term ι → List ι
  | var x => if Identifier.key x ∈ bound then [] else [x]
  | app fn arg => fn.freeOccurrences bound ++ arg.freeOccurrences bound
  | abs x body => body.freeOccurrences (Identifier.key x :: bound)
  | pi x dom cod =>
    dom.freeOccurrences bound ++ cod.freeOccurrences (Identifier.key x :: bound)
  | sort _ => []

/-- The first identifier of each key. -/
def firstOfEach : List ι → List ι
  | [] => []
  | x :: rest =>
    x :: (firstOfEach rest).filter fun y => decide (Identifier.key y ≠ Identifier.key x)

/-- The free variables, in the order in which they are met. -/
def free (t : Term ι) : List ι := firstOfEach (t.freeOccurrences [])

end Free

end Redex.Term
