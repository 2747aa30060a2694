import Redex.Reduction.Evaluation
import Redex.Term.Nameless
import Redex.Term.Printer
import Redex.Untagging

/-!
# Equality by normal forms

Two terms are compared up to renaming of bound variables and η-conversion. Both are applied to a
variable that neither mentions, are reduced to normal form, and are compared as nameless terms with
free variables by name. The reduction has a limit; a term whose reduction is cut off is compared as
far as it got.
-/

set_option autoImplicit false

namespace Redex

/-- The failure to name the variables of a normal form: the term, and the binder without a name. -/
structure NoCanonicalForm where
  term : Term Tagged
  cause : NamesExhausted
deriving DecidableEq, Repr

/-- The wording of the failure. -/
def NoCanonicalForm.message (failure : NoCanonicalForm) : String :=
  "canonical form of " ++ failure.term.print ++ ": " ++ failure.cause.message

/-- A name that no free variable of the two terms has. -/
def holeName (a b : Term Tagged) : Name :=
  Name.freshOutside ((a.free ++ b.free).map (·.name)) "_"

/-- A variable that neither term mentions, by name or by tag. -/
def hole (a b : Term Tagged) : Tagged := ⟨holeName a b, (Generator.above [a, b]).next.1⟩

/-- The normal form of a term applied to the hole. -/
def appliedReduct (limit : Nat) (x : Tagged) (t : Term Tagged) : Reduct :=
  run NormalForm.full.strategy limit (.app t (.var x))

/-- The reduct of a term applied to the hole, with names. -/
def canonicalForm (limit : Nat) (x : Tagged) (t : Term Tagged) :
    Except NoCanonicalForm (Term Name) :=
  (appliedReduct limit x t).term.untag.mapError fun cause => ⟨t, cause⟩

/-- Whether two terms have one canonical form. -/
def equal (limit : Nat) (a b : Term Tagged) : Except NoCanonicalForm Bool := do
  let left ← canonicalForm limit (hole a b) a
  let right ← canonicalForm limit (hole a b) b
  return left.printNameless == right.printNameless

end Redex
