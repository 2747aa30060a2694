import Redex.Name
import Redex.Term.Occurrence

/-!
# Preludes

A prelude gives names to terms. Expanding a term replaces each free occurrence of a defined name by
its definition, as it stands: a binder of that name hides the definition in its scope, and nothing
is renamed, which is right because definitions are closed.
-/

set_option autoImplicit false

namespace Redex

/-- Named terms. -/
structure Prelude where
  definitions : List (Name × Term Name)
deriving DecidableEq, Repr

namespace Prelude

/-- The prelude without definitions. -/
def empty : Prelude := ⟨[]⟩

/-- The definition of a name. -/
def lookup? (p : Prelude) (name : Name) : Option (Term Name) := p.definitions.lookup name

/-- The defined names, sorted. -/
def names (p : Prelude) : List Name := Name.sorted (p.definitions.map (·.1))

/-- One more definition. -/
def define (p : Prelude) (name : Name) (t : Term Name) : Prelude := ⟨(name, t) :: p.definitions⟩

/-- Expand a term that stands under binders of the names `bound`. -/
def expandIn (p : Prelude) (bound : List Name) : Term Name → Term Name
  | .var x => if x ∈ bound then .var x else (p.lookup? x).getD (.var x)
  | .app fn arg => .app (p.expandIn bound fn) (p.expandIn bound arg)
  | .abs x body => .abs x (p.expandIn (x :: bound) body)
  | .pi x dom cod => .pi x (p.expandIn bound dom) (p.expandIn (x :: bound) cod)
  | .sort u => .sort u

/-- Replace every free occurrence of a defined name by its definition. -/
def expand (p : Prelude) (t : Term Name) : Term Name := p.expandIn [] t

end Prelude

end Redex
