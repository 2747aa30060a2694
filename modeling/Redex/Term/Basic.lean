/-!
# Terms

Terms of the untyped λ-calculus over an arbitrary type of identifiers, with dependent products
and two sorts beside variables, applications and abstractions. Products and sorts belong to the
surface language and are inert under reduction.

What an identifier is differs between the two kinds of terms used here: in a term as it is
written, two identifiers are the same variable when they are spelled alike; in a tagged term, when
they carry the same tag. The class `Identifier` names what decides identity (`key`) and what is
printed (`label`).
-/

set_option autoImplicit false

namespace Redex

/-- The two sorts of the surface language. -/
inductive Universe where
  | star
  | box
deriving DecidableEq, Repr

/-- The sign a sort is written with. -/
def Universe.sign : Universe → String
  | star => "*"
  | box => "□"

/-- Terms over the identifiers `ι`. A product `pi x dom cod` binds `x` in `cod` only. -/
inductive Term (ι : Type) where
  | var (x : ι)
  | app (fn arg : Term ι)
  | abs (x : ι) (body : Term ι)
  | pi (x : ι) (dom cod : Term ι)
  | sort (u : Universe)
deriving DecidableEq, Repr

instance {ι : Type} : Inhabited (Term ι) := ⟨.sort .star⟩

/-- Identifiers of type `ι`: two of them are one variable when their keys agree, and an identifier
is printed as its label. -/
class Identifier (ι : Type) (κ : outParam Type) where
  /-- What decides identity. -/
  key : ι → κ
  /-- What is printed. -/
  label : ι → String

namespace Term

variable {ι κ : Type}

/-- The application of `fn` to several arguments, nested to the left. -/
def applyAll (fn : Term ι) (args : List (Term ι)) : Term ι := args.foldl app fn

/-- The abstraction over several identifiers, the first one outermost. -/
def absAll (names : List ι) (body : Term ι) : Term ι := names.foldr abs body

/-- The number of nodes of a term. -/
def size : Term ι → Nat
  | var _ => 1
  | app fn arg => fn.size + arg.size + 1
  | abs _ body => body.size + 1
  | pi _ dom cod => dom.size + cod.size + 1
  | sort _ => 1

/-- The same term over other identifiers. -/
def map {ι' : Type} (f : ι → ι') : Term ι → Term ι'
  | var x => var (f x)
  | app fn arg => app (fn.map f) (arg.map f)
  | abs x body => abs (f x) (body.map f)
  | pi x dom cod => pi (f x) (dom.map f) (cod.map f)
  | sort u => sort u

/-- Whether two terms are the same tree, identifiers compared by key. Bound identifiers are not
renamed, so `λx.x` and `λy.y` differ. -/
def same [Identifier ι κ] [DecidableEq κ] : Term ι → Term ι → Bool
  | var x, var y => decide (Identifier.key x = Identifier.key y)
  | app fn arg, app fn' arg' => fn.same fn' && arg.same arg'
  | abs x body, abs y body' =>
    decide (Identifier.key x = Identifier.key y) && body.same body'
  | pi x dom cod, pi y dom' cod' =>
    decide (Identifier.key x = Identifier.key y) && dom.same dom' && cod.same cod'
  | sort u, sort v => decide (u = v)
  | _, _ => false

end Term

end Redex
