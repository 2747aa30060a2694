import Redex.Tag

/-!
# Substitution in tagged terms

A variable is replaced wherever its tag occurs, without any renaming. Replacing stops at a binder
of the same tag, whose scope cannot mention the outer variable; the domain of a product is outside
that scope.

When a redex is contracted, every occurrence of the bound variable receives a copy of the argument
of its own, in which each binder has a new tag. So a term that no two binders share a tag in stays
such a term, however often its parts are copied, and replacing without renaming captures nothing.
-/

set_option autoImplicit false

namespace Redex.Term

/-- A copy in which each binder has a new tag of `gen`. An occurrence follows the innermost binder
of its tag inside the term to its new tag, as listed in `renewed`; other occurrences stay. -/
def retag (renewed : List (Tag × Tag)) : Term Tagged → Generator → Term Tagged × Generator
  | var x, gen =>
    match renewed.lookup x.tag with
    | some tag => (var ⟨x.name, tag⟩, gen)
    | none => (var x, gen)
  | app fn arg, gen =>
    let (fn, gen) := fn.retag renewed gen
    let (arg, gen) := arg.retag renewed gen
    (app fn arg, gen)
  | abs x body, gen =>
    let (tag, gen) := gen.next
    let (body, gen) := body.retag ((x.tag, tag) :: renewed) gen
    (abs ⟨x.name, tag⟩ body, gen)
  | pi x dom cod, gen =>
    let (dom, gen) := dom.retag renewed gen
    let (tag, gen) := gen.next
    let (cod, gen) := cod.retag ((x.tag, tag) :: renewed) gen
    (pi ⟨x.name, tag⟩ dom cod, gen)
  | sort u, gen => (sort u, gen)

/-- The term with each occurrence of the tag `x` replaced by a retagged copy of `value`, the copies
made from left to right. -/
def instantiate (x : Tag) (value : Term Tagged) :
    Term Tagged → Generator → Term Tagged × Generator
  | var y, gen => if y.tag = x then value.retag [] gen else (var y, gen)
  | app fn arg, gen =>
    let (fn, gen) := instantiate x value fn gen
    let (arg, gen) := instantiate x value arg gen
    (app fn arg, gen)
  | abs y body, gen =>
    if y.tag = x then (abs y body, gen)
    else
      let (body, gen) := instantiate x value body gen
      (abs y body, gen)
  | pi y dom cod, gen =>
    let (dom, gen) := instantiate x value dom gen
    if y.tag = x then (pi y dom cod, gen)
    else
      let (cod, gen) := instantiate x value cod gen
      (pi y dom cod, gen)
  | sort u, gen => (sort u, gen)

/-- The term with each occurrence of the tag `x` replaced by `value` itself. -/
def replace (x : Tag) (value : Term Tagged) : Term Tagged → Term Tagged
  | var y => if y.tag = x then value else var y
  | app fn arg => app (replace x value fn) (replace x value arg)
  | abs y body => if y.tag = x then abs y body else abs y (replace x value body)
  | pi y dom cod =>
    pi y (replace x value dom) (if y.tag = x then cod else replace x value cod)
  | sort u => sort u

/-- The failure to substitute into a term that is not an abstraction. -/
structure NotAbstraction where
deriving DecidableEq, Repr

/-- The wording of the failure. -/
def NotAbstraction.message (_ : NotAbstraction) : String :=
  "reduce: only an abstraction can be substituted"

/-- The body of an abstraction with `value` in place of the bound variable. -/
def substitute (abstraction value : Term Tagged) : Except NotAbstraction (Term Tagged) :=
  match abstraction with
  | abs x body => .ok (replace x.tag value body)
  | _ => .error {}

end Redex.Term
