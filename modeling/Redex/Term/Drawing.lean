import Redex.Term.Basic

/-!
# Drawn terms

A term drawn as a tree, one node a line: the label of the node after a branch, and the lines of
its children below it, indented. The last child hangs from a corner, the others from a fork with
a line down to the next one.
-/

set_option autoImplicit false

namespace Redex.Term

variable {ι κ : Type} [Identifier ι κ]

/-- What is written at the node of a term. -/
def node : Term ι → String
  | var x => Identifier.label x
  | app _ _ => "@"
  | abs x _ => "λ" ++ Identifier.label x
  | pi x _ _ => "π" ++ Identifier.label x
  | sort u => u.sign

/-- The lines below the node of a term, each after `indent`. -/
def drawBelow (indent : String) : Term ι → String
  | var _ => ""
  | app fn arg =>
    indent ++ "├─" ++ fn.node ++ "\n" ++ fn.drawBelow (indent ++ "│ ") ++
      indent ++ "└─" ++ arg.node ++ "\n" ++ arg.drawBelow (indent ++ "  ")
  | abs _ body => indent ++ "└─" ++ body.node ++ "\n" ++ body.drawBelow (indent ++ "  ")
  | pi _ dom cod =>
    indent ++ "├─" ++ dom.node ++ "\n" ++ dom.drawBelow (indent ++ "│ ") ++
      indent ++ "└─" ++ cod.node ++ "\n" ++ cod.drawBelow (indent ++ "  ")
  | sort _ => ""

/-- A term drawn as a tree. -/
def draw (t : Term ι) : String := t.node ++ "\n" ++ t.drawBelow ""

end Redex.Term
