import Redex.Prelude.Resolution

/-!
# The built-in prelude

The combinators that come with the library: the usual closed terms, and truth values, numbers and
pairs as functions. Each is written with the names of the others.
-/

set_option autoImplicit false

namespace Redex.Prelude

/-- Combinators of one to three arguments, and two terms without a normal form. -/
def combinators : List (Name × String) := [
  ("I", "λx.x"),
  ("K", "λx y.x"),
  ("KI", "λx y.y"),
  ("S", "λx y z.x z (y z)"),
  ("B", "λf g x.f (g x)"),
  ("C", "λf x y.f y x"),
  ("W", "λf x.f x x"),
  ("M", "λx.x x"),
  ("omega", "M M"),
  ("Y", "λf.(λx.f (x x)) (λx.f (x x))")]

/-- Booleans. -/
def booleans : List (Name × String) := [
  ("T", "λt f.t"),
  ("F", "λt f.f"),
  ("and", "λp q.p q p"),
  ("or", "λp q.p p q"),
  ("not", "λp.p F T")]

/-- Numerals. -/
def numerals : List (Name × String) := [
  ("zero", "λf x.x"),
  ("one", "λf x.f x"),
  ("two", "λf x.f (f x)"),
  ("three", "λf x.f (f (f x))"),
  ("succ", "λn f x.f (n f x)"),
  ("plus", "λm n f x.m f (n f x)"),
  ("mult", "λm n f.m (n f)")]

/-- Pairs. -/
def pairs : List (Name × String) := [
  ("pair", "λx y f.f x y"),
  ("fst", "λp.p T"),
  ("snd", "λp.p F")]

/-- The texts of the built-in definitions. -/
def builtinTexts : List (Name × String) := combinators ++ booleans ++ numerals ++ pairs

/-- The built-in prelude, or the reason why there is none. -/
def builtin : Except PreludeError Prelude := ofTexts builtinTexts

end Redex.Prelude
