import Redex.Proofs.Reduction.Equality

/-!
# Terms that must compare equal

A comparison runs both terms, applied to one hole, and if both runs come to an end it has two normal
forms before it. By confluence these are equal as nameless terms if the applications are
β-convertible, and the written canonical forms are then equal too, although the runs invent tags of
their own. So β-convertible terms with canonical forms are never told apart, nor is a term from its
η-expansion, which turns into it on the hole.

The tags have to last. Beyond the largest tag a copy may claim the hole, and a comparison of
β-convertible terms then denies that they are equal (`equal_denies_betaConvertible`).
-/

set_option autoImplicit false

namespace Redex

open Term

/-- The image of an η-expansion is the η-expansion of the image, if the new variable is not free in
the term. -/
theorem Term.nameless_etaExpansion {φ : Type} (reading : Tagged → φ) {t : Term Tagged} {x : Tagged}
    (new : ∀ y, t.HasFree y → y.tag ≠ x.tag) :
    (abs x (app t (var x))).nameless reading = (t.nameless reading).etaExpand := by
  have body : t.namelessIn reading [x.tag] = (t.namelessIn reading []).shift :=
    namelessIn_cons_of_not_free reading new []
  have occurrence : (var x).namelessIn reading [x.tag] = .bound 0 :=
    namelessIn_var_cons_self reading rfl []
  exact congrArg Nameless.abs (congrArg₂ Nameless.app body occurrence)

section Compare

variable {limit : Nat} {a b : Term Tagged}

/-- Runs that come to an end have one normal form if they start from β-convertible terms. -/
theorem Probes.appliedImage_eq {x : Tagged} (left : Probes limit x a) (right : Probes limit x b)
    (fewer : (appliedReduct limit x a).steps < limit)
    (fewer' : (appliedReduct limit x b).steps < limit)
    (convertible : Nameless.BetaConvertible ((app a (var x)).nameless Tagged.name)
      ((app b (var x)).nameless Tagged.name)) :
    appliedImage limit x a = appliedImage limit x b :=
  Nameless.eq_of_betaConvertible convertible left.reduces right.reduces (left.normal fewer)
    (right.normal fewer')

/-- β-convertible terms are β-convertible on the hole. -/
theorem betaConvertible_applied (x : Tagged)
    (convertible : Nameless.BetaConvertible (a.nameless Tagged.name) (b.nameless Tagged.name)) :
    Nameless.BetaConvertible ((app a (var x)).nameless Tagged.name)
      ((app b (var x)).nameless Tagged.name) :=
  convertible.map (fun t => .app t (.free x.name)) fun step => .appFn _ step

/-- A term and its η-expansion are β-convertible on the hole. -/
theorem betaConvertible_applied_etaExpansion (x : Tagged)
    (expanded : b.nameless Tagged.name = (a.nameless Tagged.name).etaExpand) :
    Nameless.BetaConvertible ((app a (var x)).nameless Tagged.name)
      ((app b (var x)).nameless Tagged.name) := by
  have image : (app b (var x)).nameless Tagged.name =
      .app (a.nameless Tagged.name).etaExpand (.free x.name) :=
    congrArg (Nameless.app · (.free x.name)) expanded
  rw [image]
  exact .symm _ _ (.rel _ _ (Nameless.beta_app_etaExpand _ _))

end Compare

/-- **Terms that are β-convertible on the hole compare equal**, if their runs come to an end, the
results can be untagged and the tags last. This holds of all β-convertible terms, and of every term
and its η-expansion at the root, whatever bound names and tags the expansion has. -/
theorem equal_of_betaConvertible (limit : Nat) (a b : Term Tagged) (c d : Term Name)
    (tagged : a.WellTagged) (tagged' : b.WellTagged) (named : a.WellNamed) (named' : b.WellNamed)
    (suffice : TagsSufficeToCompare limit a b)
    (fewer : (appliedReduct limit (hole a b) a).steps < limit)
    (fewer' : (appliedReduct limit (hole a b) b).steps < limit)
    (untagged : (appliedReduct limit (hole a b) a).term.untag = .ok c)
    (untagged' : (appliedReduct limit (hole a b) b).term.untag = .ok d) :
    (Nameless.BetaConvertible ((Term.app a (.var (hole a b))).nameless Tagged.name)
        ((Term.app b (.var (hole a b))).nameless Tagged.name) → equal limit a b = .ok true) ∧
      (Nameless.BetaConvertible (a.nameless Tagged.name) (b.nameless Tagged.name) →
        equal limit a b = .ok true) ∧
      ∀ x : Tagged, (∀ y, a.HasFree y → y.tag ≠ x.tag) →
        AlphaEquivalent Tagged.name Tagged.name b (.abs x (.app a (.var x))) →
          equal limit a b = .ok true := by
  obtain ⟨left, right⟩ := suffice.probes tagged tagged' named named'
  have onHole : Nameless.BetaConvertible ((Term.app a (.var (hole a b))).nameless Tagged.name)
      ((Term.app b (.var (hole a b))).nameless Tagged.name) → equal limit a b = .ok true := by
    intro convertible
    exact (equal_eq_true_iff left right).2 ⟨⟨c, canonicalForm_eq_ok_iff.2 untagged⟩,
      ⟨d, canonicalForm_eq_ok_iff.2 untagged'⟩, left.appliedImage_eq right fewer fewer' convertible⟩
  refine ⟨onHole, fun convertible => onHole (betaConvertible_applied _ convertible), ?_⟩
  intro x new alike
  have expanded := (alphaEquivalent_iff_nameless_eq.1 alike).trans (nameless_etaExpansion _ new)
  exact onHole (betaConvertible_applied_etaExpansion _ expanded)

/-- `(λz.z) f`. -/
def delayedVariable : Term Tagged :=
  .app (.abs ⟨"z", 1⟩ (.var ⟨"z", 1⟩)) (.var ⟨"f", 2⟩)

/-- `λf.(λw.w) f f`, where the new variable has the name of the one that stays free. -/
def expandedVariable : Term Tagged :=
  .abs ⟨"f", 7⟩
    (.app (.app (.abs ⟨"w", 5⟩ (.var ⟨"w", 5⟩)) (.var ⟨"f", 3⟩)) (.var ⟨"f", 7⟩))

/-- An η-expansion with names and tags of its own compares equal. -/
theorem equal_of_betaConvertible_expandedVariable :
    ((delayedVariable.WellTagged ∧ delayedVariable.WellNamed) ∧
        (expandedVariable.WellTagged ∧ expandedVariable.WellNamed) ∧
        TagsSufficeToCompare 100 delayedVariable expandedVariable) ∧
      ((appliedReduct 100 (hole delayedVariable expandedVariable) delayedVariable).steps = 1 ∧
        (appliedReduct 100 (hole delayedVariable expandedVariable) expandedVariable).steps = 2) ∧
      AlphaEquivalent Tagged.name Tagged.name expandedVariable
        (.abs ⟨"g", 4⟩ (.app delayedVariable (.var ⟨"g", 4⟩))) ∧
      equal 100 delayedVariable expandedVariable = .ok true := by
  have tagged : delayedVariable.WellTagged := by decide
  have tagged' : expandedVariable.WellTagged := by decide
  have named : delayedVariable.WellNamed := by decide +kernel
  have named' : expandedVariable.WellNamed := by decide +kernel
  have suffice : TagsSufficeToCompare 100 delayedVariable expandedVariable := by decide_cbv
  have steps : (appliedReduct 100 (hole delayedVariable expandedVariable)
      delayedVariable).steps = 1 := by cbv
  have steps' : (appliedReduct 100 (hole delayedVariable expandedVariable)
      expandedVariable).steps = 2 := by cbv
  have alike : AlphaEquivalent Tagged.name Tagged.name expandedVariable
      (.abs ⟨"g", 4⟩ (.app delayedVariable (.var ⟨"g", 4⟩))) :=
    alphaEquivalent_iff_nameless_eq.2 (by decide +kernel)
  have new : ∀ y ∈ delayedVariable.freeOccurrences [], y.tag ≠ 4 := by decide
  have answer := (equal_of_betaConvertible 100 _ _ (.app (.var "f") (.var "_"))
    (.app (.var "f") (.var "_")) tagged tagged' named named' suffice (by rw [steps]; decide)
    (by rw [steps']; decide) (by cbv) (by cbv)).2.2 ⟨"g", 4⟩ new alike
  exact ⟨⟨⟨tagged, named⟩, ⟨tagged', named'⟩, suffice⟩, ⟨steps, steps'⟩, alike, answer⟩

/-- `λh.λz.h`, with the first two of the last tags. -/
def constantFunction : Term Tagged × Generator :=
  (Term.abs "h" (.abs "z" (.var "h"))).tagWith lastTags

/-- **Beyond the largest tag, β-convertible terms do not compare equal.** The hole gets the least
tag, and so does the copy of `λ_.h`, which claims the hole that is put in place of `h`. -/
theorem equal_denies_betaConvertible :
    ((firstOfTwo.1.WellTagged ∧ firstOfTwo.1.WellNamed) ∧
        (constantFunction.1.WellTagged ∧ constantFunction.1.WellNamed)) ∧
      ((appliedReduct 100 (hole firstOfTwo.1 constantFunction.1) firstOfTwo.1).steps < 100 ∧
        (appliedReduct 100 (hole firstOfTwo.1 constantFunction.1) constantFunction.1).steps
          < 100) ∧
      ((appliedReduct 100 (hole firstOfTwo.1 constantFunction.1) firstOfTwo.1).term.untag =
          .ok (.abs "_" (.var "_")) ∧
        (appliedReduct 100 (hole firstOfTwo.1 constantFunction.1) constantFunction.1).term.untag =
          .ok (.abs "z" (.var "_"))) ∧
      Nameless.BetaConvertible (firstOfTwo.1.nameless Tagged.name)
        (constantFunction.1.nameless Tagged.name) ∧
      equal 100 firstOfTwo.1 constantFunction.1 = .ok false := by
  refine ⟨⟨⟨by decide, by decide⟩, ⟨by decide, by decide⟩⟩, ⟨by cbv, by cbv⟩, ⟨by cbv, by cbv⟩, ?_,
    by cbv⟩
  have first : firstOfTwo.1.nameless Tagged.name =
      .abs (.app (.abs (.bound 0)) (.abs (.bound 1))) := by decide
  have second : constantFunction.1.nameless Tagged.name = .abs (.abs (.bound 1)) := by decide
  rw [first, second]
  exact .rel _ _ (.abs (.contract _ _))

end Redex
