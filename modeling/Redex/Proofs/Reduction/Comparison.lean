import Redex.Proofs.Reduction.Equality
import Redex.Proofs.Reduction.Images

/-!
# Comparing is an equivalence

Two terms are compared by what they do with a hole, and the hole is made anew for each pair: its
name avoids the free names of both terms, and its tag comes after all of their tags. So three
comparisons among three terms run six different applications.

What a run comes to does not depend on the hole. If the hole is read as a variable apart from all
names (`setApart`), the nameless image of a term applied to it is the same for every hole, and so is
the image of the run, under any limit (`Probes.nameless_appliedReduct`). A term then has an outcome
of its own, which depends on the term only up to bound names and tags. Two terms compare equal if
and only if they have one outcome (`Answers.eq_true_iff`), and that makes the comparison an
equivalence, also where runs are cut off.
-/

set_option autoImplicit false

namespace Redex

open Term

/-! ## Reading an image in another way -/

namespace Term

variable {ι κ φ ψ : Type} [Identifier ι κ] [DecidableEq κ]

/-- Readings that agree where the term has free occurrences give one image. -/
theorem namelessIn_congr {reading reading' : ι → φ} (t : Term ι) :
    ∀ {scope : List κ},
      (∀ y, t.HasFree y → Identifier.key y ∉ scope → reading y = reading' y) →
        t.namelessIn reading scope = t.namelessIn reading' scope := by
  induction t with
  | var y =>
      intro scope agree
      rw [namelessIn, namelessIn]
      cases found : scope.idxOf? (Identifier.key y) with
      | none =>
          have read := agree y (hasFree_var.2 rfl) (List.idxOf?_eq_none_iff.1 found)
          exact congrArg Nameless.free read
      | some index => rfl
  | app fn arg ihFn ihArg =>
      intro scope agree
      rw [namelessIn, namelessIn, ihFn fun y free => agree y (hasFree_app.2 (.inl free)),
        ihArg fun y free => agree y (hasFree_app.2 (.inr free))]
  | abs x body ih =>
      intro scope agree
      rw [namelessIn, namelessIn, ih fun y free unclaimed => agree y
        (hasFree_abs.2 ⟨free, List.ne_of_not_mem_cons unclaimed⟩)
        (List.not_mem_of_not_mem_cons unclaimed)]
  | pi x dom cod ihDom ihCod =>
      intro scope agree
      rw [namelessIn, namelessIn, ihDom fun y free => agree y (hasFree_pi.2 (.inl free)),
        ihCod fun y free unclaimed => agree y
          (hasFree_pi.2 (.inr ⟨free, List.ne_of_not_mem_cons unclaimed⟩))
          (List.not_mem_of_not_mem_cons unclaimed)]
  | sort u =>
      intro scope _
      rfl

/-- Free variables may be read in two stages. -/
theorem bindFree_namelessIn (f : φ → ψ) (reading : ι → φ) (t : Term ι) :
    ∀ scope : List κ,
      (t.namelessIn reading scope).bindFree (fun x => .free (f x)) =
        t.namelessIn (fun y => f (reading y)) scope := by
  induction t with
  | var y =>
      intro scope
      rw [namelessIn, namelessIn]
      cases scope.idxOf? (Identifier.key y) with
      | none => rfl
      | some index => rfl
  | app fn arg ihFn ihArg =>
      intro scope
      rw [namelessIn, namelessIn, Nameless.bindFree, ihFn, ihArg]
  | abs x body ih =>
      intro scope
      exact congrArg Nameless.abs (ih _)
  | pi x dom cod ihDom ihCod =>
      intro scope
      exact congrArg₂ Nameless.pi (ihDom scope) (ihCod _)
  | sort u =>
      intro scope
      rfl

/-- Images that are equal stay so when their free variables are read further. -/
theorem nameless_eq_of_nameless_eq (f : φ → ψ) {reading : ι → φ} {t u : Term ι}
    (same : t.nameless reading = u.nameless reading) :
    t.nameless (fun y => f (reading y)) = u.nameless fun y => f (reading y) := by
  have further := congrArg (Nameless.bindFree fun x => .free (f x)) same
  rwa [nameless, nameless, bindFree_namelessIn, bindFree_namelessIn] at further

end Term

/-! ## Outcomes -/

/-- The hole is no name, and every other name is itself. -/
def setApart (hole name : Name) : Option Name := if name = hole then none else some name

theorem setApart_self (hole : Name) : setApart hole hole = none := if_pos rfl

theorem setApart_of_ne {hole name : Name} (other : name ≠ hole) :
    setApart hole name = some name :=
  if_neg other

theorem getD_setApart (hole name : Name) : (setApart hole name).getD hole = name := by
  by_cases same : name = hole
  · rw [same, setApart_self, Option.getD_none]
  · rw [setApart_of_ne same, Option.getD_some]

/-- What a term comes to when it is applied to a variable apart from all names. -/
def outcome (limit : Nat) (t : Term Tagged) : Nameless (Option Name) :=
  ((Nameless.app (t.nameless fun y => some y.name) (.free none)).reduce
    NormalForm.full.strategy limit).1

/-- **Bound names and tags do not matter for the outcome.** -/
theorem outcome_eq_of_alphaEquivalent (limit : Nat) {a a' : Term Tagged}
    (alike : AlphaEquivalent Tagged.name Tagged.name a a') : outcome limit a = outcome limit a' := by
  have same := alphaEquivalent_iff_nameless_eq.1 alike
  rw [outcome, outcome, nameless_eq_of_nameless_eq some same]

namespace Probes

variable {limit : Nat} {x : Tagged} {t t' : Term Tagged}

/-- **The outcome does not depend on the hole.** -/
theorem nameless_appliedReduct (probes : Probes limit x t) :
    (appliedReduct limit x t).term.nameless (fun y => setApart x.name y.name) =
      outcome limit t := by
  have image := reduce_nameless (fun y => setApart x.name y.name) probes.tagged probes.suffice
  have inTerm : t.nameless (fun y => setApart x.name y.name) = t.nameless fun y => some y.name :=
    namelessIn_congr t fun y free _ => setApart_of_ne (probes.fresh y free)
  have start : (app t (var x)).nameless (fun y => setApart x.name y.name) =
      .app (t.nameless fun y => some y.name) (.free none) :=
    congrArg₂ Nameless.app inTerm (congrArg Nameless.free (setApart_self x.name))
  rw [start] at image
  exact (congrArg Prod.fst image).symm

/-- Runs come to one term, free variables being read by name, if and only if the outcomes are
equal. -/
theorem appliedImage_eq_iff (probes : Probes limit x t) (probes' : Probes limit x t') :
    appliedImage limit x t = appliedImage limit x t' ↔ outcome limit t = outcome limit t' := by
  rw [← probes.nameless_appliedReduct, ← probes'.nameless_appliedReduct]
  constructor
  · exact nameless_eq_of_nameless_eq (setApart x.name)
  · intro same
    have byName := nameless_eq_of_nameless_eq (Option.getD · x.name) same
    simp only [getD_setApart] at byName
    exact byName

end Probes

/-! ## Answers -/

/-- What a term needs for a comparison: tags in order, and names that can be read. -/
structure Term.Comparable (t : Term Tagged) : Prop where
  tagged : t.WellTagged
  named : t.WellNamed

/-- The comparison comes to the answer without an error, and the tags last for it. -/
structure Answers (limit : Nat) (a b : Term Tagged) (answer : Bool) : Prop where
  suffice : TagsSufficeToCompare limit a b
  returns : equal limit a b = .ok answer

instance (limit : Nat) (a b : Term Tagged) (answer : Bool) :
    Decidable (Answers limit a b answer) :=
  decidable_of_iff (tagsLastToCompare limit a b = true ∧ equal limit a b = .ok answer)
    ⟨fun ⟨last, returns⟩ => ⟨tagsLastToCompare_iff.1 last, returns⟩,
      fun ⟨suffice, returns⟩ => ⟨tagsLastToCompare_iff.2 suffice, returns⟩⟩

/-- A comparison without an error has found both canonical forms. -/
theorem exists_canonicalForms {limit : Nat} {a b : Term Tagged} {answer : Bool}
    (returns : equal limit a b = .ok answer) :
    (∃ c, canonicalForm limit (hole a b) a = .ok c) ∧
      ∃ d, canonicalForm limit (hole a b) b = .ok d := by
  rw [equal] at returns
  cases inLeft : canonicalForm limit (hole a b) a with
  | error failure =>
      rw [inLeft] at returns
      cases returns
  | ok c =>
      cases inRight : canonicalForm limit (hole a b) b with
      | error failure =>
          rw [inLeft, inRight] at returns
          cases returns
      | ok d => exact ⟨⟨c, rfl⟩, ⟨d, rfl⟩⟩

namespace Answers

variable {limit : Nat} {a a' b b' : Term Tagged} {p q : Bool}

/-- **Terms compare equal if and only if they have one outcome.** -/
theorem eq_true_iff (answers : Answers limit a b p) (left : a.Comparable) (right : b.Comparable) :
    p = true ↔ outcome limit a = outcome limit b := by
  obtain ⟨probes, probes'⟩ :=
    answers.suffice.probes left.tagged right.tagged left.named right.named
  rw [← probes.appliedImage_eq_iff probes']
  constructor
  · rintro rfl
    exact ((equal_eq_true_iff probes probes').1 answers.returns).2.2
  · intro same
    obtain ⟨inLeft, inRight⟩ := exists_canonicalForms answers.returns
    have equal := (equal_eq_true_iff probes probes').2 ⟨inLeft, inRight, same⟩
    exact Except.ok.inj (answers.returns.symm.trans equal)

/-- Terms with the outcomes of two others get their answer. -/
theorem agree (first : Answers limit a b p) (second : Answers limit a' b' q)
    (comparable : a.Comparable ∧ b.Comparable) (comparable' : a'.Comparable ∧ b'.Comparable)
    (same : outcome limit a = outcome limit b ↔ outcome limit a' = outcome limit b') : p = q :=
  Bool.eq_iff_iff.2 <| (first.eq_true_iff comparable.1 comparable.2).trans <|
    same.trans (second.eq_true_iff comparable'.1 comparable'.2).symm

end Answers

/-- **Under every limit, comparing is an equivalence that does not see bound names or tags**, as
long as the comparisons return an answer and the tags last for them. It makes no difference whether
the runs come to an end or are cut off. -/
theorem equal_isEquivalence (limit : Nat) (a a' b c : Term Tagged) (inA : a.Comparable)
    (inA' : a'.Comparable) (inB : b.Comparable) (inC : c.Comparable)
    (alike : AlphaEquivalent Tagged.name Tagged.name a a') :
    (∀ p q, Answers limit a b p → Answers limit a' b q → p = q) ∧
      (∀ p q, Answers limit b a p → Answers limit b a' q → p = q) ∧
      (∀ p, Answers limit a a' p → p = true) ∧
      (∀ p q, Answers limit a b p → Answers limit b a q → p = q) ∧
      ∀ p, Answers limit a b true → Answers limit b c true → Answers limit a c p → p = true := by
  have same := outcome_eq_of_alphaEquivalent limit alike
  refine ⟨fun p q first second => ?_, fun p q first second => ?_, fun p answers => ?_,
    fun p q first second => ?_, fun p first second third => ?_⟩
  · exact first.agree second ⟨inA, inB⟩ ⟨inA', inB⟩ (by rw [same])
  · exact first.agree second ⟨inB, inA⟩ ⟨inB, inA'⟩ (by rw [same])
  · exact (answers.eq_true_iff inA inA').2 same
  · exact first.agree second ⟨inA, inB⟩ ⟨inB, inA⟩ eq_comm
  · exact (third.eq_true_iff inA inC).2
      (((first.eq_true_iff inA inB).1 rfl).trans ((second.eq_true_iff inB inC).1 rfl))

/-- The term without a normal form, with other bound names and other tags. -/
def renamedEndless : Term Tagged :=
  .app (.var ⟨"f", 20⟩)
    (.app (.abs ⟨"y", 11⟩ (.app (.var ⟨"y", 11⟩) (.var ⟨"y", 11⟩)))
      (.abs ⟨"w", 12⟩ (.app (.var ⟨"w", 12⟩) (.var ⟨"w", 12⟩))))

/-- The term without a normal form, expanded twice. -/
def twiceExpandedEndless : Term Name := .abs "u" (.app expandedEndless (.var "u"))

/-- All runs are cut off, and the answers agree. -/
theorem equal_isEquivalence_endless :
    ((endless.tag.Comparable ∧ renamedEndless.Comparable ∧ expandedEndless.tag.Comparable ∧
          twiceExpandedEndless.tag.Comparable) ∧
        AlphaEquivalent Tagged.name Tagged.name endless.tag renamedEndless) ∧
      ((appliedReduct 2 (hole renamedEndless expandedEndless.tag) renamedEndless).steps = 2 ∧
        (appliedReduct 2 (hole endless.tag twiceExpandedEndless.tag)
          twiceExpandedEndless.tag).steps = 2) ∧
      (Answers 2 endless.tag expandedEndless.tag true ∧
        Answers 2 expandedEndless.tag twiceExpandedEndless.tag true) ∧
      (Answers 2 renamedEndless expandedEndless.tag true ∧
        ∀ p, Answers 2 renamedEndless expandedEndless.tag p → true = p) ∧
      (Answers 2 endless.tag twiceExpandedEndless.tag true ∧
        ∀ p, Answers 2 endless.tag twiceExpandedEndless.tag p → p = true) := by
  have inA : endless.tag.Comparable := ⟨by decide, by decide +kernel⟩
  have inA' : renamedEndless.Comparable := ⟨by decide, by decide +kernel⟩
  have inB : expandedEndless.tag.Comparable := ⟨by decide, by decide +kernel⟩
  have inC : twiceExpandedEndless.tag.Comparable := ⟨by decide, by decide +kernel⟩
  have alike : AlphaEquivalent Tagged.name Tagged.name endless.tag renamedEndless :=
    alphaEquivalent_iff_nameless_eq.2 (by decide +kernel)
  have first : Answers 2 endless.tag expandedEndless.tag true := by decide_cbv
  have second : Answers 2 expandedEndless.tag twiceExpandedEndless.tag true := by decide_cbv
  obtain ⟨inLeft, _, _, _, transitive⟩ :=
    equal_isEquivalence 2 _ _ _ _ inA inA' inB inC alike
  exact ⟨⟨⟨inA, inA', inB, inC⟩, alike⟩, ⟨by cbv, by cbv⟩, ⟨first, second⟩,
    ⟨by decide_cbv, fun p => inLeft true p first⟩,
    ⟨by decide_cbv, fun p => transitive p first second⟩⟩

end Redex
