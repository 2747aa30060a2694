import Redex.Proofs.Nameless.Printing
import Redex.Proofs.Term.Alpha

/-!
# Written forms without bound names

A term can be written without the names of its binders, by writing its nameless image. The labels of
the image are the free occurrences of the term (`labels_namelessIn`), so the form shows no name but
those of free variables.

Terms that are α-equivalent have one such form, whatever their names are. The converse needs that
the form can be read in one way only. That is so if the free variables are spelled as identifiers;
a variable that is spelled like an index would be taken for one. So for terms that can be read from
a text the two are the same (`printNameless_eq_iff_alphaEquivalent`).
-/

set_option autoImplicit false

namespace Redex

namespace Term

/-! ## Labels of images -/

section Labels

variable {ι κ φ : Type} [Identifier ι κ] [DecidableEq κ] {reading : ι → φ}

/-- The labels of a nameless image are what the free occurrences are read as, in their order. -/
theorem labels_namelessIn (t : Term ι) :
    ∀ scope : List κ, (t.namelessIn reading scope).labels = (t.freeOccurrences scope).map reading := by
  induction t with
  | var x =>
      intro scope
      rw [namelessIn, freeOccurrences]
      cases found : scope.idxOf? (Identifier.key x) with
      | none =>
          rw [if_neg (List.idxOf?_eq_none_iff.1 found)]
          rfl
      | some index =>
          have member : Identifier.key x ∈ scope :=
            List.isSome_idxOf?.1 (Option.isSome_iff_exists.2 ⟨index, found⟩)
          rw [if_pos member]
          rfl
  | app fn arg ihFn ihArg =>
      intro scope
      rw [namelessIn, freeOccurrences, Nameless.labels, ihFn, ihArg, List.map_append]
  | abs x body ih =>
      intro scope
      exact ih _
  | pi x dom cod ihDom ihCod =>
      intro scope
      rw [namelessIn, freeOccurrences, Nameless.labels, ihDom, ihCod, List.map_append]
  | sort u =>
      intro scope
      rfl

theorem mem_labels_namelessIn {x : φ} {t : Term ι} {scope : List κ} :
    x ∈ (t.namelessIn reading scope).labels ↔
      ∃ y, (t.HasFree y ∧ Identifier.key y ∉ scope) ∧ reading y = x := by
  simp only [labels_namelessIn, List.mem_map, mem_freeOccurrences]

theorem mem_labels_nameless {x : φ} {t : Term ι} :
    x ∈ (t.nameless reading).labels ↔ ∃ y, t.HasFree y ∧ reading y = x := by
  simp only [nameless, mem_labels_namelessIn, List.not_mem_nil, not_false_eq_true, and_true]

end Labels

/-- A term whose free variables are identifiers has an image that is read in one way only. -/
theorem isReadable_nameless {t : Term Name} (named : ∀ x, t.HasFree x → x.isIdentifier = true) :
    (t.nameless id).IsReadable := by
  intro label member
  obtain ⟨x, free, rfl⟩ := mem_labels_nameless.1 member
  exact (Name.spelled_of_isIdentifier (named x free)).readable

end Term

/-- **Terms are written alike without bound names exactly if they are α-equivalent**: if they have
the same shape and sorts, bound occurrences at the same place belong to binders at the same place,
and free occurrences at the same place have the same name. The names are identifiers. -/
theorem printNameless_eq_iff_alphaEquivalent (a b : Term Name)
    (named : ∀ x ∈ a.identifiers, Name.isIdentifier x = true)
    (named' : ∀ x ∈ b.identifiers, Name.isIdentifier x = true) :
    a.printNameless = b.printNameless ↔ AlphaEquivalent id id a b := by
  have readable := Term.isReadable_nameless fun x free =>
    named x (Term.mem_identifiers_of_hasFree free)
  have readable' := Term.isReadable_nameless fun x free =>
    named' x (Term.mem_identifiers_of_hasFree free)
  rw [alphaEquivalent_iff_nameless_eq]
  exact ⟨Nameless.eq_of_print_eq readable readable', congrArg Nameless.print⟩

/-- `λx.πx:x.x (λy.x y) z`: the domain of the product belongs to the outer `x`, its codomain to the
inner one. -/
def shadowedDomain : Term Name :=
  .abs "x" (.pi "x" (.var "x")
    (.app (.app (.var "x") (.abs "y" (.app (.var "x") (.var "y")))) (.var "z")))

/-- `λa.πb:a.b (λx.owner x) z`, where one occurrence may belong to either of the outer binders. -/
def renamedDomain (owner : Name) : Term Name :=
  .abs "a" (.pi "b" (.var "a")
    (.app (.app (.var "b") (.abs "x" (.app (.var owner) (.var "x")))) (.var "z")))

/-- The written forms tell which of the two binders is the right one. -/
theorem printNameless_shadowedDomain :
    ((∀ x ∈ shadowedDomain.identifiers, Name.isIdentifier x = true) ∧
      ∀ owner ∈ ["a", "b"], ∀ x ∈ (renamedDomain owner).identifiers,
        Name.isIdentifier x = true) ∧
    AlphaEquivalent id id shadowedDomain (renamedDomain "b") ∧
    ¬ AlphaEquivalent id id shadowedDomain (renamedDomain "a") := by
  have named : ∀ x ∈ shadowedDomain.identifiers, Name.isIdentifier x = true := by decide +kernel
  have namedToo : ∀ owner ∈ ["a", "b"], ∀ x ∈ (renamedDomain owner).identifiers,
      Name.isIdentifier x = true := by decide +kernel
  have alike : shadowedDomain.printNameless = (renamedDomain "b").printNameless := by decide
  have apart : shadowedDomain.printNameless ≠ (renamedDomain "a").printNameless := by decide
  refine ⟨⟨named, namedToo⟩, ?_, fun equivalent => apart ?_⟩
  · exact (printNameless_eq_iff_alphaEquivalent _ _ named (namedToo "b" (by decide))).1 alike
  · exact (printNameless_eq_iff_alphaEquivalent _ _ named (namedToo "a" (by decide))).2 equivalent

/-- A name that is no identifier may be taken for an index. -/
example : (Term.abs "x" (.var "0") : Term Name).printNameless =
    (Term.abs "x" (.var "x") : Term Name).printNameless := by
  decide

end Redex
