import Mathlib.Data.List.Permutation
import Redex.Proofs.Reduction.Agreement
import Redex.Proofs.Reduction.Coherence
import Redex.Proofs.Term.WrittenForm
import Redex.Reduction.Equality
import Redex.Tagging

/-!
# What equality by normal forms decides

Two terms compare equal when the written forms of what their applications to the hole reduce to are
the same. The hole is a new variable, by tag and by name; the runs are β-reductions; untagging keeps
bindings and the names of free variables; and a written form can be read in one way only. So the
answer says whether the runs came to one nameless term (`equal_eq_true_iff`).

Terms that compare equal are βη-convertible, whether the runs came to an end or not, since the
applications have a common β-reduct and the hole is new. The converse does not hold. Terms compare
equal when their η-expansions at the root are β-convertible, and an η-redex further in is left as
it is.

All of this holds as long as the tags last. Beyond the largest one the hole may have the tag of a
binder that is made later on, and be captured by it.
-/

set_option autoImplicit false

namespace Redex

open Term

/-! ## Names in order -/

/-- The names of a term are in order: occurrences of one variable carry one name, which for a bound
one is that of its binder and for a free one an identifier. -/
structure Term.WellNamed (t : Term Tagged) : Prop where
  bound : t.Coherent
  free : ∀ y, t.HasFree y → ∀ z, t.HasFree z → y.tag = z.tag → y.name = z.name
  identifiers : ∀ y, t.HasFree y → y.name.isIdentifier = true

instance (t : Term Tagged) : Decidable t.WellNamed :=
  decidable_of_iff
    (t.Coherent ∧
      (∀ y ∈ t.freeOccurrences [], ∀ z ∈ t.freeOccurrences [], y.tag = z.tag → y.name = z.name) ∧
      ∀ y ∈ t.freeOccurrences [], y.name.isIdentifier = true)
    ⟨fun h => ⟨h.1, h.2.1, h.2.2⟩, fun h => ⟨h.1, h.2, h.3⟩⟩

/-! ## The hole -/

/-- The tags last for a comparison: for the hole, and for the runs of both terms applied to it. -/
structure TagsSufficeToCompare (limit : Nat) (a b : Term Tagged) : Prop where
  forHole : (Generator.above [a, b]).count < Tag.greatest
  left : TagsSuffice NormalForm.full.strategy limit (.app a (.var (hole a b)))
  right : TagsSuffice NormalForm.full.strategy limit (.app b (.var (hole a b)))

/-- Whether the tags last for a comparison. -/
def tagsLastToCompare (limit : Nat) (a b : Term Tagged) : Bool :=
  (Generator.above [a, b]).next.2.lasts &&
    tagsLast NormalForm.full.strategy limit (.app a (.var (hole a b))) &&
    tagsLast NormalForm.full.strategy limit (.app b (.var (hole a b)))

theorem tagsLastToCompare_iff {limit : Nat} {a b : Term Tagged} :
    tagsLastToCompare limit a b = true ↔ TagsSufficeToCompare limit a b := by
  have forHole : (Generator.above [a, b]).next.2.lasts = true ↔
      (Generator.above [a, b]).count < Tag.greatest := decide_eq_true_iff
  rw [tagsLastToCompare, Bool.and_eq_true, Bool.and_eq_true, forHole, tagsLast_iff, tagsLast_iff,
    and_assoc]
  exact ⟨fun ⟨forHole, left, right⟩ => ⟨forHole, left, right⟩,
    fun ⟨forHole, left, right⟩ => ⟨forHole, left, right⟩⟩

instance (limit : Nat) (a b : Term Tagged) : Decidable (TagsSufficeToCompare limit a b) :=
  decidable_of_iff _ tagsLastToCompare_iff

section Hole

variable {a b t : Term Tagged}

/-- The tag of the hole comes after all tags of the two terms. -/
theorem hole_tag (new : (Generator.above [a, b]).count < Tag.greatest) :
    (Generator.above [a, b]).count < (hole a b).tag.toInt := by
  have leads : (Generator.above [a, b]).Leads (Generator.above [a, b]).next.2 :=
    ⟨Int64.minValue_le_toInt _, Int.le_of_lt (Generator.count_lt_next _), new⟩
  rw [hole, leads.toInt_next]
  exact Generator.count_lt_next _

/-- The name of the hole is that of no free variable of the two terms. -/
theorem name_ne_holeName (member : t ∈ [a, b]) (named : t.WellNamed) {y : Tagged}
    (free : t.HasFree y) : y.name ≠ holeName a b := by
  obtain ⟨z, found, key⟩ := exists_mem_firstOfEach free
  have same : z.name = y.name := named.free z (mem_of_mem_firstOfEach found) y free key
  have taken : z.name ∈ (a.free ++ b.free).map (·.name) := by
    refine List.mem_map_of_mem (List.mem_append.2 ?_)
    rcases List.mem_cons.1 member with rfl | isRight
    · exact .inl found
    · rw [List.mem_singleton] at isRight
      exact .inr (isRight ▸ found)
  intro isHole
  rw [same, isHole] at taken
  exact Name.freshOutside_not_mem _ _ taken

theorem readable_holeName (a b : Term Tagged) : Readable (holeName a b) :=
  ((Name.spelled_of_isIdentifier (by decide +kernel)).freshOutside _).readable

/-- A variable with a new tag may be put behind a well-tagged term. -/
theorem Term.WellTagged.app_var {bound : Int} {x : Tagged} (tagged : t.WellTagged)
    (upTo : t.TagsUpTo bound) (new : bound < x.tag.toInt) : (app t (var x)).WellTagged where
  unshadowed := ⟨tagged.unshadowed, trivial⟩
  apart y free z member := by
    have inTerm : z ∈ t.binders := (mem_binders_app.1 member).resolve_right not_mem_binders_var
    rcases hasFree_app.1 free with inFn | isVar
    · exact tagged.apart y inFn z inTerm
    · rw [hasFree_var.1 isVar]
      intro same
      have old := upTo.binders z inTerm
      rw [← same] at old
      exact absurd new (Int.not_lt.2 old)

end Hole

/-! ## Canonical forms -/

/-- The variable `x` shows what the term does: it is new to the term by tag and by name, the names
to be printed are readable, and the tags last for the run. -/
structure Probes (limit : Nat) (x : Tagged) (t : Term Tagged) : Prop where
  tagged : (app t (var x)).WellTagged
  coherent : t.Coherent
  suffice : TagsSuffice NormalForm.full.strategy limit (app t (var x))
  readable : ∀ y, (app t (var x)).HasFree y → Readable y.name
  fresh : ∀ y, t.HasFree y → y.name ≠ x.name

theorem hole_probes {limit : Nat} {a b t : Term Tagged} (member : t ∈ [a, b])
    (tagged : t.WellTagged) (named : t.WellNamed)
    (new : (Generator.above [a, b]).count < Tag.greatest)
    (suffice : TagsSuffice NormalForm.full.strategy limit (app t (var (hole a b)))) :
    Probes limit (hole a b) t where
  tagged := tagged.app_var (tagsUpTo_above_of_mem member) (hole_tag new)
  coherent := named.bound
  suffice := suffice
  readable y free := by
    rcases hasFree_app.1 free with inTerm | isVar
    · exact (Name.spelled_of_isIdentifier (named.identifiers y inTerm)).readable
    · rw [hasFree_var.1 isVar]
      exact readable_holeName a b
  fresh _ free := name_ne_holeName member named free

/-- What a term applied to a variable comes to, free variables being read by name. -/
def appliedImage (limit : Nat) (x : Tagged) (t : Term Tagged) : Nameless Name :=
  (appliedReduct limit x t).term.nameless Tagged.name

theorem canonicalForm_eq_ok_iff {limit : Nat} {x : Tagged} {t : Term Tagged} {c : Term Name} :
    canonicalForm limit x t = .ok c ↔ (appliedReduct limit x t).term.untag = .ok c := by
  rw [canonicalForm]
  cases (appliedReduct limit x t).term.untag with
  | error cause => exact iff_of_false nofun nofun
  | ok b =>
      rw [Except.mapError, Except.ok.injEq, Except.ok.injEq]

namespace Probes

variable {limit : Nat} {x : Tagged} {t t' : Term Tagged} {c c' : Term Name}

theorem not_mem_labels (probes : Probes limit x t) : x.name ∉ (t.nameless Tagged.name).labels := by
  intro member
  obtain ⟨y, free, same⟩ := mem_labels_nameless.1 member
  exact probes.fresh y free same

theorem reduces (probes : Probes limit x t) :
    Nameless.BetaReduces (.app (t.nameless Tagged.name) (.free x.name)) (appliedImage limit x t) :=
  (run_simulates Tagged.name probes.tagged probes.suffice).2.reduces

theorem normal (probes : Probes limit x t) (fewer : (appliedReduct limit x t).steps < limit) :
    (appliedImage limit x t).Normal :=
  (run_normalising Tagged.name (by decide) probes.tagged probes.suffice fewer).2

theorem isReadable (probes : Probes limit x t) : (appliedImage limit x t).IsReadable := by
  intro label member
  obtain ⟨y, free, rfl⟩ := mem_labels_nameless.1 member
  exact probes.readable y (hasFree_of_run probes.tagged probes.suffice free)

theorem printNameless_eq (probes : Probes limit x t) (canonical : canonicalForm limit x t = .ok c) :
    c.printNameless = (appliedImage limit x t).print :=
  congrArg Nameless.print (nameless_untag_run probes.tagged probes.suffice
    ⟨probes.coherent, trivial⟩ (canonicalForm_eq_ok_iff.1 canonical))

/-- **Canonical forms are written alike if the runs came to one nameless term.** -/
theorem printNameless_eq_iff (probes : Probes limit x t) (probes' : Probes limit x t')
    (canonical : canonicalForm limit x t = .ok c) (canonical' : canonicalForm limit x t' = .ok c') :
    c.printNameless = c'.printNameless ↔ appliedImage limit x t = appliedImage limit x t' := by
  rw [probes.printNameless_eq canonical, probes'.printNameless_eq canonical']
  exact ⟨Nameless.eq_of_print_eq probes.isReadable probes'.isReadable, congrArg Nameless.print⟩

end Probes

/-! ## Comparing terms -/

section Compare

variable {limit : Nat} {a b : Term Tagged}

/-- The answer that terms are equal says that both have a canonical form, and that the runs came to
one nameless term. -/
theorem equal_eq_true_iff (left : Probes limit (hole a b) a) (right : Probes limit (hole a b) b) :
    equal limit a b = .ok true ↔
      (∃ c, canonicalForm limit (hole a b) a = .ok c) ∧
      (∃ d, canonicalForm limit (hole a b) b = .ok d) ∧
      appliedImage limit (hole a b) a = appliedImage limit (hole a b) b := by
  rw [equal]
  cases inLeft : canonicalForm limit (hole a b) a with
  | error failure => exact iff_of_false nofun (by rintro ⟨⟨c, found⟩, _⟩; cases found)
  | ok c =>
      cases inRight : canonicalForm limit (hole a b) b with
      | error failure => exact iff_of_false nofun (by rintro ⟨_, ⟨d, found⟩, _⟩; cases found)
      | ok d =>
          have sameForms := left.printNameless_eq_iff right inLeft inRight
          constructor
          · intro answer
            exact ⟨⟨c, rfl⟩, ⟨d, rfl⟩, sameForms.1 (beq_iff_eq.1 (Except.ok.inj answer))⟩
          · rintro ⟨_, _, same⟩
            exact congrArg Except.ok (beq_iff_eq.2 (sameForms.2 same))

/-- The hole shows what the two terms do. -/
theorem TagsSufficeToCompare.probes (suffice : TagsSufficeToCompare limit a b)
    (tagged : a.WellTagged) (tagged' : b.WellTagged) (named : a.WellNamed) (named' : b.WellNamed) :
    Probes limit (hole a b) a ∧ Probes limit (hole a b) b :=
  ⟨hole_probes List.mem_cons_self tagged named suffice.forHole suffice.left,
    hole_probes (List.mem_cons_of_mem a List.mem_cons_self) tagged' named' suffice.forHole
      suffice.right⟩

/-- Terms that compare equal agree on the hole. -/
theorem betaConvertible_of_equal (left : Probes limit (hole a b) a)
    (right : Probes limit (hole a b) b) (answer : equal limit a b = .ok true) :
    Nameless.BetaConvertible (.app (a.nameless Tagged.name) (.free (hole a b).name))
      (.app (b.nameless Tagged.name) (.free (hole a b).name)) := by
  obtain ⟨_, _, same⟩ := (equal_eq_true_iff left right).1 answer
  have toReduct := left.reduces.betaConvertible
  rw [same] at toReduct
  exact .trans _ _ _ toReduct (.symm _ _ right.reduces.betaConvertible)

end Compare

/-- **Terms that compare equal are βη-convertible**, free variables being identified by name,
whatever the limit and whether the runs came to an end or were cut off, as long as the tags last. -/
theorem equal_sound (limit : Nat) (a b : Term Tagged) (tagged : a.WellTagged)
    (tagged' : b.WellTagged) (named : a.WellNamed) (named' : b.WellNamed)
    (suffice : TagsSufficeToCompare limit a b) (answer : equal limit a b = .ok true) :
    Nameless.Convertible (a.nameless Tagged.name) (b.nameless Tagged.name) := by
  obtain ⟨left, right⟩ := suffice.probes tagged tagged' named named'
  exact Nameless.convertible_of_applied left.not_mem_labels right.not_mem_labels
    (betaConvertible_of_equal left right answer)

/-- `f ((λx.x x) (λx.x x))`, which has no normal form. -/
def endless : Term Name :=
  .app (.var "f")
    (.app (.abs "x" (.app (.var "x") (.var "x"))) (.abs "x" (.app (.var "x") (.var "x"))))

/-- The η-expansion of the term without a normal form. -/
def expandedEndless : Term Name := .abs "z" (.app endless (.var "z"))

/-- Both runs are cut off, after as many turns of the loop as leave the same term. -/
theorem equal_sound_endless :
    ((endless.tag.WellTagged ∧ endless.tag.WellNamed) ∧
        (expandedEndless.tag.WellTagged ∧ expandedEndless.tag.WellNamed) ∧
        TagsSufficeToCompare 4 endless.tag expandedEndless.tag) ∧
      ((appliedReduct 4 (hole endless.tag expandedEndless.tag) endless.tag).steps = 4 ∧
        (appliedReduct 4 (hole endless.tag expandedEndless.tag) expandedEndless.tag).steps = 4) ∧
      equal 4 endless.tag expandedEndless.tag = .ok true ∧
      Nameless.Convertible (endless.tag.nameless Tagged.name)
        (expandedEndless.tag.nameless Tagged.name) := by
  have tagged : endless.tag.WellTagged := by decide
  have tagged' : expandedEndless.tag.WellTagged := by decide
  have named : endless.tag.WellNamed := by decide +kernel
  have named' : expandedEndless.tag.WellNamed := by decide +kernel
  have suffice : TagsSufficeToCompare 4 endless.tag expandedEndless.tag := by decide_cbv
  have answer : equal 4 endless.tag expandedEndless.tag = .ok true := by cbv
  exact ⟨⟨⟨tagged, named⟩, ⟨tagged', named'⟩, suffice⟩, ⟨by cbv, by cbv⟩, answer,
    equal_sound 4 _ _ tagged tagged' named named' suffice answer⟩

/-- A generator with five tags left. -/
def lastTags : Generator := ⟨9223372036854775802⟩

/-- `λh.λz.z`, with the generator after its two tags. -/
def secondOfTwo : Term Tagged × Generator :=
  (Term.abs "h" (.abs "z" (.var "z"))).tagWith lastTags

/-- `λh.(λx.x) (λ_.h)`, with the three tags that are left. -/
def firstOfTwo : Term Tagged × Generator :=
  (Term.abs "h" (.app (.abs "x" (.var "x")) (.abs "_" (.var "h")))).tagWith secondOfTwo.2

theorem Nameless.not_betaEta_abs_abs_bound {φ : Type} (index : Nat) (t : Nameless φ) :
    ¬ BetaEta (abs (abs (bound index))) t := by
  rintro (beta | eta)
  · cases beta with
    | abs beta => cases beta with
      | abs beta => cases beta
  · cases eta with
    | abs eta => cases eta with
      | abs eta => cases eta

/-- **Beyond the largest tag, terms that are not convertible compare equal.** The hole gets the
least tag, and so does the copy of `λ_.h`, which claims the hole that is put in place of `h`. -/
theorem equal_captures_hole :
    ((firstOfTwo.1.WellTagged ∧ firstOfTwo.1.WellNamed) ∧
        (secondOfTwo.1.WellTagged ∧ secondOfTwo.1.WellNamed)) ∧
      equal 100 firstOfTwo.1 secondOfTwo.1 = .ok true ∧
      ¬ Nameless.Convertible (firstOfTwo.1.nameless Tagged.name)
        (secondOfTwo.1.nameless Tagged.name) := by
  refine ⟨⟨⟨by decide, by decide⟩, ⟨by decide, by decide⟩⟩, by cbv, ?_⟩
  have first : firstOfTwo.1.nameless Tagged.name =
      .abs (.app (.abs (.bound 0)) (.abs (.bound 1))) := by decide
  have second : secondOfTwo.1.nameless Tagged.name = .abs (.abs (.bound 0)) := by decide
  rw [first, second]
  intro convertible
  have contracted : Nameless.Convertible (.abs (.app (.abs (.bound 0)) (.abs (.bound 1))))
      (.abs (.abs (.bound 1 : Nameless Name))) := .rel _ _ (.inl (.abs (.contract _ _)))
  have equal := Nameless.eq_of_convertible (.trans _ _ _ (.symm _ _ contracted) convertible)
    (Nameless.not_betaEta_abs_abs_bound 1) (Nameless.not_betaEta_abs_abs_bound 0)
  cases equal

/-- **Terms whose runs come to an end compare equal if and only if their η-expansions at the root
are β-convertible**, as long as the tags last and the results can be printed. -/
theorem equal_iff_etaExpansions (limit : Nat) (a b : Term Tagged) (c d : Term Name)
    (tagged : a.WellTagged) (tagged' : b.WellTagged) (named : a.WellNamed) (named' : b.WellNamed)
    (suffice : TagsSufficeToCompare limit a b)
    (fewer : (appliedReduct limit (hole a b) a).steps < limit)
    (fewer' : (appliedReduct limit (hole a b) b).steps < limit)
    (untagged : (appliedReduct limit (hole a b) a).term.untag = .ok c)
    (untagged' : (appliedReduct limit (hole a b) b).term.untag = .ok d) :
    equal limit a b = .ok true ↔
      Nameless.BetaConvertible (a.nameless Tagged.name).etaExpand
        (b.nameless Tagged.name).etaExpand := by
  obtain ⟨left, right⟩ := suffice.probes tagged tagged' named named'
  rw [Nameless.betaConvertible_etaExpand_iff left.not_mem_labels right.not_mem_labels]
  constructor
  · exact betaConvertible_of_equal left right
  · intro convertible
    have same := Nameless.eq_of_betaConvertible convertible left.reduces right.reduces
      (left.normal fewer) (right.normal fewer')
    exact (equal_eq_true_iff left right).2
      ⟨⟨c, canonicalForm_eq_ok_iff.2 untagged⟩, ⟨d, canonicalForm_eq_ok_iff.2 untagged'⟩, same⟩

/-- `λx.f ((λz.z) x)`, which reduces to the η-expansion of `f`. -/
def delayedApplication : Term Name :=
  .abs "x" (.app (.var "f") (.app (.abs "z" (.var "z")) (.var "x")))

/-- `f`. -/
def functionVariable : Term Name := .var "f"

/-- Terms that differ by an η-expansion at the root compare equal. -/
theorem equal_iff_etaExpansions_root :
    ((delayedApplication.tag.WellTagged ∧ delayedApplication.tag.WellNamed) ∧
        (functionVariable.tag.WellTagged ∧ functionVariable.tag.WellNamed) ∧
        TagsSufficeToCompare 100 delayedApplication.tag functionVariable.tag) ∧
      equal 100 delayedApplication.tag functionVariable.tag = .ok true ∧
      Nameless.BetaConvertible (delayedApplication.tag.nameless Tagged.name).etaExpand
        (functionVariable.tag.nameless Tagged.name).etaExpand := by
  have tagged : delayedApplication.tag.WellTagged := by decide
  have tagged' : functionVariable.tag.WellTagged := by decide
  have named : delayedApplication.tag.WellNamed := by decide +kernel
  have named' : functionVariable.tag.WellNamed := by decide +kernel
  have suffice : TagsSufficeToCompare 100 delayedApplication.tag functionVariable.tag := by
    decide_cbv
  have answer : equal 100 delayedApplication.tag functionVariable.tag = .ok true := by cbv
  have expansions := (equal_iff_etaExpansions 100 _ _ (.app (.var "f") (.var "_"))
    (.app (.var "f") (.var "_")) tagged tagged' named named' suffice (by cbv) (by cbv) (by cbv)
    (by cbv)).1 answer
  exact ⟨⟨⟨tagged, named⟩, ⟨tagged', named'⟩, suffice⟩, answer, expansions⟩

/-- `λf.f`. -/
def identityFunction : Term Name := .abs "f" (.var "f")

/-- `λf.λx.f x`, which is the identity with an η-expansion inside. -/
def expandedIdentity : Term Name := .abs "f" (.abs "x" (.app (.var "f") (.var "x")))

/-- **An η-expansion below the root is not seen.** The terms are convertible, both runs come to an
end and have a canonical form, and the terms do not compare equal. -/
theorem equal_misses_nestedEta :
    ((identityFunction.tag.WellTagged ∧ identityFunction.tag.WellNamed) ∧
        (expandedIdentity.tag.WellTagged ∧ expandedIdentity.tag.WellNamed) ∧
        TagsSufficeToCompare 100 identityFunction.tag expandedIdentity.tag) ∧
      (canonicalForm 100 (hole identityFunction.tag expandedIdentity.tag) identityFunction.tag =
          .ok (.var "_") ∧
        canonicalForm 100 (hole identityFunction.tag expandedIdentity.tag) expandedIdentity.tag =
          .ok (.abs "x" (.app (.var "_") (.var "x"))) ∧
        (appliedReduct 100 (hole identityFunction.tag expandedIdentity.tag)
          identityFunction.tag).steps < 100 ∧
        (appliedReduct 100 (hole identityFunction.tag expandedIdentity.tag)
          expandedIdentity.tag).steps < 100) ∧
      Nameless.Convertible (identityFunction.tag.nameless Tagged.name)
        (expandedIdentity.tag.nameless Tagged.name) ∧
      equal 100 identityFunction.tag expandedIdentity.tag = .ok false := by
  refine ⟨⟨⟨by decide, by decide⟩, ⟨by decide, by decide⟩, by decide_cbv⟩,
    ⟨by cbv, by cbv, by cbv, by cbv⟩, ?_, by cbv⟩
  have image : identityFunction.tag.nameless Tagged.name = .abs (.bound 0) := by decide
  have image' : expandedIdentity.tag.nameless Tagged.name =
      .abs (.abs (.app (Nameless.bound 0).shift (.bound 0))) := by decide
  rw [image, image']
  exact .symm _ _ (.rel _ _ (.inr (.abs (.contract _))))

end Redex
