import Redex.Proofs.Reduction.Counterpart
import Redex.Proofs.Untagging

/-!
# Names along a run

A run may print a bound occurrence with the name of its binder only if the two carry the same name
throughout. Copies keep names, and instantiation puts no occurrence in the scope of a binder that
claims it by accident, so a contraction keeps a well-tagged term coherent (`Contracts.coherent`),
and so does a whole run (`run_coherent`). What a run ends with is then untagged to a term with the
same nameless image, free variables being read by name (`nameless_untag_run`).
-/

set_option autoImplicit false

namespace Redex

open Term

namespace Term

/-! ## Copies and instantiation -/

/-- What a new binder claims in a copy is what the binder claimed in the term. -/
theorem coherent_copy_below {renewed : List (Tag × Tag)} {gen : Generator} {x : Tagged}
    {body : Term Tagged} (toNext : gen.Leads gen.next.2)
    (toBody : gen.next.2.Leads (body.retag ((x.tag, gen.next.1) :: renewed) gen.next.2).2)
    (known : Known renewed gen.count (abs x body))
    (coherent : ∀ y, body.HasFree y → y.tag = x.tag → y.name = x.name) :
    ∀ y, (body.retag ((x.tag, gen.next.1) :: renewed) gen.next.2).1.HasFree y →
      y.tag = gen.next.1 → y.name = x.name := by
  intro y' inCopy claimed
  obtain ⟨y, free, rfl⟩ := (hasFree_retag body toBody (known.below toNext)).1 inCopy
  by_cases same : y.tag = x.tag
  · rw [renew_cons_self same]
    exact coherent y free same
  · rw [renew_cons_of_ne same] at claimed
    exact absurd claimed (known.tag_ne_next (hasFree_abs.2 ⟨free, same⟩) toNext)

theorem coherent_retag (t : Term Tagged) :
    ∀ {renewed : List (Tag × Tag)} {gen : Generator},
      gen.Leads (t.retag renewed gen).2 → Known renewed gen.count t → t.Coherent →
        (t.retag renewed gen).1.Coherent := by
  induction t with
  | var y =>
      intro renewed gen _ _ _
      rw [retag_var]
      trivial
  | app fn arg ihFn ihArg =>
      intro renewed gen leads known coherent
      obtain ⟨toFn, toArg⟩ := leads_retag_app leads
      exact ⟨ihFn toFn known.appFn coherent.1,
        ihArg toArg (known.appArg.mono toFn.le) coherent.2⟩
  | abs x body ih =>
      intro renewed gen leads known coherent
      obtain ⟨toNext, toBody⟩ := leads_retag_abs leads
      exact ⟨coherent_copy_below toNext toBody known coherent.1,
        ih toBody (known.below toNext) coherent.2⟩
  | pi x dom cod ihDom ihCod =>
      intro renewed gen leads known coherent
      obtain ⟨toDom, afterDom⟩ := leads_retag_pi leads
      obtain ⟨toNext, toCod⟩ := leads_retag_abs afterDom
      have knownCod := known.piScope.mono toDom.le
      exact ⟨ihDom toDom known.piDom coherent.1,
        coherent_copy_below toNext toCod knownCod coherent.2.1,
        ihCod toCod (knownCod.below toNext) coherent.2.2⟩
  | sort u =>
      intro renewed gen _ _ _
      trivial

/-- A binder that claims nothing in the value claims the same after instantiation. -/
theorem coherent_instantiate_below {x : Tag} {value body : Term Tagged} {y : Tagged}
    {gen : Generator} (leads : gen.Leads (instantiate x value body gen).2)
    (upTo : value.TagsUpTo gen.count) (apart : ∀ z, value.HasFree z → z.tag ≠ y.tag)
    (coherent : ∀ z, body.HasFree z → z.tag = y.tag → z.name = y.name) :
    ∀ z, (instantiate x value body gen).1.HasFree z → z.tag = y.tag → z.name = y.name := by
  intro z free claimed
  rcases hasFree_of_instantiate body leads upTo free with inBody | inValue
  · exact coherent z inBody.1 claimed
  · exact absurd claimed (apart z inValue)

theorem coherent_instantiate {x : Tag} {value : Term Tagged} (inValue : value.Coherent)
    (body : Term Tagged) :
    ∀ {gen : Generator}, gen.Leads (instantiate x value body gen).2 → value.TagsUpTo gen.count →
      value.Apart body → body.Coherent → (instantiate x value body gen).1.Coherent := by
  induction body with
  | var y =>
      intro gen leads upTo _ _
      by_cases same : y.tag = x
      · rw [instantiate_var_self x value gen same] at leads ⊢
        exact coherent_retag value leads (known_nil upTo) inValue
      · rw [instantiate_var_of_ne x value gen same]
        trivial
  | app fn arg ihFn ihArg =>
      intro gen leads upTo apart coherent
      obtain ⟨toFn, toArg⟩ := leads_instantiate_app leads
      exact ⟨ihFn toFn upTo
          (fun y free z member => apart y free z (mem_binders_app.2 (.inl member))) coherent.1,
        ihArg toArg (upTo.mono toFn.le)
          (fun y free z member => apart y free z (mem_binders_app.2 (.inr member))) coherent.2⟩
  | abs y body ih =>
      intro gen leads upTo apart coherent
      by_cases same : y.tag = x
      · rw [instantiate_abs_self x value gen same]
        exact coherent
      · rw [instantiate_abs_of_ne x value gen same] at leads ⊢
        exact ⟨coherent_instantiate_below leads upTo
            (fun z free => apart z free y (mem_binders_abs.2 (.inl rfl))) coherent.1,
          ih leads upTo (fun z free z' member => apart z free z' (mem_binders_abs.2 (.inr member)))
            coherent.2⟩
  | pi y dom cod ihDom ihCod =>
      intro gen leads upTo apart coherent
      have inDom : value.Apart dom := fun z free z' member =>
        apart z free z' (mem_binders_pi.2 (.inr (.inl member)))
      by_cases same : y.tag = x
      · rw [instantiate_pi_self x value gen same] at leads ⊢
        exact ⟨ihDom leads upTo inDom coherent.1, coherent.2⟩
      · obtain ⟨toDom, toCod⟩ := leads_instantiate_pi same leads
        rw [instantiate_pi_of_ne x value gen same]
        exact ⟨ihDom toDom upTo inDom coherent.1,
          coherent_instantiate_below toCod (upTo.mono toDom.le)
            (fun z free => apart z free y (mem_binders_pi.2 (.inl rfl))) coherent.2.1,
          ihCod toCod (upTo.mono toDom.le)
            (fun z free z' member => apart z free z' (mem_binders_pi.2 (.inr (.inr member))))
            coherent.2.2⟩
  | sort u =>
      intro gen _ _ _ _
      trivial

end Term

/-! ## Contractions and runs -/

/-- **A contraction keeps a well-tagged term coherent.** -/
theorem Contracts.coherent {s : Strategy} {gen gen₁ : Generator} {t t₁ : Term Tagged}
    (contracts : Contracts s gen t gen₁ t₁) :
    gen.Leads gen₁ → t.TagsUpTo gen.count → t.WellTagged → t.Coherent → t₁.Coherent := by
  -- nothing becomes free in a scope
  have below : ∀ {s : Strategy} {gen gen₁ : Generator} {x : Tagged} {body body₁ : Term Tagged},
      Contracts s gen body gen₁ body₁ → gen.Leads gen₁ → body.TagsUpTo gen.count →
      body.WellTagged → (∀ y, body.HasFree y → y.tag = x.tag → y.name = x.name) →
      ∀ y, body₁.HasFree y → y.tag = x.tag → y.name = x.name := by
    intro s gen gen₁ x body body₁ step leads upTo tagged coherent y free
    exact coherent y ((step.simulates id 0 leads upTo tagged).refreshes.free y free)
  induction contracts with
  | redex gen _ _ =>
      intro leads upTo tagged coherent
      refine coherent_instantiate coherent.2 _ leads upTo.appArg ?_ coherent.1.2
      intro y free z member
      exact tagged.apart y (hasFree_app.2 (.inr free)) z
        (mem_binders_app.2 (.inl (mem_binders_abs.2 (.inr member))))
  | appFn _ ih =>
      intro leads upTo tagged coherent
      exact ⟨ih leads upTo.appFn tagged.appFn coherent.1, coherent.2⟩
  | appArg _ _ _ ih =>
      intro leads upTo tagged coherent
      exact ⟨coherent.1, ih leads upTo.appArg tagged.appArg coherent.2⟩
  | fnAgain _ _ _ _ _ ih =>
      intro leads upTo tagged coherent
      exact ⟨ih leads upTo.appFn tagged.appFn coherent.1, coherent.2⟩
  | argAgain _ _ _ _ _ ih =>
      intro leads upTo tagged coherent
      exact ⟨coherent.1, ih leads upTo.appArg tagged.appArg coherent.2⟩
  | abs _ step ih =>
      intro leads upTo tagged coherent
      exact ⟨below step leads upTo.absBody tagged.absBody coherent.1,
        ih leads upTo.absBody tagged.absBody coherent.2⟩
  | piDom _ _ ih =>
      intro leads upTo tagged coherent
      exact ⟨ih leads upTo.piDom tagged.piDom coherent.1, coherent.2⟩
  | piCod _ _ step ih =>
      intro leads upTo tagged coherent
      exact ⟨coherent.1, below step leads upTo.piCod tagged.piCod coherent.2.1,
        ih leads upTo.piCod tagged.piCod coherent.2.2⟩

section Run

variable {s : Strategy} {limit : Nat} {t : Term Tagged}

/-- **A run keeps a well-tagged term coherent.** -/
theorem run_coherent (tagged : t.WellTagged) (suffice : TagsSuffice s limit t)
    (coherent : t.Coherent) : (run s limit t).term.Coherent :=
  (run_contractions s limit t).keeps Contracts.coherent suffice.leads (tagsUpTo_above t) tagged
    coherent

/-- Nothing becomes free in a run. -/
theorem hasFree_of_run (tagged : t.WellTagged) (suffice : TagsSuffice s limit t) {y : Tagged}
    (free : (run s limit t).term.HasFree y) : t.HasFree y :=
  ((evaluate_evaluates s ⟨.above [t], limit⟩ t).simulates id suffice.leads (tagsUpTo_above t)
    tagged).refreshes.free y free

/-- Untagging the result of a run keeps its bindings. -/
theorem alphaEquivalent_untag_run (tagged : t.WellTagged) (suffice : TagsSuffice s limit t)
    (coherent : t.Coherent) {b : Term Name} (untagged : (run s limit t).term.untag = .ok b) :
    AlphaEquivalent Tagged.name id (run s limit t).term b :=
  alike_of_untagIn _ (run_simulates id tagged suffice).1.unshadowed
    (run_coherent tagged suffice coherent) (fun _ _ => rfl) (fun _ _ => .free rfl) untagged

/-- Untagging the result of a run keeps its nameless image, free variables being read by name. -/
theorem nameless_untag_run (tagged : t.WellTagged) (suffice : TagsSuffice s limit t)
    (coherent : t.Coherent) {b : Term Name} (untagged : (run s limit t).term.untag = .ok b) :
    b.nameless id = (run s limit t).term.nameless Tagged.name :=
  (alphaEquivalent_iff_nameless_eq.1
    (alphaEquivalent_untag_run tagged suffice coherent untagged)).symm

end Run

end Redex
