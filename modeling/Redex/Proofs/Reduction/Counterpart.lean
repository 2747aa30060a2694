import Redex.Proofs.Reduction.Contraction
import Redex.Proofs.Reduction.Simulation
import Redex.Proofs.Twins

/-!
# Contractions of twins

Twins look alike to a strategy: they are in the same normal forms, so the redex that is contracted
next stands at the same place in both. The contracta are twins again. Their bindings agree because
both are the contraction of one nameless image, and their names because instantiation copies the
value for occurrences at the same places; for that reason it takes as many new tags in both.

So a contraction has a counterpart in each twin of its term (`Contracts.twins`), provided that the
tags last there too. They do for a generator that is not ahead of the first one.
-/

set_option autoImplicit false

namespace Redex

open Term

/-! ## Normal forms of twins -/

section Shape

variable {ι ι' : Type} (f : ι → ι')

theorem Term.isAbs_map (t : Term ι) : (t.map f).IsAbs ↔ t.IsAbs := by
  constructor
  · rintro ⟨x, body, equal⟩
    cases t with
    | abs y body' => exact ⟨y, body', rfl⟩
    | var y => cases equal
    | app fn arg => cases equal
    | pi y dom cod => cases equal
    | sort u => cases equal
  · rintro ⟨x, body, rfl⟩
    exact ⟨f x, body.map f, rfl⟩

/-- Normal forms do not depend on identifiers. -/
theorem NormalForm.holds_map {form : NormalForm} (t : Term ι) :
    form.Holds (t.map f) ↔ form.Holds t := by
  induction t with
  | var x => exact iff_of_true holds_var holds_var
  | app fn arg ihFn ihArg => rw [map, holds_app, holds_app, Term.isAbs_map, ihFn, ihArg]
  | abs x body ih => rw [map, holds_abs, holds_abs, ih]
  | pi x dom cod ihDom ihCod => rw [map, holds_pi, holds_pi, ihDom, ihCod]
  | sort u => exact iff_of_true holds_sort holds_sort

end Shape

namespace Twins

variable {pairs : List (Tag × Tag)} {t t' : Term Tagged}

theorem isAbs_iff (twins : Twins pairs t t') : t.IsAbs ↔ t'.IsAbs := by
  rw [← isAbs_map Tagged.name t, twins.names, isAbs_map]

theorem identifiers_ne_nil (twins : Twins pairs t t') (some : t.identifiers ≠ []) :
    t'.identifiers ≠ [] := by
  have shape := (twins.map_identifiers (fun _ => ()) (fun _ => ()) (fun _ => ())
    (fun _ _ _ _ => rfl) (fun _ _ _ _ => rfl) (fun _ _ _ _ => rfl)).1
  intro none
  rw [none] at shape
  exact some (List.map_eq_nil_iff.1 shape)

theorem holds_iff {form : NormalForm} (twins : Twins pairs t t') :
    form.Holds t ↔ form.Holds t' := by
  rw [← NormalForm.holds_map Tagged.name t, twins.names, NormalForm.holds_map]

end Twins

/-! ## Contracta of twins -/

theorem Term.map_name_retag (t : Term Tagged) :
    ∀ (renewed : List (Tag × Tag)) (gen : Generator),
      (t.retag renewed gen).1.map Tagged.name = t.map Tagged.name := by
  induction t with
  | var y =>
      intro renewed gen
      rw [retag_var]
      rfl
  | app fn arg ihFn ihArg =>
      intro renewed gen
      simp only [retag_app, map, ihFn, ihArg]
  | abs x body ih =>
      intro renewed gen
      simp only [retag_abs, map, ih]
  | pi x dom cod ihDom ihCod =>
      intro renewed gen
      simp only [retag_pi, map, ihDom, ihCod]
  | sort u =>
      intro renewed gen
      rfl

/-- Of two corresponding occurrences both or none belong to the binders of a pair, if no binder
further in has the tag of either. -/
theorem Corresponds.tag_eq_iff {before pairs : List (Tag × Tag)} {x x' : Tag} {y y' : Tagged}
    (others : ∀ pair ∈ before, pair.1 ≠ x ∧ pair.2 ≠ x')
    (corresponds : Corresponds id id (before ++ (x, x') :: pairs) y y') :
    y.tag = x ↔ y'.tag = x' := by
  induction before with
  | nil =>
      cases corresponds with
      | here _ same same' => exact iff_of_true same same'
      | there other other' _ => exact iff_of_false other other'
  | cons pair before ih =>
      obtain ⟨other, other'⟩ := others pair List.mem_cons_self
      cases corresponds with
      | here _ same same' =>
          exact iff_of_false (fun equal => other (same.symm.trans equal))
            fun equal => other' (same'.symm.trans equal)
      | there _ _ further =>
          exact ih (fun pair member => others pair (List.mem_cons_of_mem _ member)) further

/-- Instantiating twins gives the same names, and takes as many tags. -/
theorem Twins.instantiate_names {x x' : Tag} {value value' : Term Tagged}
    (values : value.map Tagged.name = value'.map Tagged.name) (body : Term Tagged) :
    ∀ {body' : Term Tagged} {before pairs : List (Tag × Tag)} (gen gen' : Generator),
      Twins (before ++ (x, x') :: pairs) body body' →
      (∀ pair ∈ before, pair.1 ≠ x ∧ pair.2 ≠ x') →
      (∀ z ∈ body.binders, z.tag ≠ x) → (∀ z ∈ body'.binders, z.tag ≠ x') →
        (instantiate x value body gen).1.map Tagged.name =
            (instantiate x' value' body' gen').1.map Tagged.name ∧
          (instantiate x value body gen).2.count - gen.count =
            (instantiate x' value' body' gen').2.count - gen'.count := by
  -- below a binder of other tags
  have below : ∀ {before : List (Tag × Tag)} {z z' : Tag}, z ≠ x → z' ≠ x' →
      (∀ pair ∈ before, pair.1 ≠ x ∧ pair.2 ≠ x') →
      ∀ pair ∈ (z, z') :: before, pair.1 ≠ x ∧ pair.2 ≠ x' := by
    intro before z z' other other' others pair member
    rcases List.mem_cons.1 member with rfl | member
    · exact ⟨other, other'⟩
    · exact others pair member
  induction body with
  | var y =>
      intro body' before pairs gen gen' twins others _ _
      obtain ⟨y', rfl, name, corresponds⟩ := twins.var_parts
      have both := corresponds.tag_eq_iff others
      by_cases same : y.tag = x
      · have sizes := congrArg (fun t => t.binders.length) values
        simp only [binders_map, List.length_map] at sizes
        rw [instantiate_var_self x value gen same,
          instantiate_var_self x' value' gen' (both.1 same), map_name_retag, map_name_retag,
          count_retag, count_retag, sizes]
        exact ⟨values, by omega⟩
      · rw [instantiate_var_of_ne x value gen same,
          instantiate_var_of_ne x' value' gen' fun same' => same (both.2 same')]
        exact ⟨twins.names, (Int.sub_self _).trans (Int.sub_self _).symm⟩
  | app fn arg ihFn ihArg =>
      intro body' before pairs gen gen' twins others apart apart'
      obtain ⟨fn', arg', rfl, inFn, inArg⟩ := twins.app_parts
      obtain ⟨fnNames, fnCount⟩ := ihFn gen gen' inFn others
        (fun z member => apart z (mem_binders_app.2 (.inl member)))
        (fun z member => apart' z (mem_binders_app.2 (.inl member)))
      obtain ⟨argNames, argCount⟩ := ihArg (instantiate x value fn gen).2
        (instantiate x' value' fn' gen').2 inArg others
        (fun z member => apart z (mem_binders_app.2 (.inr member)))
        (fun z member => apart' z (mem_binders_app.2 (.inr member)))
      simp only [instantiate_app, map, fnNames, argNames, true_and]
      omega
  | abs y body ih =>
      intro body' before pairs gen gen' twins others apart apart'
      obtain ⟨y', inner, rfl, name, inBody⟩ := twins.abs_parts
      have other := apart y (mem_binders_abs.2 (.inl rfl))
      have other' := apart' y' (mem_binders_abs.2 (.inl rfl))
      obtain ⟨names, count⟩ := ih gen gen' inBody (below other other' others)
        (fun z member => apart z (mem_binders_abs.2 (.inr member)))
        (fun z member => apart' z (mem_binders_abs.2 (.inr member)))
      rw [instantiate_abs_of_ne x value gen other, instantiate_abs_of_ne x' value' gen' other']
      simp only [map, name, names, true_and]
      exact count
  | pi y dom cod ihDom ihCod =>
      intro body' before pairs gen gen' twins others apart apart'
      obtain ⟨y', dom', cod', rfl, name, inDom, inCod⟩ := twins.pi_parts
      have other := apart y (mem_binders_pi.2 (.inl rfl))
      have other' := apart' y' (mem_binders_pi.2 (.inl rfl))
      obtain ⟨domNames, domCount⟩ := ihDom gen gen' inDom others
        (fun z member => apart z (mem_binders_pi.2 (.inr (.inl member))))
        (fun z member => apart' z (mem_binders_pi.2 (.inr (.inl member))))
      obtain ⟨codNames, codCount⟩ := ihCod (instantiate x value dom gen).2
        (instantiate x' value' dom' gen').2 inCod (below other other' others)
        (fun z member => apart z (mem_binders_pi.2 (.inr (.inr member))))
        (fun z member => apart' z (mem_binders_pi.2 (.inr (.inr member))))
      rw [instantiate_pi_of_ne x value gen other, instantiate_pi_of_ne x' value' gen' other']
      simp only [map, name, domNames, codNames, true_and]
      omega
  | sort u =>
      intro body' before pairs gen gen' twins _ _ _
      rw [twins.sort_parts]
      exact ⟨rfl, (Int.sub_self _).trans (Int.sub_self _).symm⟩

/-- **The contracta of twins are twins**, and take as many tags. -/
theorem Twins.contractum {pairs : List (Tag × Tag)} {x x' : Tagged}
    {body body' arg arg' : Term Tagged} {gen gen' : Generator}
    (twins : Twins pairs (.app (.abs x body) arg) (.app (.abs x' body') arg'))
    (leads : gen.Leads (instantiate x.tag arg body gen).2)
    (upTo : (Term.app (.abs x body) arg).TagsUpTo gen.count)
    (tagged : (Term.app (.abs x body) arg).WellTagged)
    (least : Tag.least ≤ gen'.count) (behind : gen'.count ≤ gen.count)
    (upTo' : (Term.app (.abs x' body') arg').TagsUpTo gen'.count)
    (tagged' : (Term.app (.abs x' body') arg').WellTagged) :
    Twins pairs (instantiate x.tag arg body gen).1 (instantiate x'.tag arg' body' gen').1 ∧
      (instantiate x.tag arg body gen).2.count - gen.count =
        (instantiate x'.tag arg' body' gen').2.count - gen'.count := by
  obtain ⟨_, _, equal, inFn, inArg⟩ := twins.app_parts
  obtain ⟨rfl, rfl⟩ := Term.app.inj equal
  obtain ⟨_, _, equal, _, inBody⟩ := inFn.abs_parts
  obtain ⟨rfl, rfl⟩ := Term.abs.inj equal
  have atBinder : Twins ([] ++ (x.tag, x'.tag) :: pairs) body body' := inBody
  obtain ⟨names, count⟩ := instantiate_names inArg.names body gen gen' atBinder
    (fun _ member => absurd member List.not_mem_nil) tagged.unshadowed.1.1 tagged'.unshadowed.1.1
  have leads' : gen'.Leads (instantiate x'.tag arg' body' gen').2 := by
    refine ⟨least, count_le_instantiate _ _ _ _, ?_⟩
    have greatest := leads.greatest
    omega
  refine ⟨⟨names, (alike_iff_namelessIn_eq _).2 ?_⟩, count⟩
  rw [namelessIn_instantiate id leads upTo.appArg tagged,
    namelessIn_instantiate id leads' upTo'.appArg tagged',
    (alike_iff_namelessIn_eq _).1 inArg.bindings]
  have image := (alike_iff_namelessIn_eq _).1 inBody.bindings
  rw [List.map_cons, List.map_cons] at image
  rw [image]

/-! ## Contractions of twins -/

namespace Contracts

variable {s : Strategy} {gen gen₁ : Generator} {t t₁ : Term Tagged}

theorem count_le (contracts : Contracts s gen t gen₁ t₁) : gen.count ≤ gen₁.count := by
  induction contracts with
  | redex gen _ _ => exact count_le_instantiate _ _ _ _
  | appFn _ ih => exact ih
  | appArg _ _ _ ih => exact ih
  | fnAgain _ _ _ _ _ ih => exact ih
  | argAgain _ _ _ _ _ ih => exact ih
  | abs _ _ ih => exact ih
  | piDom _ _ ih => exact ih
  | piCod _ _ _ ih => exact ih

/-- There is a binder where something is contracted. -/
theorem identifiers_ne_nil (contracts : Contracts s gen t gen₁ t₁) : t.identifiers ≠ [] := by
  induction contracts with
  | redex gen _ _ => exact List.cons_ne_nil _ _
  | appFn _ ih => exact List.append_ne_nil_of_left_ne_nil ih _
  | appArg _ _ _ ih => exact List.append_ne_nil_of_right_ne_nil _ ih
  | fnAgain _ _ _ _ _ ih => exact List.append_ne_nil_of_left_ne_nil ih _
  | argAgain _ _ _ _ _ ih => exact List.append_ne_nil_of_right_ne_nil _ ih
  | abs _ _ _ => exact List.cons_ne_nil _ _
  | piDom _ _ _ => exact List.cons_ne_nil _ _
  | piCod _ _ _ _ => exact List.cons_ne_nil _ _

/-- A contraction is a step of the simulation. -/
theorem simulates {φ : Type} (reading : Tagged → φ) (left : Nat)
    (contracts : Contracts s gen t gen₁ t₁) :
    gen.Leads gen₁ → t.TagsUpTo gen.count → t.WellTagged →
      Simulates reading ⟨gen, left + 1⟩ t ⟨gen₁, left⟩ t₁ := by
  induction contracts with
  | redex gen _ _ =>
      intro leads upTo tagged
      exact .contract rfl leads upTo tagged
  | appFn _ ih =>
      intro leads upTo tagged
      exact (ih leads upTo.appFn tagged.appFn).app (.refl _ tagged.unshadowed.2)
  | appArg _ _ _ ih =>
      intro leads upTo tagged
      exact (Simulates.refl _ tagged.unshadowed.1).app (ih leads upTo.appArg tagged.appArg)
  | fnAgain _ _ _ _ _ ih =>
      intro leads upTo tagged
      exact (ih leads upTo.appFn tagged.appFn).app (.refl _ tagged.unshadowed.2)
  | argAgain _ _ _ _ _ ih =>
      intro leads upTo tagged
      exact (Simulates.refl _ tagged.unshadowed.1).app (ih leads upTo.appArg tagged.appArg)
  | abs _ _ ih =>
      intro leads upTo tagged
      exact (ih leads upTo.absBody tagged.absBody).abs upTo tagged.unshadowed
  | piDom _ _ ih =>
      intro leads upTo tagged
      exact (ih leads upTo.piDom tagged.piDom).pi (.refl _ tagged.unshadowed.2.2) upTo
        tagged.unshadowed
  | piCod _ _ _ ih =>
      intro leads upTo tagged
      exact (Simulates.refl _ tagged.unshadowed.1).pi (ih leads upTo.piCod tagged.piCod) upTo
        tagged.unshadowed

/-- **A contraction has a counterpart in each twin**, made with a generator that is not ahead. -/
theorem twins (contracts : Contracts s gen t gen₁ t₁) :
    ∀ {pairs : List (Tag × Tag)} {t' : Term Tagged} {gen' : Generator}, Twins pairs t t' →
      gen.Leads gen₁ → t.TagsUpTo gen.count → t.WellTagged →
      Tag.least ≤ gen'.count → gen'.count ≤ gen.count → t'.TagsUpTo gen'.count → t'.WellTagged →
        ∃ gen₁' t₁', Contracts s gen' t' gen₁' t₁' ∧ Twins pairs t₁ t₁' ∧
          gen₁.count - gen.count = gen₁'.count - gen'.count := by
  induction contracts with
  | redex gen inFn inArg =>
      intro pairs t' gen' twins leads upTo tagged least behind upTo' tagged'
      obtain ⟨fn', arg', rfl, fnTwins, argTwins⟩ := twins.app_parts
      obtain ⟨x', body', rfl, _, _⟩ := fnTwins.abs_parts
      obtain ⟨after, count⟩ := twins.contractum leads upTo tagged least behind upTo' tagged'
      exact ⟨_, _, .redex gen' (fnTwins.holds_iff.1 inFn)
        (fun eager => argTwins.holds_iff.1 (inArg eager)), after, count⟩
  | appFn _ ih =>
      intro pairs t' gen' twins leads upTo tagged least behind upTo' tagged'
      obtain ⟨fn', arg', rfl, fnTwins, argTwins⟩ := twins.app_parts
      obtain ⟨gen₁', fn₁', step, after, count⟩ := ih fnTwins leads upTo.appFn tagged.appFn least
        behind upTo'.appFn tagged'.appFn
      exact ⟨gen₁', _, .appFn step, after.app argTwins, count⟩
  | appArg inFn eager _ ih =>
      intro pairs t' gen' twins leads upTo tagged least behind upTo' tagged'
      obtain ⟨fn', arg', rfl, fnTwins, argTwins⟩ := twins.app_parts
      obtain ⟨gen₁', arg₁', step, after, count⟩ := ih argTwins leads upTo.appArg tagged.appArg least
        behind upTo'.appArg tagged'.appArg
      exact ⟨gen₁', _, .appArg (fnTwins.holds_iff.1 inFn) eager step, fnTwins.app after, count⟩
  | fnAgain hybrid inFn notAbs inArg _ ih =>
      intro pairs t' gen' twins leads upTo tagged least behind upTo' tagged'
      obtain ⟨fn', arg', rfl, fnTwins, argTwins⟩ := twins.app_parts
      obtain ⟨gen₁', fn₁', step, after, count⟩ := ih fnTwins leads upTo.appFn tagged.appFn least
        behind upTo'.appFn tagged'.appFn
      exact ⟨gen₁', _, .fnAgain hybrid (fnTwins.holds_iff.1 inFn)
        (fun isAbs => notAbs (fnTwins.isAbs_iff.2 isAbs))
        (fun eager => argTwins.holds_iff.1 (inArg eager)) step, after.app argTwins, count⟩
  | argAgain hybrid lazy inFn notAbs _ ih =>
      intro pairs t' gen' twins leads upTo tagged least behind upTo' tagged'
      obtain ⟨fn', arg', rfl, fnTwins, argTwins⟩ := twins.app_parts
      obtain ⟨gen₁', arg₁', step, after, count⟩ := ih argTwins leads upTo.appArg tagged.appArg least
        behind upTo'.appArg tagged'.appArg
      exact ⟨gen₁', _, .argAgain hybrid lazy (fnTwins.holds_iff.1 inFn)
        (fun isAbs => notAbs (fnTwins.isAbs_iff.2 isAbs)) step, fnTwins.app after, count⟩
  | abs strong _ ih =>
      intro pairs t' gen' twins leads upTo tagged least behind upTo' tagged'
      obtain ⟨x', body', rfl, name, inBody⟩ := twins.abs_parts
      obtain ⟨gen₁', body₁', step, after, count⟩ := ih inBody leads upTo.absBody tagged.absBody
        least behind upTo'.absBody tagged'.absBody
      exact ⟨gen₁', _, .abs strong step, after.abs name, count⟩
  | piDom strong _ ih =>
      intro pairs t' gen' twins leads upTo tagged least behind upTo' tagged'
      obtain ⟨x', dom', cod', rfl, name, domTwins, codTwins⟩ := twins.pi_parts
      obtain ⟨gen₁', dom₁', step, after, count⟩ := ih domTwins leads upTo.piDom tagged.piDom least
        behind upTo'.piDom tagged'.piDom
      exact ⟨gen₁', _, .piDom strong step, after.pi name codTwins, count⟩
  | piCod strong inDom _ ih =>
      intro pairs t' gen' twins leads upTo tagged least behind upTo' tagged'
      obtain ⟨x', dom', cod', rfl, name, domTwins, codTwins⟩ := twins.pi_parts
      obtain ⟨gen₁', cod₁', step, after, count⟩ := ih codTwins leads upTo.piCod tagged.piCod least
        behind upTo'.piCod tagged'.piCod
      exact ⟨gen₁', _, .piCod strong (domTwins.holds_iff.1 inDom) step, domTwins.pi name after,
        count⟩

end Contracts

theorem Contractions.count_le {s : Strategy} {n : Nat} {gen gen' : Generator} {t t' : Term Tagged}
    (contractions : Contractions s n gen t gen' t') : gen.count ≤ gen'.count := by
  induction contractions with
  | none gen t => exact Int.le_refl _
  | next step _ ih => exact Int.le_trans step.count_le ih

/-- What each contraction of a well-tagged term keeps, a sequence of them keeps. -/
theorem Contractions.keeps {s : Strategy} {kept : Term Tagged → Prop}
    (one : ∀ {gen gen₁ : Generator} {t t₁ : Term Tagged}, Contracts s gen t gen₁ t₁ →
      gen.Leads gen₁ → t.TagsUpTo gen.count → t.WellTagged → kept t → kept t₁)
    {n : Nat} {gen gen' : Generator} {t t' : Term Tagged}
    (contractions : Contractions s n gen t gen' t') :
    gen.Leads gen' → t.TagsUpTo gen.count → t.WellTagged → kept t → kept t' := by
  induction contractions with
  | none gen t =>
      intro _ _ _ holds
      exact holds
  | next step rest ih =>
      intro leads upTo tagged holds
      obtain ⟨toNext, onwards⟩ := leads.split step.count_le rest.count_le
      have first := step.simulates id 0 toNext upTo tagged
      exact ih onwards (first.tagsUpTo upTo) (first.wellTagged upTo tagged)
        (one step toNext upTo tagged holds)

end Redex
