import Redex.Proofs.Reduction.Copy

/-!
# Instantiation

Instantiating a body puts a retagged copy of the value in place of each occurrence of a tag. The
result has no free occurrence that the body or the value did not have, and its binders are those of
the body and new ones (`refreshes_instantiate`); it shadows nothing if the body did not
(`unshadowed_instantiate`).

If no binder of the body claims a free occurrence of the value, nothing is captured: the nameless
image of the result is the contraction of the image of the body with that of the value
(`namelessIn_instantiate`). Well-tagged redexes are of that kind.
-/

set_option autoImplicit false

namespace Redex.Term

/-! ## Equations -/

section Equations

variable (x : Tag) (value : Term Tagged) (gen : Generator)

theorem instantiate_var_self {y : Tagged} (same : y.tag = x) :
    instantiate x value (var y) gen = value.retag [] gen := by
  rw [instantiate, if_pos same]

theorem instantiate_var_of_ne {y : Tagged} (other : y.tag ≠ x) :
    instantiate x value (var y) gen = (var y, gen) := by
  rw [instantiate, if_neg other]

theorem instantiate_app (fn arg : Term Tagged) :
    instantiate x value (app fn arg) gen =
      (app (instantiate x value fn gen).1
        (instantiate x value arg (instantiate x value fn gen).2).1,
        (instantiate x value arg (instantiate x value fn gen).2).2) := rfl

theorem instantiate_abs_self {y : Tagged} (same : y.tag = x) (body : Term Tagged) :
    instantiate x value (abs y body) gen = (abs y body, gen) := by
  rw [instantiate, if_pos same]

theorem instantiate_abs_of_ne {y : Tagged} (other : y.tag ≠ x) (body : Term Tagged) :
    instantiate x value (abs y body) gen =
      (abs y (instantiate x value body gen).1, (instantiate x value body gen).2) := by
  rw [instantiate, if_neg other]

theorem instantiate_pi_self {y : Tagged} (same : y.tag = x) (dom cod : Term Tagged) :
    instantiate x value (pi y dom cod) gen =
      (pi y (instantiate x value dom gen).1 cod, (instantiate x value dom gen).2) := by
  simp only [instantiate, if_pos same]

theorem instantiate_pi_of_ne {y : Tagged} (other : y.tag ≠ x) (dom cod : Term Tagged) :
    instantiate x value (pi y dom cod) gen =
      (pi y (instantiate x value dom gen).1
        (instantiate x value cod (instantiate x value dom gen).2).1,
        (instantiate x value cod (instantiate x value dom gen).2).2) := by
  simp only [instantiate, if_neg other]

end Equations

theorem count_le_instantiate (x : Tag) (value body : Term Tagged) :
    ∀ gen : Generator, gen.count ≤ (instantiate x value body gen).2.count := by
  induction body with
  | var y =>
      intro gen
      by_cases same : y.tag = x
      · rw [instantiate_var_self x value gen same]
        exact count_le_retag [] gen value
      · refine Int.le_of_eq ?_
        rw [instantiate_var_of_ne x value gen same]
  | app fn arg ihFn ihArg =>
      intro gen
      exact Int.le_trans (ihFn gen) (ihArg _)
  | abs y body ih =>
      intro gen
      by_cases same : y.tag = x
      · refine Int.le_of_eq ?_
        rw [instantiate_abs_self x value gen same]
      · rw [instantiate_abs_of_ne x value gen same]
        exact ih gen
  | pi y dom cod ihDom ihCod =>
      intro gen
      by_cases same : y.tag = x
      · rw [instantiate_pi_self x value gen same]
        exact ihDom gen
      · rw [instantiate_pi_of_ne x value gen same]
        exact Int.le_trans (ihDom gen) (ihCod _)
  | sort u =>
      intro gen
      exact Int.le_refl _

section Way

variable {x : Tag} {y : Tagged} {value fn arg dom cod : Term Tagged} {gen : Generator}

theorem leads_instantiate_app (leads : gen.Leads (instantiate x value (app fn arg) gen).2) :
    gen.Leads (instantiate x value fn gen).2 ∧
      (instantiate x value fn gen).2.Leads
        (instantiate x value arg (instantiate x value fn gen).2).2 :=
  leads.split (count_le_instantiate x value fn gen) (count_le_instantiate x value arg _)

theorem leads_instantiate_pi (other : y.tag ≠ x)
    (leads : gen.Leads (instantiate x value (pi y dom cod) gen).2) :
    gen.Leads (instantiate x value dom gen).2 ∧
      (instantiate x value dom gen).2.Leads
        (instantiate x value cod (instantiate x value dom gen).2).2 := by
  rw [instantiate_pi_of_ne x value gen other] at leads
  exact leads.split (count_le_instantiate x value dom gen) (count_le_instantiate x value cod _)

end Way

/-! ## Binders and free occurrences -/

variable {x : Tag} {value : Term Tagged}

/-- The binders of the result are those of the body and new ones. -/
theorem mem_binders_instantiate {z : Tagged} (body : Term Tagged) :
    ∀ {gen : Generator}, gen.Leads (instantiate x value body gen).2 →
      z ∈ (instantiate x value body gen).1.binders →
        z ∈ body.binders ∨
          (gen.count < z.tag.toInt ∧ z.tag.toInt ≤ (instantiate x value body gen).2.count) := by
  induction body with
  | var y =>
      intro gen leads member
      by_cases same : y.tag = x
      · rw [instantiate_var_self x value gen same] at leads member ⊢
        exact .inr (tag_of_mem_binders_retag value leads member)
      · rw [instantiate_var_of_ne x value gen same] at member
        exact absurd member not_mem_binders_var
  | app fn arg ihFn ihArg =>
      intro gen leads member
      obtain ⟨toFn, toArg⟩ := leads_instantiate_app leads
      rw [instantiate_app] at member ⊢
      rw [mem_binders_app]
      rcases mem_binders_app.1 member with inFn | inArg
      · exact (ihFn toFn inFn).imp .inl fun new => ⟨new.1, Int.le_trans new.2 toArg.le⟩
      · exact (ihArg toArg inArg).imp .inr fun new => ⟨Int.lt_of_le_of_lt toFn.le new.1, new.2⟩
  | abs y body ih =>
      intro gen leads member
      by_cases same : y.tag = x
      · rw [instantiate_abs_self x value gen same] at member
        exact .inl member
      · rw [instantiate_abs_of_ne x value gen same] at leads member ⊢
        rw [mem_binders_abs]
        rcases mem_binders_abs.1 member with equal | inBody
        · exact .inl (.inl equal)
        · exact (ih leads inBody).imp_left .inr
  | pi y dom cod ihDom ihCod =>
      intro gen leads member
      rw [mem_binders_pi]
      by_cases same : y.tag = x
      · rw [instantiate_pi_self x value gen same] at leads member ⊢
        rcases mem_binders_pi.1 member with equal | inDom | inCod
        · exact .inl (.inl equal)
        · exact (ihDom leads inDom).imp_left fun old => .inr (.inl old)
        · exact .inl (.inr (.inr inCod))
      · obtain ⟨toDom, toCod⟩ := leads_instantiate_pi same leads
        rw [instantiate_pi_of_ne x value gen same] at member ⊢
        rcases mem_binders_pi.1 member with equal | inDom | inCod
        · exact .inl (.inl equal)
        · exact (ihDom toDom inDom).imp (fun old => .inr (.inl old)) fun new =>
            ⟨new.1, Int.le_trans new.2 toCod.le⟩
        · exact (ihCod toCod inCod).imp (fun old => .inr (.inr old)) fun new =>
            ⟨Int.lt_of_le_of_lt toDom.le new.1, new.2⟩
  | sort u =>
      intro gen _ member
      exact absurd member not_mem_binders_sort

/-- What is free in the result is free in the value, or in the body and not replaced. -/
theorem hasFree_of_instantiate {y : Tagged} (body : Term Tagged) :
    ∀ {gen : Generator}, gen.Leads (instantiate x value body gen).2 → value.TagsUpTo gen.count →
      (instantiate x value body gen).1.HasFree y →
        (body.HasFree y ∧ y.tag ≠ x) ∨ value.HasFree y := by
  induction body with
  | var z =>
      intro gen leads upTo free
      by_cases same : z.tag = x
      · rw [instantiate_var_self x value gen same] at leads free
        exact .inr ((hasFree_retag_nil leads upTo y).1 free)
      · rw [instantiate_var_of_ne x value gen same] at free
        rw [hasFree_var.1 free]
        exact .inl ⟨hasFree_var.2 rfl, same⟩
  | app fn arg ihFn ihArg =>
      intro gen leads upTo free
      obtain ⟨toFn, toArg⟩ := leads_instantiate_app leads
      rw [instantiate_app] at free
      rcases hasFree_app.1 free with inFn | inArg
      · exact (ihFn toFn upTo inFn).imp_left fun old => ⟨hasFree_app.2 (.inl old.1), old.2⟩
      · exact (ihArg toArg (upTo.mono toFn.le) inArg).imp_left fun old =>
          ⟨hasFree_app.2 (.inr old.1), old.2⟩
  | abs z body ih =>
      intro gen leads upTo free
      by_cases same : z.tag = x
      · rw [instantiate_abs_self x value gen same] at free
        refine .inl ⟨free, ?_⟩
        rw [← same]
        exact (hasFree_abs.1 free).2
      · rw [instantiate_abs_of_ne x value gen same] at leads free
        obtain ⟨inBody, unclaimed⟩ := hasFree_abs.1 free
        exact (ih leads upTo inBody).imp_left fun old => ⟨hasFree_abs.2 ⟨old.1, unclaimed⟩, old.2⟩
  | pi z dom cod ihDom ihCod =>
      intro gen leads upTo free
      by_cases same : z.tag = x
      · rw [instantiate_pi_self x value gen same] at leads free
        rcases hasFree_pi.1 free with inDom | ⟨inCod, unclaimed⟩
        · exact (ihDom leads upTo inDom).imp_left fun old => ⟨hasFree_pi.2 (.inl old.1), old.2⟩
        · refine .inl ⟨hasFree_pi.2 (.inr ⟨inCod, unclaimed⟩), ?_⟩
          rw [← same]
          exact unclaimed
      · obtain ⟨toDom, toCod⟩ := leads_instantiate_pi same leads
        rw [instantiate_pi_of_ne x value gen same] at free
        rcases hasFree_pi.1 free with inDom | ⟨inCod, unclaimed⟩
        · exact (ihDom toDom upTo inDom).imp_left fun old => ⟨hasFree_pi.2 (.inl old.1), old.2⟩
        · exact (ihCod toCod (upTo.mono toDom.le) inCod).imp_left fun old =>
            ⟨hasFree_pi.2 (.inr ⟨old.1, unclaimed⟩), old.2⟩
  | sort u =>
      intro gen _ _ free
      exact absurd free not_hasFree_sort

/-- **A contractum may stand in place of its redex.** -/
theorem refreshes_instantiate {y : Tagged} {body : Term Tagged} {gen : Generator}
    (leads : gen.Leads (instantiate y.tag value body gen).2) (upTo : value.TagsUpTo gen.count) :
    Refreshes gen.count (instantiate y.tag value body gen).2.count (app (abs y body) value)
      (instantiate y.tag value body gen).1 where
  free z free := by
    rcases hasFree_of_instantiate body leads upTo free with inBody | inValue
    · exact hasFree_app.2 (.inl (hasFree_abs.2 inBody))
    · exact hasFree_app.2 (.inr inValue)
  binders z member := by
    refine (mem_binders_instantiate body leads member).imp_left fun inBody => ?_
    exact mem_binders_app.2 (.inl (mem_binders_abs.2 (.inr inBody)))

/-- A binder of the body keeps its tag to itself: the binders of the copies in its scope are new. -/
theorem unshadowed_instantiate (body : Term Tagged) :
    ∀ {gen : Generator}, gen.Leads (instantiate x value body gen).2 →
      body.TagsUpTo gen.count → body.Unshadowed →
        (instantiate x value body gen).1.Unshadowed := by
  have below : ∀ {y : Tagged} {body : Term Tagged} {gen : Generator},
      gen.Leads (instantiate x value body gen).2 → y.tag.toInt ≤ gen.count →
      (∀ z ∈ body.binders, z.tag ≠ y.tag) →
      ∀ z ∈ (instantiate x value body gen).1.binders, z.tag ≠ y.tag := by
    intro y body gen leads old unshadowed
    exact tag_ne_of_new (fun z member => mem_binders_instantiate body leads member) old unshadowed
  induction body with
  | var y =>
      intro gen leads _ _
      by_cases same : y.tag = x
      · rw [instantiate_var_self x value gen same] at leads ⊢
        exact unshadowed_retag value leads
      · rw [instantiate_var_of_ne x value gen same]
        trivial
  | app fn arg ihFn ihArg =>
      intro gen leads upTo unshadowed
      obtain ⟨toFn, toArg⟩ := leads_instantiate_app leads
      exact ⟨ihFn toFn upTo.appFn unshadowed.1,
        ihArg toArg (upTo.appArg.mono toFn.le) unshadowed.2⟩
  | abs y body ih =>
      intro gen leads upTo unshadowed
      by_cases same : y.tag = x
      · rw [instantiate_abs_self x value gen same]
        exact unshadowed
      · rw [instantiate_abs_of_ne x value gen same] at leads ⊢
        exact ⟨below leads upTo.absBinder unshadowed.1, ih leads upTo.absBody unshadowed.2⟩
  | pi y dom cod ihDom ihCod =>
      intro gen leads upTo unshadowed
      by_cases same : y.tag = x
      · rw [instantiate_pi_self x value gen same] at leads ⊢
        exact ⟨ihDom leads upTo.piDom unshadowed.1, unshadowed.2⟩
      · obtain ⟨toDom, toCod⟩ := leads_instantiate_pi same leads
        rw [instantiate_pi_of_ne x value gen same]
        exact ⟨ihDom toDom upTo.piDom unshadowed.1,
          below toCod (Int.le_trans upTo.piBinder toDom.le) unshadowed.2.1,
          ihCod toCod (upTo.piCod.mono toDom.le) unshadowed.2.2⟩
  | sort u =>
      intro gen _ _ _
      trivial

/-! ## Nameless images -/

section Image

variable {φ : Type} (reading : Tagged → φ)

/-- Below a binder that claims nothing in the value, the images still agree. -/
theorem namelessIn_replaced_below {z : Tagged} {body : Term Tagged} {scope scope' : List Tag}
    {σ : Nat → Nameless φ} (other : z.tag ≠ x) (apart : ∀ y, value.HasFree y → y.tag ≠ z.tag)
    (agree : ∀ y, (abs z body).HasFree y → ((var y).namelessIn reading scope).subst σ =
      (if y.tag = x then value else var y).namelessIn reading scope')
    (y : Tagged) (free : body.HasFree y) :
    ((var y).namelessIn reading (z.tag :: scope)).subst (Nameless.liftSubstitution σ) =
      (if y.tag = x then value else var y).namelessIn reading (z.tag :: scope') := by
  by_cases same : y.tag = z.tag
  · rw [namelessIn_var_cons_self reading same, if_neg (same ▸ other),
      namelessIn_var_cons_self reading same]
    rfl
  · rw [namelessIn_var_cons_of_ne reading same, Nameless.subst_liftSubstitution_shift,
      agree y (hasFree_abs.2 ⟨free, same⟩)]
    by_cases replaced : y.tag = x
    · rw [if_pos replaced]
      exact (namelessIn_cons_of_not_free reading apart scope').symm
    · rw [if_neg replaced]
      exact (namelessIn_var_cons_of_ne reading same scope').symm

/-- The image of the result is a substitution in that of the body, where the images of the
occurrences agree. -/
theorem namelessIn_instantiate_of_agree (body : Term Tagged) :
    ∀ {gen : Generator} {scope scope' : List Tag} {σ : Nat → Nameless φ},
      gen.Leads (instantiate x value body gen).2 → value.TagsUpTo gen.count →
      (∀ z ∈ body.binders, z.tag ≠ x) → value.Apart body →
      (∀ y, body.HasFree y → ((var y).namelessIn reading scope).subst σ =
        (if y.tag = x then value else var y).namelessIn reading scope') →
        (instantiate x value body gen).1.namelessIn reading scope' =
          (body.namelessIn reading scope).subst σ := by
  induction body with
  | var y =>
      intro gen scope scope' σ leads upTo _ _ agree
      rw [agree y (hasFree_var.2 rfl)]
      by_cases same : y.tag = x
      · rw [instantiate_var_self x value gen same] at leads ⊢
        rw [if_pos same]
        exact namelessIn_retag_nil reading leads upTo scope'
      · rw [instantiate_var_of_ne x value gen same, if_neg same]
  | app fn arg ihFn ihArg =>
      intro gen scope scope' σ leads upTo others apart agree
      obtain ⟨toFn, toArg⟩ := leads_instantiate_app leads
      have inFn := ihFn toFn upTo
        (fun z member => others z (mem_binders_app.2 (.inl member)))
        (fun y free z member => apart y free z (mem_binders_app.2 (.inl member)))
        (fun y free => agree y (hasFree_app.2 (.inl free)))
      have inArg := ihArg toArg (upTo.mono toFn.le)
        (fun z member => others z (mem_binders_app.2 (.inr member)))
        (fun y free z member => apart y free z (mem_binders_app.2 (.inr member)))
        (fun y free => agree y (hasFree_app.2 (.inr free)))
      simp only [instantiate_app, namelessIn, Nameless.subst, inFn, inArg]
  | abs z body ih =>
      intro gen scope scope' σ leads upTo others apart agree
      have binder : z ∈ (abs z body).binders := mem_binders_abs.2 (.inl rfl)
      rw [instantiate_abs_of_ne x value gen (others z binder)] at leads ⊢
      have inBody := ih leads upTo
        (fun z' member => others z' (mem_binders_abs.2 (.inr member)))
        (fun y free z' member => apart y free z' (mem_binders_abs.2 (.inr member)))
        (namelessIn_replaced_below reading (others z binder)
          (fun y free => apart y free z binder) agree)
      exact congrArg Nameless.abs inBody
  | pi z dom cod ihDom ihCod =>
      intro gen scope scope' σ leads upTo others apart agree
      have binder : z ∈ (pi z dom cod).binders := mem_binders_pi.2 (.inl rfl)
      obtain ⟨toDom, toCod⟩ := leads_instantiate_pi (others z binder) leads
      have inDom := ihDom toDom upTo
        (fun z' member => others z' (mem_binders_pi.2 (.inr (.inl member))))
        (fun y free z' member => apart y free z' (mem_binders_pi.2 (.inr (.inl member))))
        (fun y free => agree y (hasFree_pi_iff_abs.2 (.inl free)))
      have inCod := ihCod toCod (upTo.mono toDom.le)
        (fun z' member => others z' (mem_binders_pi.2 (.inr (.inr member))))
        (fun y free z' member => apart y free z' (mem_binders_pi.2 (.inr (.inr member))))
        (namelessIn_replaced_below reading (others z binder)
          (fun y free => apart y free z binder)
          (fun y free => agree y (hasFree_pi_iff_abs.2 (.inr free))))
      rw [instantiate_pi_of_ne x value gen (others z binder)]
      simp only [namelessIn, Nameless.subst]
      rw [inDom]
      exact congrArg (Nameless.pi _) inCod
  | sort u =>
      intro gen scope scope' σ _ _ _ _ _
      rfl

/-- **Contracting a well-tagged redex contracts its nameless image.** -/
theorem namelessIn_instantiate {y : Tagged} {body : Term Tagged} {gen : Generator}
    (leads : gen.Leads (instantiate y.tag value body gen).2) (upTo : value.TagsUpTo gen.count)
    (tagged : (app (abs y body) value).WellTagged) (scope : List Tag) :
    (instantiate y.tag value body gen).1.namelessIn reading scope =
      (body.namelessIn reading (y.tag :: scope)).contract (value.namelessIn reading scope) := by
  refine namelessIn_instantiate_of_agree reading body leads upTo tagged.unshadowed.1.1 ?_ ?_
  · intro z free z' member
    exact tagged.apart z (hasFree_app.2 (.inr free)) z'
      (mem_binders_app.2 (.inl (mem_binders_abs.2 (.inr member))))
  · intro z _
    by_cases same : z.tag = y.tag
    · rw [namelessIn_var_cons_self reading same, if_pos same]
      rfl
    · rw [namelessIn_var_cons_of_ne reading same, if_neg same, Nameless.subst_putFirst_shift]

end Image

end Redex.Term
