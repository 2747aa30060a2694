import Redex.Proofs.Reduction.Agreement
import Redex.Proofs.Tagging

/-!
# Plain replacement

Substituting by hand puts the value itself in place of each occurrence of the bound variable, as
often as it occurs and below whatever binders lie around. Nothing is retagged, so the result shares
binders with the value, and several copies share them with each other.

This is still capture-avoiding substitution if abstraction and value have been tagged apart
(`Separate`), as terms that take their tags from one generator are (`separate_tagWith`). Then the
application of the abstraction to the value is well-tagged (`wellTagged_app`), no binder of the body
claims anything in the value, and no binder of a copy lies in the scope of one with its tag. Copies
may have binders in common because they lie side by side. So the result is what the application
contracts to, up to the tags of binders, and reduces to the same normal form.

The generator of a run is beyond this: once it has handed out the largest tag, a contraction may
capture what the replacement does not (`run_differs_from_substitute`).
-/

set_option autoImplicit false

namespace Redex

namespace Term

variable {x : Tag} {value : Term Tagged}

/-! ## Binders and free occurrences -/

theorem replace_var_self {y : Tagged} (same : y.tag = x) : replace x value (var y) = value :=
  if_pos same

theorem replace_var_of_ne {y : Tagged} (other : y.tag ≠ x) : replace x value (var y) = var y :=
  if_neg other

theorem replace_abs_self {y : Tagged} (same : y.tag = x) (body : Term Tagged) :
    replace x value (abs y body) = abs y body :=
  if_pos same

theorem replace_abs_of_ne {y : Tagged} (other : y.tag ≠ x) (body : Term Tagged) :
    replace x value (abs y body) = abs y (replace x value body) :=
  if_neg other

theorem replace_pi_self {y : Tagged} (same : y.tag = x) (dom cod : Term Tagged) :
    replace x value (pi y dom cod) = pi y (replace x value dom) cod :=
  congrArg (pi y _) (if_pos same)

theorem replace_pi_of_ne {y : Tagged} (other : y.tag ≠ x) (dom cod : Term Tagged) :
    replace x value (pi y dom cod) = pi y (replace x value dom) (replace x value cod) :=
  congrArg (pi y _) (if_neg other)

/-- The binders of the result are those of the body and of the value. -/
theorem mem_binders_replace {z : Tagged} (body : Term Tagged) :
    z ∈ (replace x value body).binders → z ∈ body.binders ∨ z ∈ value.binders := by
  induction body with
  | var y =>
      intro member
      by_cases same : y.tag = x
      · rw [replace_var_self same] at member
        exact .inr member
      · rw [replace_var_of_ne same] at member
        exact .inl member
  | app fn arg ihFn ihArg =>
      intro member
      rw [mem_binders_app]
      rcases mem_binders_app.1 member with inFn | inArg
      · exact (ihFn inFn).imp_left .inl
      · exact (ihArg inArg).imp_left .inr
  | abs y body ih =>
      intro member
      by_cases same : y.tag = x
      · rw [replace_abs_self same] at member
        exact .inl member
      · rw [replace_abs_of_ne same] at member
        rw [mem_binders_abs]
        rcases mem_binders_abs.1 member with equal | inBody
        · exact .inl (.inl equal)
        · exact (ih inBody).imp_left .inr
  | pi y dom cod ihDom ihCod =>
      intro member
      rw [mem_binders_pi]
      by_cases same : y.tag = x
      · rw [replace_pi_self same] at member
        rcases mem_binders_pi.1 member with equal | inDom | inCod
        · exact .inl (.inl equal)
        · exact (ihDom inDom).imp_left fun old => .inr (.inl old)
        · exact .inl (.inr (.inr inCod))
      · rw [replace_pi_of_ne same] at member
        rcases mem_binders_pi.1 member with equal | inDom | inCod
        · exact .inl (.inl equal)
        · exact (ihDom inDom).imp_left fun old => .inr (.inl old)
        · exact (ihCod inCod).imp_left fun old => .inr (.inr old)
  | sort u => exact fun member => absurd member not_mem_binders_sort

/-- What is free in the result is free in the value, or in the body and not replaced. -/
theorem hasFree_of_replace {y : Tagged} (body : Term Tagged) :
    (replace x value body).HasFree y → (body.HasFree y ∧ y.tag ≠ x) ∨ value.HasFree y := by
  induction body with
  | var z =>
      intro free
      by_cases same : z.tag = x
      · rw [replace_var_self same] at free
        exact .inr free
      · rw [replace_var_of_ne same] at free
        rw [hasFree_var.1 free]
        exact .inl ⟨hasFree_var.2 rfl, same⟩
  | app fn arg ihFn ihArg =>
      intro free
      rcases hasFree_app.1 free with inFn | inArg
      · exact (ihFn inFn).imp_left fun old => ⟨hasFree_app.2 (.inl old.1), old.2⟩
      · exact (ihArg inArg).imp_left fun old => ⟨hasFree_app.2 (.inr old.1), old.2⟩
  | abs z body ih =>
      intro free
      by_cases same : z.tag = x
      · rw [replace_abs_self same] at free
        refine .inl ⟨free, ?_⟩
        rw [← same]
        exact (hasFree_abs.1 free).2
      · rw [replace_abs_of_ne same] at free
        obtain ⟨inBody, unclaimed⟩ := hasFree_abs.1 free
        exact (ih inBody).imp_left fun old => ⟨hasFree_abs.2 ⟨old.1, unclaimed⟩, old.2⟩
  | pi z dom cod ihDom ihCod =>
      intro free
      by_cases same : z.tag = x
      · rw [replace_pi_self same] at free
        rcases hasFree_pi.1 free with inDom | ⟨inCod, unclaimed⟩
        · exact (ihDom inDom).imp_left fun old => ⟨hasFree_pi.2 (.inl old.1), old.2⟩
        · refine .inl ⟨hasFree_pi.2 (.inr ⟨inCod, unclaimed⟩), ?_⟩
          rw [← same]
          exact unclaimed
      · rw [replace_pi_of_ne same] at free
        rcases hasFree_pi.1 free with inDom | ⟨inCod, unclaimed⟩
        · exact (ihDom inDom).imp_left fun old => ⟨hasFree_pi.2 (.inl old.1), old.2⟩
        · exact (ihCod inCod).imp_left fun old =>
            ⟨hasFree_pi.2 (.inr ⟨old.1, unclaimed⟩), old.2⟩
  | sort u => exact fun free => absurd free not_hasFree_sort

/-- No binder of a copy is shadowed by one of the body, if the two have no binder's tag in
common. -/
theorem unshadowed_replace (inValue : value.Unshadowed) (body : Term Tagged) :
    (∀ z ∈ body.binders, ∀ w ∈ value.binders, w.tag ≠ z.tag) → body.Unshadowed →
      (replace x value body).Unshadowed := by
  -- a binder in the scope of `y` is one of the body or one of the value
  have below : ∀ {y : Tagged} {body : Term Tagged}, (∀ z ∈ body.binders, z.tag ≠ y.tag) →
      (∀ w ∈ value.binders, w.tag ≠ y.tag) →
      ∀ z ∈ (replace x value body).binders, z.tag ≠ y.tag := by
    intro y body inBody inValue z member
    exact (mem_binders_replace body member).elim (inBody z) (inValue z)
  induction body with
  | var y =>
      intro _ _
      by_cases same : y.tag = x
      · rw [replace_var_self same]
        exact inValue
      · rw [replace_var_of_ne same]
        trivial
  | app fn arg ihFn ihArg =>
      intro differ unshadowed
      exact ⟨ihFn (fun z member => differ z (mem_binders_app.2 (.inl member))) unshadowed.1,
        ihArg (fun z member => differ z (mem_binders_app.2 (.inr member))) unshadowed.2⟩
  | abs y body ih =>
      intro differ unshadowed
      by_cases same : y.tag = x
      · rw [replace_abs_self same]
        exact unshadowed
      · rw [replace_abs_of_ne same]
        exact ⟨below unshadowed.1 (differ y (mem_binders_abs.2 (.inl rfl))),
          ih (fun z member => differ z (mem_binders_abs.2 (.inr member))) unshadowed.2⟩
  | pi y dom cod ihDom ihCod =>
      intro differ unshadowed
      have inDom := ihDom (fun z member => differ z (mem_binders_pi.2 (.inr (.inl member))))
        unshadowed.1
      by_cases same : y.tag = x
      · rw [replace_pi_self same]
        exact ⟨inDom, unshadowed.2⟩
      · rw [replace_pi_of_ne same]
        exact ⟨inDom, below unshadowed.2.1 (differ y (mem_binders_pi.2 (.inl rfl))),
          ihCod (fun z member => differ z (mem_binders_pi.2 (.inr (.inr member))))
            unshadowed.2.2⟩
  | sort u => exact fun _ _ => trivial

/-! ## Nameless images -/

section Image

variable {φ : Type} (reading : Tagged → φ)

/-- The image of the result is a substitution in that of the body, where the images of the
occurrences agree. -/
theorem namelessIn_replace_of_agree (body : Term Tagged) :
    ∀ {scope scope' : List Tag} {σ : Nat → Nameless φ},
      (∀ z ∈ body.binders, z.tag ≠ x) → value.Apart body →
      (∀ y, body.HasFree y → ((var y).namelessIn reading scope).subst σ =
        (if y.tag = x then value else var y).namelessIn reading scope') →
        (replace x value body).namelessIn reading scope' =
          (body.namelessIn reading scope).subst σ := by
  induction body with
  | var y =>
      intro scope scope' σ _ _ agree
      exact (agree y (hasFree_var.2 rfl)).symm
  | app fn arg ihFn ihArg =>
      intro scope scope' σ others apart agree
      have inFn := ihFn (fun z member => others z (mem_binders_app.2 (.inl member)))
        (fun y free z member => apart y free z (mem_binders_app.2 (.inl member)))
        (fun y free => agree y (hasFree_app.2 (.inl free)))
      have inArg := ihArg (fun z member => others z (mem_binders_app.2 (.inr member)))
        (fun y free z member => apart y free z (mem_binders_app.2 (.inr member)))
        (fun y free => agree y (hasFree_app.2 (.inr free)))
      exact congrArg₂ Nameless.app inFn inArg
  | abs z body ih =>
      intro scope scope' σ others apart agree
      have binder : z ∈ (abs z body).binders := mem_binders_abs.2 (.inl rfl)
      have inBody := ih (fun z' member => others z' (mem_binders_abs.2 (.inr member)))
        (fun y free z' member => apart y free z' (mem_binders_abs.2 (.inr member)))
        (namelessIn_replaced_below reading (others z binder)
          (fun y free => apart y free z binder) agree)
      rw [replace_abs_of_ne (others z binder)]
      exact congrArg Nameless.abs inBody
  | pi z dom cod ihDom ihCod =>
      intro scope scope' σ others apart agree
      have binder : z ∈ (pi z dom cod).binders := mem_binders_pi.2 (.inl rfl)
      have inDom := ihDom (fun z' member => others z' (mem_binders_pi.2 (.inr (.inl member))))
        (fun y free z' member => apart y free z' (mem_binders_pi.2 (.inr (.inl member))))
        (fun y free => agree y (hasFree_pi_iff_abs.2 (.inl free)))
      have inCod := ihCod (fun z' member => others z' (mem_binders_pi.2 (.inr (.inr member))))
        (fun y free z' member => apart y free z' (mem_binders_pi.2 (.inr (.inr member))))
        (namelessIn_replaced_below reading (others z binder)
          (fun y free => apart y free z binder)
          (fun y free => agree y (hasFree_pi_iff_abs.2 (.inr free))))
      rw [replace_pi_of_ne (others z binder)]
      exact congrArg₂ Nameless.pi inDom inCod
  | sort u => exact fun _ _ _ => rfl

/-- **Replacing in the body of a well-tagged redex contracts its nameless image.** -/
theorem namelessIn_replace {y : Tagged} {body : Term Tagged}
    (tagged : (app (abs y body) value).WellTagged) (scope : List Tag) :
    (replace y.tag value body).namelessIn reading scope =
      (body.namelessIn reading (y.tag :: scope)).contract (value.namelessIn reading scope) := by
  refine namelessIn_replace_of_agree reading body tagged.unshadowed.1.1 ?_ ?_
  · intro z free z' member
    exact tagged.apart z (hasFree_app.2 (.inr free)) z'
      (mem_binders_app.2 (.inl (mem_binders_abs.2 (.inr member))))
  · intro z _
    by_cases same : z.tag = y.tag
    · rw [namelessIn_var_cons_self reading same, if_pos same]
      rfl
    · rw [namelessIn_var_cons_of_ne reading same, if_neg same, Nameless.subst_putFirst_shift]

end Image

/-! ## Terms tagged apart -/

/-- The value has no tag of a binder of the abstraction, and the abstraction has no tag of a binder
of the value. A free variable may have one tag in both. -/
structure Separate (abstraction value : Term Tagged) : Prop where
  ofValue : ∀ y ∈ value.identifiers, ∀ z ∈ abstraction.binders, y.tag ≠ z.tag
  ofAbstraction : ∀ y ∈ abstraction.identifiers, ∀ z ∈ value.binders, y.tag ≠ z.tag

instance (abstraction value : Term Tagged) : Decidable (Separate abstraction value) :=
  decidable_of_iff
    ((∀ y ∈ value.identifiers, ∀ z ∈ abstraction.binders, y.tag ≠ z.tag) ∧
      ∀ y ∈ abstraction.identifiers, ∀ z ∈ value.binders, y.tag ≠ z.tag)
    ⟨fun h => ⟨h.1, h.2⟩, fun h => ⟨h.1, h.2⟩⟩

/-- **Terms that are tagged from one generator are separate**, as long as it does not pass the
largest tag. -/
theorem separate_tagWith (t u : Term Name) (gen : Generator) (word : Tag.least ≤ gen.count)
    (suffice : (u.tagWith (t.tagWith gen).2).2.count ≤ Tag.greatest) :
    Separate (t.tagWith gen).1 (u.tagWith (t.tagWith gen).2).1 := by
  have grows : ∀ (t : Term Name) (gen : Generator), gen.count ≤ (t.tagWith gen).2.count := by
    intro t gen
    rw [tagWith_gen]
    exact Int.le_add_of_nonneg_right (Int.natCast_nonneg _)
  -- the tags of a term lie between the two counts of its tagging
  have between : ∀ {t : Term Name} {gen : Generator} {x : Tagged}, Tag.least ≤ gen.count →
      (t.tagWith gen).2.count ≤ Tag.greatest → x ∈ (t.tagWith gen).1.identifiers →
        gen.count < x.tag.toInt ∧ x.tag.toInt ≤ (t.tagWith gen).2.count := by
    intro t gen x word suffice member
    have leads := leads_tagWith word suffice
    rw [tagWith_gen] at leads ⊢
    exact leads.mem_minted (mem_minted_of_mem_identifiers member)
  have differ : ∀ x ∈ (t.tagWith gen).1.identifiers,
      ∀ y ∈ (u.tagWith (t.tagWith gen).2).1.identifiers, x.tag ≠ y.tag := by
    intro x inFirst y inSecond same
    have first := (between word (Int.le_trans (grows u _) suffice) inFirst).2
    have second := (between (Int.le_trans word (grows t gen)) suffice inSecond).1
    rw [same] at first
    exact absurd first (Int.not_le.2 second)
  exact ⟨fun y member z binds => (differ z (mem_identifiers_of_mem_binders binds) y member).symm,
    fun y member z binds => differ y member z (mem_identifiers_of_mem_binders binds)⟩

/-- The application of one well-tagged term to another is well-tagged if they are separate. -/
theorem wellTagged_app {fn arg : Term Tagged} (inFn : fn.WellTagged) (inArg : arg.WellTagged)
    (separate : Separate fn arg) : (app fn arg).WellTagged where
  unshadowed := ⟨inFn.unshadowed, inArg.unshadowed⟩
  apart y free z member := by
    rcases hasFree_app.1 free with free | free <;>
      rcases mem_binders_app.1 member with binds | binds
    · exact inFn.apart y free z binds
    · exact separate.ofAbstraction y (mem_identifiers_of_hasFree free) z binds
    · exact separate.ofValue y (mem_identifiers_of_hasFree free) z binds
    · exact inArg.apart y free z binds

/-- **Replacing keeps the tags in order** if abstraction and value are separate. -/
theorem wellTagged_replace {y : Tagged} {body : Term Tagged}
    (tagged : (app (abs y body) value).WellTagged) (separate : Separate (abs y body) value) :
    (replace y.tag value body).WellTagged where
  unshadowed := by
    refine unshadowed_replace tagged.unshadowed.2 body (fun z inBody w inValue => ?_)
      tagged.unshadowed.1.2
    exact separate.ofValue w (mem_identifiers_of_mem_binders inValue) z
      (mem_binders_abs.2 (.inr inBody))
  -- free occurrences and binders of the result are among those of the application
  apart z free w member := by
    refine tagged.apart z ?_ w ?_
    · rcases hasFree_of_replace body free with inBody | inValue
      · exact hasFree_app.2 (.inl (hasFree_abs.2 inBody))
      · exact hasFree_app.2 (.inr inValue)
    · rcases mem_binders_replace body member with inBody | inValue
      · exact mem_binders_app.2 (.inl (mem_binders_abs.2 (.inr inBody)))
      · exact mem_binders_app.2 (.inr inValue)

end Term

open Term

/-! ## Substitution by hand -/

/-- Runs in normal order of an application and of what its image contracts to have one normal
form. -/
theorem runs_agree_of_contract {x : Tagged} {body value t : Term Tagged} {limit limit' : Nat}
    (tagged : (Term.app (.abs x body) value).WellTagged) (tagged' : t.WellTagged)
    (image : t.nameless Tagged.tag =
      (body.namelessIn Tagged.tag [x.tag]).contract (value.nameless Tagged.tag))
    (suffice : TagsSuffice .normalOrder limit t)
    (suffice' : TagsSuffice .normalOrder limit' (.app (.abs x body) value))
    (fewer : (run .normalOrder limit t).steps < limit)
    (fewer' : (run .normalOrder limit' (.app (.abs x body) value)).steps < limit') :
    AlphaEquivalent Tagged.tag Tagged.tag (run .normalOrder limit t).term
      (run .normalOrder limit' (.app (.abs x body) value)).term := by
  have member : Strategy.normalOrder ∈ Strategy.normalising := by decide
  obtain ⟨reduces, normal⟩ := run_normalising Tagged.tag member tagged' suffice fewer
  obtain ⟨reduces', normal'⟩ := run_normalising Tagged.tag member tagged suffice' fewer'
  have contracts : Nameless.Beta ((Term.app (.abs x body) value).nameless Tagged.tag)
      (t.nameless Tagged.tag) := by
    rw [image]
    exact .contract _ _
  exact alphaEquivalent_iff_nameless_eq.2
    (Nameless.eq_of_normal_reducts (.head contracts reduces) reduces' normal normal')

/-- **Substituting a value into an abstraction that is tagged apart from it avoids capture.** The
result is well-tagged, its nameless image is that of the body with the value put in place of the
bound variable, and in normal order it and the application of the abstraction to the value come to
α-equivalent results, if both runs make fewer contractions than they may and the tags last for
them. -/
theorem substitute_avoids_capture (x : Tagged) (body value : Term Tagged)
    (tagged : (Term.abs x body).WellTagged) (tagged' : value.WellTagged)
    (separate : Separate (.abs x body) value) :
    ∃ t, substitute (.abs x body) value = .ok t ∧ t.WellTagged ∧
      (∀ (φ : Type) (reading : Tagged → φ), t.nameless reading =
        (body.namelessIn reading [x.tag]).contract (value.nameless reading)) ∧
      ∀ limit limit', TagsSuffice .normalOrder limit t →
        TagsSuffice .normalOrder limit' (.app (.abs x body) value) →
        (run .normalOrder limit t).steps < limit →
        (run .normalOrder limit' (.app (.abs x body) value)).steps < limit' →
          AlphaEquivalent Tagged.tag Tagged.tag (run .normalOrder limit t).term
            (run .normalOrder limit' (.app (.abs x body) value)).term := by
  have redex := wellTagged_app tagged tagged' separate
  have result := wellTagged_replace redex separate
  have image : ∀ (φ : Type) (reading : Tagged → φ), (replace x.tag value body).nameless reading =
      (body.namelessIn reading [x.tag]).contract (value.nameless reading) :=
    fun φ reading => namelessIn_replace reading redex []
  exact ⟨_, rfl, result, image, fun limit limit' =>
    runs_agree_of_contract redex result (image Tag Tagged.tag)⟩

/-- `πy:x.λz.x (y z)`, where `x` stands in a domain and below two binders. -/
def spreading : Term Tagged :=
  .pi ⟨"y", 2⟩ (.var ⟨"x", 1⟩)
    (.abs ⟨"z", 3⟩ (.app (.var ⟨"x", 1⟩) (.app (.var ⟨"y", 2⟩) (.var ⟨"z", 3⟩))))

/-- `λw.y w`, with another `y` that is free. -/
def applyFree : Term Tagged := .abs ⟨"w", 4⟩ (.app (.var ⟨"y", 5⟩) (.var ⟨"w", 4⟩))

/-- `πy:(λw.y w).λz.(λw.y w) (y z)`, with the same binder in both copies. -/
def spread : Term Tagged :=
  .pi ⟨"y", 2⟩ applyFree (.abs ⟨"z", 3⟩ (.app applyFree (.app (.var ⟨"y", 2⟩) (.var ⟨"z", 3⟩))))

/-- The two terms take their tags from one generator. Both copies keep their free `y`, also the one
in the scope of the other `y`, and the run of the application makes one contraction more. -/
theorem substitute_avoids_capture_spreading :
    (((Term.abs ⟨"x", 1⟩ spreading).map Tagged.name).tagWith .start =
          (.abs ⟨"x", 1⟩ spreading, ⟨3⟩) ∧
        (applyFree.map Tagged.name).tagWith ⟨3⟩ = (applyFree, ⟨5⟩)) ∧
      ((Term.abs ⟨"x", 1⟩ spreading).WellTagged ∧ applyFree.WellTagged ∧
        Separate (.abs ⟨"x", 1⟩ spreading) applyFree) ∧
      substitute (.abs ⟨"x", 1⟩ spreading) applyFree = .ok spread ∧ spread.WellTagged ∧
      ((run .normalOrder 2 spread).steps = 1 ∧
        (run .normalOrder 3 (.app (.abs ⟨"x", 1⟩ spreading) applyFree)).steps = 2) ∧
      AlphaEquivalent Tagged.tag Tagged.tag (run .normalOrder 2 spread).term
        (run .normalOrder 3 (.app (.abs ⟨"x", 1⟩ spreading) applyFree)).term := by
  have tagging : ((Term.abs ⟨"x", 1⟩ spreading).map Tagged.name).tagWith .start =
      (.abs ⟨"x", 1⟩ spreading, ⟨3⟩) := by decide +kernel
  have tagging' : (applyFree.map Tagged.name).tagWith ⟨3⟩ = (applyFree, ⟨5⟩) := by decide +kernel
  have separate := separate_tagWith ((Term.abs ⟨"x", 1⟩ spreading).map Tagged.name)
    (applyFree.map Tagged.name) .start (by decide) (by rw [tagging, tagging']; decide)
  rw [tagging, tagging'] at separate
  have tagged : (Term.abs ⟨"x", 1⟩ spreading).WellTagged := by decide
  have tagged' : applyFree.WellTagged := by decide
  obtain ⟨t, substituted, result, _, agree⟩ :=
    substitute_avoids_capture ⟨"x", 1⟩ spreading applyFree tagged tagged' separate
  have same : substitute (.abs ⟨"x", 1⟩ spreading) applyFree = .ok spread := rfl
  cases substituted.symm.trans same
  have steps : (run .normalOrder 2 spread).steps = 1 := by cbv
  have steps' : (run .normalOrder 3 (.app (.abs ⟨"x", 1⟩ spreading) applyFree)).steps = 2 := by cbv
  refine ⟨⟨tagging, tagging'⟩, ⟨tagged, tagged', separate⟩, same, result, ⟨steps, steps'⟩,
    agree 2 3 ?_ ?_ ?_ ?_⟩
  · decide_cbv
  · decide_cbv
  · rw [steps]
    decide
  · rw [steps']
    decide

/-- `λz.z`, where the binder has the greatest tag there is, and the variable is free and has the
least one. -/
def lastTagged : Term Tagged := .abs ⟨"z", Int64.maxValue⟩ (.var ⟨"z", Int64.minValue⟩)

/-- **Beyond the greatest tag a contraction captures what a substitution does not.** The two terms
are well-tagged and separate; substituting into `λx.x` gives the value back, which is normal, and
the run of the application ends in a copy whose binder claims the variable. -/
theorem run_differs_from_substitute :
    ((Term.abs ⟨"x", 1⟩ (.var ⟨"x", 1⟩)).WellTagged ∧ lastTagged.WellTagged ∧
        Separate (.abs ⟨"x", 1⟩ (.var ⟨"x", 1⟩)) lastTagged) ∧
      substitute (.abs ⟨"x", 1⟩ (.var ⟨"x", 1⟩)) lastTagged = .ok lastTagged ∧
      (run .normalOrder 100 lastTagged).steps < 100 ∧
      (run .normalOrder 100 (.app (.abs ⟨"x", 1⟩ (.var ⟨"x", 1⟩)) lastTagged)).steps < 100 ∧
      ¬ AlphaEquivalent Tagged.tag Tagged.tag (run .normalOrder 100 lastTagged).term
        (run .normalOrder 100 (.app (.abs ⟨"x", 1⟩ (.var ⟨"x", 1⟩)) lastTagged)).term := by
  have stays : run .normalOrder 100 lastTagged = ⟨lastTagged, 0⟩ := by cbv
  have captured : run .normalOrder 100 (.app (.abs ⟨"x", 1⟩ (.var ⟨"x", 1⟩)) lastTagged) =
      ⟨.abs ⟨"z", Int64.minValue⟩ (.var ⟨"z", Int64.minValue⟩), 1⟩ := by cbv
  refine ⟨by decide, rfl, ?_, ?_, ?_⟩
  · rw [stays]
    decide
  · rw [captured]
    decide
  · rw [stays, captured, alphaEquivalent_iff_nameless_eq]
    decide

end Redex
