import Mathlib.Logic.Relation
import Redex.Proofs.Nameless.Substitution

/-!
# η-reduction of nameless terms

An abstraction whose body applies a term to the bound variable, and mentions it nowhere else, is
contracted to that term. One step contracts one such abstraction at any place.

That the bound variable is not mentioned is said by a shift: the body is `app t.shift (bound 0)`. So
when a step is made inside such a body, one must know that the result is still shifted. It is,
because steps are reflected by renamings (`Eta.reflect`), and this rests on a fact about terms
alone: if renamings of two terms agree, both terms come from one (`exists_common_of_rename_eq`),
provided that the same holds of indices.

Two steps from one term meet after at most one more step on each side, so η-reduction is confluent
(`etaReduces_confluent`).
-/

set_option autoImplicit false

namespace Redex.Nameless

variable {φ : Type}

/-! ## Renamed terms -/

section Shape

variable {t : Nameless φ} {ρ : Nat → Nat}

theorem exists_app_of_rename_eq {fn arg : Nameless φ} (renamed : t.rename ρ = app fn arg) :
    ∃ fn₀ arg₀, t = app fn₀ arg₀ ∧ fn₀.rename ρ = fn ∧ arg₀.rename ρ = arg := by
  cases t with
  | app fn₀ arg₀ =>
      obtain ⟨inFn, inArg⟩ := app.inj renamed
      exact ⟨fn₀, arg₀, rfl, inFn, inArg⟩
  | bound index => cases renamed
  | free x => cases renamed
  | abs body => cases renamed
  | pi dom cod => cases renamed
  | sort u => cases renamed

theorem exists_abs_of_rename_eq {body : Nameless φ} (renamed : t.rename ρ = abs body) :
    ∃ body₀, t = abs body₀ ∧ body₀.rename (liftRenaming ρ) = body := by
  cases t with
  | abs body₀ => exact ⟨body₀, rfl, abs.inj renamed⟩
  | bound index => cases renamed
  | free x => cases renamed
  | app fn arg => cases renamed
  | pi dom cod => cases renamed
  | sort u => cases renamed

theorem exists_pi_of_rename_eq {dom cod : Nameless φ} (renamed : t.rename ρ = pi dom cod) :
    ∃ dom₀ cod₀, t = pi dom₀ cod₀ ∧ dom₀.rename ρ = dom ∧
      cod₀.rename (liftRenaming ρ) = cod := by
  cases t with
  | pi dom₀ cod₀ =>
      obtain ⟨inDom, inCod⟩ := pi.inj renamed
      exact ⟨dom₀, cod₀, rfl, inDom, inCod⟩
  | bound index => cases renamed
  | free x => cases renamed
  | app fn arg => cases renamed
  | abs body => cases renamed
  | sort u => cases renamed

end Shape

/-- Where two renamings agree, both indices come from one by the renamings `τ` and `τ'`. -/
def Meet (ρ ρ' τ τ' : Nat → Nat) : Prop :=
  ∀ i j, ρ i = ρ' j → ∃ k, i = τ k ∧ j = τ' k

theorem Meet.lift {ρ ρ' τ τ' : Nat → Nat} (meet : Meet ρ ρ' τ τ') :
    Meet (liftRenaming ρ) (liftRenaming ρ') (liftRenaming τ) (liftRenaming τ') := by
  intro i j same
  cases i with
  | zero =>
      cases j with
      | zero => exact ⟨0, rfl, rfl⟩
      | succ j => cases same
  | succ i =>
      cases j with
      | zero => cases same
      | succ j =>
          obtain ⟨k, rfl, rfl⟩ := meet i j (Nat.succ.inj same)
          exact ⟨k + 1, rfl, rfl⟩

/-- **Terms whose renamings agree come from one term**, if this holds of indices. -/
theorem exists_common_of_rename_eq (t : Nameless φ) :
    ∀ {t' : Nameless φ} {ρ ρ' τ τ' : Nat → Nat}, Meet ρ ρ' τ τ' → t.rename ρ = t'.rename ρ' →
      ∃ u : Nameless φ, t = u.rename τ ∧ t' = u.rename τ' := by
  induction t with
  | bound index =>
      intro t' ρ ρ' τ τ' meet same
      cases t' with
      | bound index' =>
          obtain ⟨k, rfl, rfl⟩ := meet index index' (bound.inj same)
          exact ⟨bound k, rfl, rfl⟩
      | free x => cases same
      | app fn arg => cases same
      | abs body => cases same
      | pi dom cod => cases same
      | sort u => cases same
  | free x =>
      intro t' ρ ρ' τ τ' _ same
      cases t' with
      | free y =>
          cases same
          exact ⟨free x, rfl, rfl⟩
      | bound index => cases same
      | app fn arg => cases same
      | abs body => cases same
      | pi dom cod => cases same
      | sort u => cases same
  | app fn arg ihFn ihArg =>
      intro t' ρ ρ' τ τ' meet same
      obtain ⟨fn', arg', rfl, inFn, inArg⟩ := exists_app_of_rename_eq same.symm
      obtain ⟨fn₀, rfl, rfl⟩ := ihFn meet inFn.symm
      obtain ⟨arg₀, rfl, rfl⟩ := ihArg meet inArg.symm
      exact ⟨app fn₀ arg₀, rfl, rfl⟩
  | abs body ih =>
      intro t' ρ ρ' τ τ' meet same
      obtain ⟨body', rfl, inBody⟩ := exists_abs_of_rename_eq same.symm
      obtain ⟨body₀, rfl, rfl⟩ := ih meet.lift inBody.symm
      exact ⟨abs body₀, rfl, rfl⟩
  | pi dom cod ihDom ihCod =>
      intro t' ρ ρ' τ τ' meet same
      obtain ⟨dom', cod', rfl, inDom, inCod⟩ := exists_pi_of_rename_eq same.symm
      obtain ⟨dom₀, rfl, rfl⟩ := ihDom meet inDom.symm
      obtain ⟨cod₀, rfl, rfl⟩ := ihCod meet.lift inCod.symm
      exact ⟨pi dom₀ cod₀, rfl, rfl⟩
  | sort u =>
      intro t' ρ ρ' τ τ' _ same
      cases t' with
      | sort v =>
          cases same
          exact ⟨sort u, rfl, rfl⟩
      | bound index => cases same
      | free x => cases same
      | app fn arg => cases same
      | abs body => cases same
      | pi dom cod => cases same

/-- A term that is shifted after a renaming below a binder is shifted before it. -/
theorem exists_shift_of_rename_eq {t u : Nameless φ} {ρ : Nat → Nat}
    (same : t.rename (liftRenaming ρ) = u.shift) : ∃ t₀ : Nameless φ, t = t₀.shift ∧
      u = t₀.rename ρ := by
  refine exists_common_of_rename_eq t (fun i j equal => ?_) same
  cases i with
  | zero => cases equal
  | succ i => exact ⟨i, rfl, (Nat.succ.inj equal).symm⟩

theorem shift_injective {t u : Nameless φ} (same : t.shift = u.shift) : t = u := by
  have contracted := congrArg (Nameless.subst (putFirst (bound 0))) same
  rwa [subst_putFirst_shift, subst_putFirst_shift] at contracted

/-! ## One step -/

/-- One η-contraction at any place of a term. -/
inductive Eta : Nameless φ → Nameless φ → Prop where
  | contract (t : Nameless φ) : Eta (abs (app t.shift (bound 0))) t
  | appFn {fn fn' : Nameless φ} (arg : Nameless φ) : Eta fn fn' → Eta (app fn arg) (app fn' arg)
  | appArg (fn : Nameless φ) {arg arg' : Nameless φ} :
      Eta arg arg' → Eta (app fn arg) (app fn arg')
  | abs {body body' : Nameless φ} : Eta body body' → Eta (abs body) (abs body')
  | piDom {dom dom' : Nameless φ} (cod : Nameless φ) :
      Eta dom dom' → Eta (pi dom cod) (pi dom' cod)
  | piCod (dom : Nameless φ) {cod cod' : Nameless φ} :
      Eta cod cod' → Eta (pi dom cod) (pi dom cod')

/-- Any number of η-contractions. -/
abbrev EtaReduces (t u : Nameless φ) : Prop := Relation.ReflTransGen Eta t u

namespace Eta

variable {t u v : Nameless φ}

theorem rename (step : Eta t u) : ∀ ρ : Nat → Nat, Eta (t.rename ρ) (u.rename ρ) := by
  induction step with
  | contract t =>
      intro ρ
      simp only [Nameless.rename, rename_liftRenaming_shift]
      exact .contract (t.rename ρ)
  | appFn arg _ ih => intro ρ; exact .appFn _ (ih ρ)
  | appArg fn _ ih => intro ρ; exact .appArg _ (ih ρ)
  | abs _ ih => intro ρ; exact .abs (ih _)
  | piDom cod _ ih => intro ρ; exact .piDom _ (ih ρ)
  | piCod dom _ ih => intro ρ; exact .piCod _ (ih _)

theorem subst (step : Eta t u) : ∀ σ : Nat → Nameless φ, Eta (t.subst σ) (u.subst σ) := by
  induction step with
  | contract t =>
      intro σ
      simp only [Nameless.subst, subst_liftSubstitution_shift]
      exact .contract (t.subst σ)
  | appFn arg _ ih => intro σ; exact .appFn _ (ih σ)
  | appArg fn _ ih => intro σ; exact .appArg _ (ih σ)
  | abs _ ih => intro σ; exact .abs (ih _)
  | piDom cod _ ih => intro σ; exact .piDom _ (ih σ)
  | piCod dom _ ih => intro σ; exact .piCod _ (ih _)

/-- **A step from a renamed term is a renamed step.** -/
theorem reflect (step : Eta t u) :
    ∀ {t₀ : Nameless φ} {ρ : Nat → Nat}, t₀.rename ρ = t →
      ∃ u₀ : Nameless φ, u = u₀.rename ρ ∧ Eta t₀ u₀ := by
  induction step with
  | contract t =>
      intro t₀ ρ renamed
      obtain ⟨body₀, rfl, inBody⟩ := exists_abs_of_rename_eq renamed
      obtain ⟨fn₀, arg₀, rfl, inFn, inArg⟩ := exists_app_of_rename_eq inBody
      obtain ⟨fn₁, rfl, rfl⟩ := exists_shift_of_rename_eq inFn
      cases arg₀ with
      | bound index =>
          cases index with
          | zero => exact ⟨fn₁, rfl, .contract fn₁⟩
          | succ index => cases inArg
      | free x => cases inArg
      | app fn arg => cases inArg
      | abs body => cases inArg
      | pi dom cod => cases inArg
      | sort u => cases inArg
  | appFn arg _ ih =>
      intro t₀ ρ renamed
      obtain ⟨fn₀, arg₀, rfl, inFn, rfl⟩ := exists_app_of_rename_eq renamed
      obtain ⟨fn₁, rfl, step₀⟩ := ih inFn
      exact ⟨app fn₁ arg₀, rfl, .appFn arg₀ step₀⟩
  | appArg fn _ ih =>
      intro t₀ ρ renamed
      obtain ⟨fn₀, arg₀, rfl, rfl, inArg⟩ := exists_app_of_rename_eq renamed
      obtain ⟨arg₁, rfl, step₀⟩ := ih inArg
      exact ⟨app fn₀ arg₁, rfl, .appArg fn₀ step₀⟩
  | abs _ ih =>
      intro t₀ ρ renamed
      obtain ⟨body₀, rfl, inBody⟩ := exists_abs_of_rename_eq renamed
      obtain ⟨body₁, rfl, step₀⟩ := ih inBody
      exact ⟨Nameless.abs body₁, rfl, .abs step₀⟩
  | piDom cod _ ih =>
      intro t₀ ρ renamed
      obtain ⟨dom₀, cod₀, rfl, inDom, rfl⟩ := exists_pi_of_rename_eq renamed
      obtain ⟨dom₁, rfl, step₀⟩ := ih inDom
      exact ⟨pi dom₁ cod₀, rfl, .piDom cod₀ step₀⟩
  | piCod dom _ ih =>
      intro t₀ ρ renamed
      obtain ⟨dom₀, cod₀, rfl, rfl, inCod⟩ := exists_pi_of_rename_eq renamed
      obtain ⟨cod₁, rfl, step₀⟩ := ih inCod
      exact ⟨pi dom₀ cod₁, rfl, .piCod dom₀ step₀⟩

/-- A step inside the body of an η-redex is a step of the term that is applied there. -/
theorem of_body {body : Nameless φ} (step : Eta (app t.shift (bound 0)) body) :
    ∃ u, body = app u.shift (bound 0) ∧ Eta t u := by
  cases step with
  | appFn _ step =>
      obtain ⟨u, rfl, inner⟩ := step.reflect rfl
      exact ⟨u, rfl, inner⟩
  | appArg _ step => cases step

/-- Terms that meet after at most one step on each side do so at every place. -/
theorem meets_map (f : Nameless φ → Nameless φ)
    (one : ∀ {t u : Nameless φ}, Eta t u → Eta (f t) (f u))
    (meets : ∃ w, Relation.ReflGen Eta u w ∧ Relation.ReflGen Eta v w) :
    ∃ w, Relation.ReflGen Eta (f u) w ∧ Relation.ReflGen Eta (f v) w := by
  have map : ∀ {t u : Nameless φ}, Relation.ReflGen Eta t u →
      Relation.ReflGen Eta (f t) (f u) := by
    intro t u steps
    cases steps with
    | refl => exact .refl
    | single step => exact .single (one step)
  obtain ⟨w, first, second⟩ := meets
  exact ⟨f w, map first, map second⟩

/-- **Two steps from one term meet** after at most one more step on each side. -/
theorem meets (left : Eta t u) :
    ∀ {v : Nameless φ}, Eta t v → ∃ w, Relation.ReflGen Eta u w ∧ Relation.ReflGen Eta v w := by
  induction left with
  | contract t =>
      intro v right
      generalize redex : app t.shift (bound 0) = body at right
      cases right with
      | contract t' =>
          cases shift_injective (app.inj redex).1
          exact ⟨t, .refl, .refl⟩
      | abs inside =>
          rw [← redex] at inside
          obtain ⟨t', rfl, step⟩ := of_body inside
          exact ⟨t', .single step, .single (.contract t')⟩
  | appFn arg step ih =>
      intro v right
      cases right with
      | appFn _ step' => exact meets_map (app · arg) (.appFn arg) (ih step')
      | appArg _ step' => exact ⟨_, .single (.appArg _ step'), .single (.appFn _ step)⟩
  | appArg fn step ih =>
      intro v right
      cases right with
      | appFn _ step' => exact ⟨_, .single (.appFn _ step'), .single (.appArg _ step)⟩
      | appArg _ step' => exact meets_map (app fn) (.appArg fn) (ih step')
  | abs step ih =>
      intro v right
      cases right with
      | contract t' =>
          obtain ⟨t'', rfl, inner⟩ := of_body step
          exact ⟨t'', .single (.contract t''), .single inner⟩
      | abs step' => exact meets_map Nameless.abs .abs (ih step')
  | piDom cod step ih =>
      intro v right
      cases right with
      | piDom _ step' => exact meets_map (pi · cod) (.piDom cod) (ih step')
      | piCod _ step' => exact ⟨_, .single (.piCod _ step'), .single (.piDom _ step)⟩
  | piCod dom step ih =>
      intro v right
      cases right with
      | piDom _ step' => exact ⟨_, .single (.piDom _ step'), .single (.piCod _ step)⟩
      | piCod _ step' => exact meets_map (pi dom) (.piCod dom) (ih step')

end Eta

/-! ## Reductions -/

/-- **Two η-reducts of a term have a common η-reduct.** -/
theorem etaReduces_confluent {t u v : Nameless φ} (left : EtaReduces t u)
    (right : EtaReduces t v) : ∃ w, EtaReduces u w ∧ EtaReduces v w := by
  refine Relation.church_rosser (fun a b c first second => ?_) left right
  obtain ⟨d, toLeft, toRight⟩ := first.meets second
  exact ⟨d, toLeft, toRight.to_reflTransGen⟩

namespace EtaReduces

variable {fn fn' arg arg' body body' dom dom' cod cod' : Nameless φ}

theorem app (left : EtaReduces fn fn') (right : EtaReduces arg arg') :
    EtaReduces (app fn arg) (app fn' arg') :=
  (left.lift (fun t => Nameless.app t arg) fun _ _ step => .appFn arg step).trans
    (right.lift (fun t => Nameless.app fn' t) fun _ _ step => .appArg fn' step)

theorem abs (steps : EtaReduces body body') : EtaReduces (abs body) (abs body') :=
  steps.lift Nameless.abs fun _ _ step => .abs step

theorem pi (left : EtaReduces dom dom') (right : EtaReduces cod cod') :
    EtaReduces (pi dom cod) (pi dom' cod') :=
  (left.lift (fun t => Nameless.pi t cod) fun _ _ step => .piDom cod step).trans
    (right.lift (fun t => Nameless.pi dom' t) fun _ _ step => .piCod dom' step)

/-- Reductions of what is put in place of the indices. -/
theorem subst_right (t : Nameless φ) :
    ∀ {σ σ' : Nat → Nameless φ}, (∀ index, EtaReduces (σ index) (σ' index)) →
      EtaReduces (t.subst σ) (t.subst σ') := by
  have below : ∀ {σ σ' : Nat → Nameless φ}, (∀ index, EtaReduces (σ index) (σ' index)) →
      ∀ index, EtaReduces (liftSubstitution σ index) (liftSubstitution σ' index) := by
    intro σ σ' pointwise index
    cases index with
    | zero => exact .refl
    | succ index => exact (pointwise index).lift shift fun _ _ step => step.rename Nat.succ
  induction t with
  | bound index => intro σ σ' pointwise; exact pointwise index
  | free x => intro σ σ' _; exact .refl
  | app fn arg ihFn ihArg => intro σ σ' pointwise; exact app (ihFn pointwise) (ihArg pointwise)
  | abs body ih => intro σ σ' pointwise; exact abs (ih (below pointwise))
  | pi dom cod ihDom ihCod =>
      intro σ σ' pointwise
      exact pi (ihDom pointwise) (ihCod (below pointwise))
  | sort u => intro σ σ' _; exact .refl

/-- Reductions of both parts of a redex are reductions of its contractum. -/
theorem contract (inBody : EtaReduces body body') (inArg : EtaReduces arg arg') :
    EtaReduces (body.contract arg) (body'.contract arg') := by
  have left : EtaReduces (body.contract arg) (body'.contract arg) :=
    inBody.lift (fun t => t.contract arg) fun _ _ step => step.subst (putFirst arg)
  refine left.trans (subst_right body' fun index => ?_)
  cases index with
  | zero => exact inArg
  | succ index => exact .refl

end EtaReduces

end Redex.Nameless
