import Redex.Proofs.Nameless.BetaEta

/-!
# Extensionality

Terms are compared by what they do to a variable that occurs in neither. If the two applications
are β-convertible, the terms are βη-convertible (`convertible_of_applied`): put the variable under a
binder on both sides, and what was an application to it becomes an η-redex. So to agree on a new
variable is to have β-convertible η-expansions (`betaConvertible_etaExpand_iff`), which is less than
βη-conversion, since only an expansion at the root counts.

Putting a free variable under a binder is a case of putting terms in place of the free variables.
That commutes with contraction, so it carries β-steps along.
-/

set_option autoImplicit false

namespace Redex.Nameless

variable {φ ψ : Type}

/-! ## Terms in place of free variables -/

/-- The free variables of a term, from left to right. -/
def labels : Nameless φ → List φ
  | bound _ => []
  | free x => [x]
  | app fn arg => fn.labels ++ arg.labels
  | abs body => body.labels
  | pi dom cod => dom.labels ++ cod.labels
  | sort _ => []

/-- The term with terms in place of its free variables. -/
def bindFree (f : φ → Nameless ψ) : Nameless φ → Nameless ψ
  | bound index => bound index
  | free x => f x
  | app fn arg => app (fn.bindFree f) (arg.bindFree f)
  | abs body => abs (body.bindFree fun x => (f x).shift)
  | pi dom cod => pi (dom.bindFree f) (cod.bindFree fun x => (f x).shift)
  | sort u => sort u

theorem labels_rename (t : Nameless φ) : ∀ ρ : Nat → Nat, (t.rename ρ).labels = t.labels := by
  induction t with
  | bound index => intro ρ; rfl
  | free x => intro ρ; rfl
  | app fn arg ihFn ihArg => intro ρ; simp only [rename, labels, ihFn, ihArg]
  | abs body ih => intro ρ; exact ih _
  | pi dom cod ihDom ihCod => intro ρ; simp only [rename, labels, ihDom, ihCod]
  | sort u => intro ρ; rfl

/-- Free variables that are put in place of themselves stay. -/
theorem bindFree_eq_self (t : Nameless φ) :
    ∀ {f : φ → Nameless φ}, (∀ x ∈ t.labels, f x = free x) → t.bindFree f = t := by
  induction t with
  | bound index => intro f _; rfl
  | free x => intro f stays; exact stays x (List.mem_singleton.2 rfl)
  | app fn arg ihFn ihArg =>
      intro f stays
      rw [bindFree, ihFn fun x member => stays x (List.mem_append_left _ member),
        ihArg fun x member => stays x (List.mem_append_right _ member)]
  | abs body ih =>
      intro f stays
      rw [bindFree, ih fun x member => by rw [stays x member]; rfl]
  | pi dom cod ihDom ihCod =>
      intro f stays
      rw [bindFree, ihDom fun x member => stays x (List.mem_append_left _ member),
        ihCod fun x member => by rw [stays x (List.mem_append_right _ member)]; rfl]
  | sort u => intro f _; rfl

theorem bindFree_rename (t : Nameless φ) :
    ∀ (f : φ → Nameless ψ) (ρ : Nat → Nat),
      (t.rename ρ).bindFree (fun x => (f x).rename ρ) = (t.bindFree f).rename ρ := by
  induction t with
  | bound index => intro f ρ; rfl
  | free x => intro f ρ; rfl
  | app fn arg ihFn ihArg => intro f ρ; simp only [rename, bindFree, ihFn, ihArg]
  | abs body ih =>
      intro f ρ
      have inBody := ih (fun x => (f x).shift) (liftRenaming ρ)
      simp only [rename_liftRenaming_shift] at inBody
      simp only [rename, bindFree, inBody]
  | pi dom cod ihDom ihCod =>
      intro f ρ
      have inCod := ihCod (fun x => (f x).shift) (liftRenaming ρ)
      simp only [rename_liftRenaming_shift] at inCod
      simp only [rename, bindFree, ihDom, inCod]
  | sort u => intro f ρ; rfl

theorem bindFree_shift (t : Nameless φ) (f : φ → Nameless ψ) :
    t.shift.bindFree (fun x => (f x).shift) = (t.bindFree f).shift :=
  bindFree_rename t f Nat.succ

/-- Free variables may be replaced before or after the indices, if the substitution leads from what
is put in place of them before to what is put in place of them after. -/
theorem bindFree_subst (t : Nameless φ) :
    ∀ {σ : Nat → Nameless φ} {f g : φ → Nameless ψ},
      (∀ x, (g x).subst (fun index => (σ index).bindFree f) = f x) →
      (t.subst σ).bindFree f = (t.bindFree g).subst fun index => (σ index).bindFree f := by
  have below : ∀ {σ : Nat → Nameless φ} {f : φ → Nameless ψ},
      (fun index => (liftSubstitution σ index).bindFree fun x => (f x).shift) =
        liftSubstitution fun index => (σ index).bindFree f := by
    intro σ f
    funext index
    cases index with
    | zero => rfl
    | succ index => exact bindFree_shift (σ index) f
  induction t with
  | bound index => intro σ f g _; rfl
  | free x => intro σ f g leads; exact (leads x).symm
  | app fn arg ihFn ihArg => intro σ f g leads; simp only [subst, bindFree, ihFn leads, ihArg leads]
  | abs body ih =>
      intro σ f g leads
      simp only [subst, bindFree]
      rw [ih (g := fun x => (g x).shift) fun x => ?_, below]
      rw [below, subst_liftSubstitution_shift, leads]
  | pi dom cod ihDom ihCod =>
      intro σ f g leads
      simp only [subst, bindFree, ihDom leads]
      rw [ihCod (g := fun x => (g x).shift) fun x => ?_, below]
      rw [below, subst_liftSubstitution_shift, leads]
  | sort u => intro σ f g _; rfl

theorem bindFree_contract (body arg : Nameless φ) (f : φ → Nameless ψ) :
    (body.contract arg).bindFree f =
      (body.bindFree fun x => (f x).shift).contract (arg.bindFree f) := by
  have put : (fun index => (putFirst arg index).bindFree f) = putFirst (arg.bindFree f) := by
    funext index
    cases index with
    | zero => rfl
    | succ index => rfl
  rw [contract, bindFree_subst body (g := fun x => (f x).shift) fun x => ?_, put]
  · rfl
  · rw [put, subst_putFirst_shift]

/-! ## β-steps -/

theorem Beta.rename {t u : Nameless φ} (step : Beta t u) :
    ∀ ρ : Nat → Nat, Beta (t.rename ρ) (u.rename ρ) := by
  induction step with
  | contract body arg =>
      intro ρ
      rw [rename_contract]
      exact .contract _ _
  | appFn arg _ ih => intro ρ; exact .appFn _ (ih ρ)
  | appArg fn _ ih => intro ρ; exact .appArg _ (ih ρ)
  | abs _ ih => intro ρ; exact .abs (ih _)
  | piDom cod _ ih => intro ρ; exact .piDom _ (ih ρ)
  | piCod dom _ ih => intro ρ; exact .piCod _ (ih _)

theorem Beta.bindFree {t u : Nameless φ} (step : Beta t u) :
    ∀ f : φ → Nameless ψ, Beta (t.bindFree f) (u.bindFree f) := by
  induction step with
  | contract body arg =>
      intro f
      rw [bindFree_contract]
      exact .contract _ _
  | appFn arg _ ih => intro f; exact .appFn _ (ih f)
  | appArg fn _ ih => intro f; exact .appArg _ (ih f)
  | abs _ ih => intro f; exact .abs (ih _)
  | piDom cod _ ih => intro f; exact .piDom _ (ih f)
  | piCod dom _ ih => intro f; exact .piCod _ (ih _)

/-! ## β-conversion -/

/-- Steps of β-contraction in either direction lead from one term to the other. -/
abbrev BetaConvertible (t u : Nameless φ) : Prop := Relation.EqvGen Beta t u

theorem BetaReduces.betaConvertible {t u : Nameless φ} (steps : BetaReduces t u) :
    BetaConvertible t u :=
  Relation.EqvGen.reflTransGen_le_eqvGen _ _ _ steps

theorem BetaConvertible.convertible {t u : Nameless φ} (steps : BetaConvertible t u) :
    Convertible t u :=
  Relation.EqvGen.eqvGen_mono (fun _ _ step => .inl step) t u steps

/-- Conversions are carried along a map that carries one step. -/
theorem BetaConvertible.map {t u : Nameless φ} (f : Nameless φ → Nameless φ)
    (one : ∀ {t u : Nameless φ}, Beta t u → Beta (f t) (f u)) (steps : BetaConvertible t u) :
    BetaConvertible (f t) (f u) := by
  induction steps with
  | rel _ _ step => exact .rel _ _ (one step)
  | refl t => exact .refl _
  | symm _ _ _ ih => exact .symm _ _ ih
  | trans _ _ _ _ _ ihLeft ihRight => exact .trans _ _ _ ihLeft ihRight

/-- Terms are β-convertible to one normal term at most. -/
theorem eq_of_betaConvertible {t u r s : Nameless φ} (convertible : BetaConvertible t u)
    (left : BetaReduces t r) (right : BetaReduces u s) (normal : r.Normal) (normal' : s.Normal) :
    r = s := by
  have reducts : BetaConvertible r s :=
    .trans _ _ _ (.symm _ _ left.betaConvertible)
      (.trans _ _ _ convertible right.betaConvertible)
  obtain ⟨w, first, second⟩ :=
    exists_common_of_eqvGen (fun _ _ _ => betaReduces_confluent) reducts
  rw [← normal.eq_of_reduces first, normal'.eq_of_reduces second]

/-! ## η-expansions -/

/-- The abstraction of the application of a term to what is bound. -/
def etaExpand (t : Nameless φ) : Nameless φ := abs (app t.shift (bound 0))

theorem convertible_etaExpand (t : Nameless φ) : Convertible t.etaExpand t :=
  .rel _ _ (.inr (.contract t))

theorem beta_app_etaExpand (t arg : Nameless φ) : Beta (app t.etaExpand arg) (app t arg) := by
  have contracts := Beta.contract (app t.shift (bound 0)) arg
  rw [contract, subst, subst_putFirst_shift] at contracts
  exact contracts

/-! ## Closing a term -/

section Closing

variable [DecidableEq φ]

/-- The term below one more binder, which takes the free variable `x`. -/
def close (x : φ) (t : Nameless φ) : Nameless φ :=
  t.shift.bindFree fun y => if y = x then bound 0 else free y

theorem close_of_not_mem {x : φ} {t : Nameless φ} (outside : x ∉ t.labels) :
    t.close x = t.shift := by
  refine bindFree_eq_self _ fun y member => if_neg ?_
  rintro rfl
  rw [shift, labels_rename] at member
  exact outside member

/-- Closing the application of a term to a variable it does not mention gives the body of an
η-redex. -/
theorem close_app_free {x : φ} {t : Nameless φ} (outside : x ∉ t.labels) :
    (app t (free x)).close x = app t.shift (bound 0) := by
  have inFn := close_of_not_mem outside
  rw [close] at inFn
  rw [close, shift, rename, bindFree, ← shift, inFn]
  simp only [rename, bindFree, if_true]

/-- **Terms agree on a variable that neither mentions as far as their η-expansions agree.** -/
theorem betaConvertible_etaExpand_iff {x : φ} {t u : Nameless φ} (left : x ∉ t.labels)
    (right : x ∉ u.labels) :
    BetaConvertible t.etaExpand u.etaExpand ↔
      BetaConvertible (app t (free x)) (app u (free x)) := by
  constructor
  · intro expansions
    have applied := expansions.map (app · (free x)) (.appFn _)
    have fromLeft : BetaConvertible _ _ := .rel _ _ (beta_app_etaExpand t (free x))
    have fromRight : BetaConvertible _ _ := .rel _ _ (beta_app_etaExpand u (free x))
    exact .trans _ _ _ (.symm _ _ fromLeft) (.trans _ _ _ applied fromRight)
  · intro applied
    have closed := applied.map (fun t => abs (t.close x)) fun step =>
      .abs ((step.rename Nat.succ).bindFree _)
    rwa [close_app_free left, close_app_free right] at closed

/-- **Terms that agree on a new variable are convertible.** -/
theorem convertible_of_applied {x : φ} {t u : Nameless φ} (left : x ∉ t.labels)
    (right : x ∉ u.labels) (applied : BetaConvertible (app t (free x)) (app u (free x))) :
    Convertible t u := by
  have expansions := ((betaConvertible_etaExpand_iff left right).2 applied).convertible
  exact .trans _ _ _ (.symm _ _ (convertible_etaExpand t))
    (.trans _ _ _ expansions (convertible_etaExpand u))

end Closing

end Redex.Nameless
