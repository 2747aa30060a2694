import Mathlib.Logic.Relation
import Redex.Proofs.Nameless.Substitution

/-!
# β-reduction of nameless terms

One step contracts one redex at any place: in either part of an application, below an abstraction,
and on both sides of a product. Products and sorts take part in no redex of their own.

Reductions are counted (`BetaSteps`), since a run of the evaluator says how many contractions it
made; when the number does not matter, the reflexive and transitive closure of `Beta` is used. A
term is normal when it has no step.
-/

set_option autoImplicit false

namespace Redex.Nameless

variable {φ : Type}

/-- One contraction at any place of a term. -/
inductive Beta : Nameless φ → Nameless φ → Prop where
  | contract (body arg : Nameless φ) : Beta (app (abs body) arg) (body.contract arg)
  | appFn {fn fn' : Nameless φ} (arg : Nameless φ) : Beta fn fn' → Beta (app fn arg) (app fn' arg)
  | appArg (fn : Nameless φ) {arg arg' : Nameless φ} :
      Beta arg arg' → Beta (app fn arg) (app fn arg')
  | abs {body body' : Nameless φ} : Beta body body' → Beta (abs body) (abs body')
  | piDom {dom dom' : Nameless φ} (cod : Nameless φ) :
      Beta dom dom' → Beta (pi dom cod) (pi dom' cod)
  | piCod (dom : Nameless φ) {cod cod' : Nameless φ} :
      Beta cod cod' → Beta (pi dom cod) (pi dom cod')

/-- Exactly so many contractions, one after another. -/
inductive BetaSteps : Nat → Nameless φ → Nameless φ → Prop where
  | none (t : Nameless φ) : BetaSteps 0 t t
  | next {count : Nat} {t u v : Nameless φ} :
      Beta t u → BetaSteps count u v → BetaSteps (count + 1) t v

/-- Any number of contractions. -/
abbrev BetaReduces (t u : Nameless φ) : Prop := Relation.ReflTransGen Beta t u

/-- A term without a redex. -/
def Normal (t : Nameless φ) : Prop := ∀ u, ¬ Beta t u

namespace BetaSteps

theorem trans {m n : Nat} {t u v : Nameless φ} (first : BetaSteps m t u)
    (second : BetaSteps n u v) : BetaSteps (m + n) t v := by
  induction first with
  | none t => rwa [Nat.zero_add]
  | next step _ ih =>
      rw [Nat.succ_add]
      exact .next step (ih second)

/-- Steps are carried along a map that carries one step. -/
theorem map {n : Nat} {t u : Nameless φ} (f : Nameless φ → Nameless φ)
    (one : ∀ {t u : Nameless φ}, Beta t u → Beta (f t) (f u)) (steps : BetaSteps n t u) :
    BetaSteps n (f t) (f u) := by
  induction steps with
  | none t => exact .none (f t)
  | next step _ ih => exact .next (one step) ih

theorem app {m n : Nat} {fn fn' arg arg' : Nameless φ} (left : BetaSteps m fn fn')
    (right : BetaSteps n arg arg') : BetaSteps (m + n) (app fn arg) (app fn' arg') :=
  (left.map (fun t => .app t arg) (.appFn arg)).trans
    (right.map (fun t => .app fn' t) (.appArg fn'))

theorem abs {n : Nat} {body body' : Nameless φ} (steps : BetaSteps n body body') :
    BetaSteps n (abs body) (abs body') :=
  steps.map Nameless.abs .abs

theorem pi {m n : Nat} {dom dom' cod cod' : Nameless φ} (left : BetaSteps m dom dom')
    (right : BetaSteps n cod cod') : BetaSteps (m + n) (pi dom cod) (pi dom' cod') :=
  (left.map (fun t => .pi t cod) (.piDom cod)).trans
    (right.map (fun t => .pi dom' t) (.piCod dom'))

theorem reduces {n : Nat} {t u : Nameless φ} (steps : BetaSteps n t u) : BetaReduces t u := by
  induction steps with
  | none t => exact .refl
  | next step _ ih => exact .head step ih

end BetaSteps

namespace BetaReduces

theorem app {fn fn' arg arg' : Nameless φ} (left : BetaReduces fn fn')
    (right : BetaReduces arg arg') : BetaReduces (app fn arg) (app fn' arg') :=
  (left.lift (fun t => Nameless.app t arg) fun _ _ step => .appFn arg step).trans
    (right.lift (fun t => Nameless.app fn' t) fun _ _ step => .appArg fn' step)

theorem abs {body body' : Nameless φ} (steps : BetaReduces body body') :
    BetaReduces (abs body) (abs body') :=
  steps.lift Nameless.abs fun _ _ step => .abs step

theorem pi {dom dom' cod cod' : Nameless φ} (left : BetaReduces dom dom')
    (right : BetaReduces cod cod') : BetaReduces (pi dom cod) (pi dom' cod') :=
  (left.lift (fun t => Nameless.pi t cod) fun _ _ step => .piDom cod step).trans
    (right.lift (fun t => Nameless.pi dom' t) fun _ _ step => .piCod dom' step)

end BetaReduces

/-- A normal term reduces to itself only. -/
theorem Normal.eq_of_reduces {t u : Nameless φ} (normal : t.Normal) (steps : BetaReduces t u) :
    u = t := by
  cases steps.cases_head with
  | inl same => exact same.symm
  | inr first =>
      obtain ⟨v, step, _⟩ := first
      exact absurd step (normal v)

end Redex.Nameless
