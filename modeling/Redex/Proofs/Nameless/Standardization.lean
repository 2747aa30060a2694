import Redex.Proofs.Nameless.Beta

/-!
# Leftmost reduction finds every normal form

The weak head step contracts the redex that is reached from the root through function parts only.
The leftmost step contracts the redex that comes first when a term is read from left to right, an
outer one before those inside it; wherever there is a weak head step, it is the leftmost one.

A reduction is standard when it makes weak head steps until the outermost node of its result is
there, and then goes on in the parts of that node in the same way (`Standard`). Any reduction can be
made standard (`standard_of_reduces`): a β-step that comes after a standard reduction either belongs
to the reduction of a part, or contracts a redex whose abstraction was brought about by weak head
steps, and then it is one more of these. If the result is normal, going on in the parts from left to
right makes leftmost steps only, so leftmost reduction finds every normal form
(`leftmostReduces_of_normal`).
-/

set_option autoImplicit false

namespace Redex.Nameless

variable {φ : Type}

/-- The term is an abstraction. -/
def IsAbs (t : Nameless φ) : Prop := ∃ body, t = abs body

/-! ## Weak head steps -/

/-- The contraction of the redex that is reached through function parts. -/
inductive WeakHead : Nameless φ → Nameless φ → Prop where
  | contract (body arg : Nameless φ) : WeakHead (app (abs body) arg) (body.contract arg)
  | appFn {fn fn' : Nameless φ} (arg : Nameless φ) :
      WeakHead fn fn' → WeakHead (app fn arg) (app fn' arg)

/-- Any number of weak head steps. -/
abbrev WeakHeadReduces (t u : Nameless φ) : Prop := Relation.ReflTransGen WeakHead t u

namespace WeakHead

variable {t u : Nameless φ}

theorem not_isAbs (step : WeakHead t u) : ¬ t.IsAbs := by
  rintro ⟨body, rfl⟩
  cases step

theorem rename (step : WeakHead t u) (ρ : Nat → Nat) : WeakHead (t.rename ρ) (u.rename ρ) := by
  induction step with
  | contract body arg =>
      rw [rename_contract]
      exact .contract _ _
  | appFn arg _ ih => exact .appFn _ ih

theorem subst (step : WeakHead t u) (σ : Nat → Nameless φ) :
    WeakHead (t.subst σ) (u.subst σ) := by
  induction step with
  | contract body arg =>
      rw [subst_contract]
      exact .contract _ _
  | appFn arg _ ih => exact .appFn _ ih

end WeakHead

/-! ## Standard reductions -/

/-- Weak head steps lead to a node whose parts lead to those of the result in the same way. -/
inductive Standard : Nameless φ → Nameless φ → Prop where
  | bound (index : Nat) : Standard (bound index) (bound index)
  | free (x : φ) : Standard (free x) (free x)
  | app {fn fn' arg arg' : Nameless φ} :
      Standard fn fn' → Standard arg arg' → Standard (app fn arg) (app fn' arg')
  | abs {body body' : Nameless φ} : Standard body body' → Standard (abs body) (abs body')
  | pi {dom dom' cod cod' : Nameless φ} :
      Standard dom dom' → Standard cod cod' → Standard (pi dom cod) (pi dom' cod')
  | sort (u : Universe) : Standard (sort u) (sort u)
  | head {t u v : Nameless φ} : WeakHead t u → Standard u v → Standard t v

namespace Standard

variable {t u v body body' arg arg' : Nameless φ}

theorem refl : ∀ t : Nameless φ, Standard t t
  | .bound index => .bound index
  | .free x => .free x
  | .app fn arg => .app (refl fn) (refl arg)
  | .abs body => .abs (refl body)
  | .pi dom cod => .pi (refl dom) (refl cod)
  | .sort u => .sort u

theorem heads (steps : WeakHeadReduces t u) (standard : Standard u v) : Standard t v := by
  induction steps using Relation.ReflTransGen.head_induction_on with
  | refl => exact standard
  | head step _ ih => exact .head step ih

/-! ### Under renaming and substitution -/

theorem rename (standard : Standard t u) :
    ∀ ρ : Nat → Nat, Standard (t.rename ρ) (u.rename ρ) := by
  induction standard with
  | bound index => intro ρ; exact .bound _
  | free x => intro ρ; exact .free x
  | app _ _ ihFn ihArg => intro ρ; exact .app (ihFn ρ) (ihArg ρ)
  | abs _ ih => intro ρ; exact .abs (ih _)
  | pi _ _ ihDom ihCod => intro ρ; exact .pi (ihDom ρ) (ihCod _)
  | sort u => intro ρ; exact .sort u
  | head step _ ih => intro ρ; exact .head (step.rename ρ) (ih ρ)

theorem liftSubstitution {σ σ' : Nat → Nameless φ}
    (pointwise : ∀ index, Standard (σ index) (σ' index)) (index : Nat) :
    Standard (Nameless.liftSubstitution σ index) (Nameless.liftSubstitution σ' index) := by
  cases index with
  | zero => exact .bound 0
  | succ index => exact (pointwise index).rename Nat.succ

theorem subst (standard : Standard t u) :
    ∀ {σ σ' : Nat → Nameless φ}, (∀ index, Standard (σ index) (σ' index)) →
      Standard (t.subst σ) (u.subst σ') := by
  induction standard with
  | bound index => intro σ σ' pointwise; exact pointwise index
  | free x => intro σ σ' pointwise; exact .free x
  | app _ _ ihFn ihArg => intro σ σ' pointwise; exact .app (ihFn pointwise) (ihArg pointwise)
  | abs _ ih => intro σ σ' pointwise; exact .abs (ih (liftSubstitution pointwise))
  | pi _ _ ihDom ihCod =>
      intro σ σ' pointwise
      exact .pi (ihDom pointwise) (ihCod (liftSubstitution pointwise))
  | sort u => intro σ σ' pointwise; exact .sort u
  | head step _ ih => intro σ σ' pointwise; exact .head (step.subst σ) (ih pointwise)

theorem contract_congr (inBody : Standard body body') (inArg : Standard arg arg') :
    Standard (body.contract arg) (body'.contract arg') := by
  refine inBody.subst fun index => ?_
  cases index with
  | zero => exact inArg
  | succ index => exact .bound index

/-! ### One more step -/

/-- The abstraction a standard reduction ends with is brought about by weak head steps. -/
theorem exists_abs (standard : Standard t u) (isAbs : u = Nameless.abs body') :
    ∃ body, WeakHeadReduces t (Nameless.abs body) ∧ Standard body body' := by
  induction standard with
  | abs inBody _ =>
      cases isAbs
      exact ⟨_, .refl, inBody⟩
  | head step _ ih =>
      obtain ⟨body, steps, inBody⟩ := ih isAbs
      exact ⟨body, .head step steps, inBody⟩
  | bound index => cases isAbs
  | free x => cases isAbs
  | app _ _ _ _ => cases isAbs
  | pi _ _ _ _ => cases isAbs
  | sort u => cases isAbs

/-- A redex whose parts were reduced in a standard way is contracted by one more weak head step. -/
theorem contract {fn : Nameless φ} (inFn : Standard fn (Nameless.abs body'))
    (inArg : Standard arg arg') : Standard (Nameless.app fn arg) (body'.contract arg') := by
  obtain ⟨body, steps, inBody⟩ := inFn.exists_abs rfl
  have applied : WeakHeadReduces (Nameless.app fn arg) (Nameless.app (Nameless.abs body) arg) :=
    steps.lift (Nameless.app · arg) fun _ _ step => .appFn arg step
  exact heads (applied.tail (.contract body arg)) (inBody.contract_congr inArg)

/-- **A standard reduction with a β-step behind it can be made standard.** -/
theorem tail (standard : Standard t u) : ∀ {v : Nameless φ}, Beta u v → Standard t v := by
  induction standard with
  | bound index =>
      intro v step
      cases step
  | free x =>
      intro v step
      cases step
  | app inFn inArg ihFn ihArg =>
      intro v step
      cases step with
      | contract body arg => exact contract inFn inArg
      | appFn _ step => exact .app (ihFn step) inArg
      | appArg _ step => exact .app inFn (ihArg step)
  | abs _ ih =>
      intro v step
      cases step with
      | abs step => exact .abs (ih step)
  | pi inDom inCod ihDom ihCod =>
      intro v step
      cases step with
      | piDom _ step => exact .pi (ihDom step) inCod
      | piCod _ step => exact .pi inDom (ihCod step)
  | sort u =>
      intro v step
      cases step
  | head step _ ih =>
      intro v last
      exact .head step (ih last)

end Standard

/-- **Every reduction can be made standard.** -/
theorem standard_of_reduces {t u : Nameless φ} (steps : BetaReduces t u) : Standard t u := by
  induction steps with
  | refl => exact .refl t
  | tail _ step ih => exact ih.tail step

/-! ## Leftmost steps -/

/-- The contraction of the first redex of a term, an outer redex before those inside it: what stands
to the left is no abstraction that is applied, and is normal before anything to its right is
contracted. -/
inductive Leftmost : Nameless φ → Nameless φ → Prop where
  | contract (body arg : Nameless φ) : Leftmost (app (abs body) arg) (body.contract arg)
  | appFn {fn fn' : Nameless φ} (arg : Nameless φ) :
      ¬ fn.IsAbs → Leftmost fn fn' → Leftmost (app fn arg) (app fn' arg)
  | appArg {fn arg arg' : Nameless φ} :
      ¬ fn.IsAbs → fn.Normal → Leftmost arg arg' → Leftmost (app fn arg) (app fn arg')
  | abs {body body' : Nameless φ} : Leftmost body body' → Leftmost (abs body) (abs body')
  | piDom {dom dom' : Nameless φ} (cod : Nameless φ) :
      Leftmost dom dom' → Leftmost (pi dom cod) (pi dom' cod)
  | piCod {dom cod cod' : Nameless φ} :
      dom.Normal → Leftmost cod cod' → Leftmost (pi dom cod) (pi dom cod')

/-- Exactly so many leftmost steps, one after another. -/
inductive LeftmostSteps : Nat → Nameless φ → Nameless φ → Prop where
  | none (t : Nameless φ) : LeftmostSteps 0 t t
  | next {count : Nat} {t u v : Nameless φ} :
      Leftmost t u → LeftmostSteps count u v → LeftmostSteps (count + 1) t v

/-- Any number of leftmost steps. -/
abbrev LeftmostReduces (t u : Nameless φ) : Prop := Relation.ReflTransGen Leftmost t u

theorem WeakHead.leftmost {t u : Nameless φ} (step : WeakHead t u) : Leftmost t u := by
  induction step with
  | contract body arg => exact .contract body arg
  | appFn arg step ih => exact .appFn arg step.not_isAbs ih

theorem Leftmost.isAbs {t u : Nameless φ} (step : Leftmost t u) (isAbs : t.IsAbs) : u.IsAbs := by
  obtain ⟨body, rfl⟩ := isAbs
  cases step with
  | abs _ => exact ⟨_, rfl⟩

namespace LeftmostReduces

variable {t u fn fn' arg arg' body body' dom dom' cod cod' : Nameless φ}

/-- The function part is not an abstraction on the way if it is none at the end. -/
theorem appFn (steps : LeftmostReduces fn fn') (notAbs : ¬ fn'.IsAbs) (arg : Nameless φ) :
    ¬ fn.IsAbs ∧ LeftmostReduces (app fn arg) (app fn' arg) := by
  induction steps using Relation.ReflTransGen.head_induction_on with
  | refl => exact ⟨notAbs, .refl⟩
  | head step _ ih =>
      have notAbsBefore := fun isAbs => ih.1 (step.isAbs isAbs)
      exact ⟨notAbsBefore, .head (.appFn arg notAbsBefore step) ih.2⟩

theorem appArg (steps : LeftmostReduces arg arg') (notAbs : ¬ fn.IsAbs) (normal : fn.Normal) :
    LeftmostReduces (app fn arg) (app fn arg') :=
  steps.lift (app fn) fun _ _ step => .appArg notAbs normal step

theorem abs (steps : LeftmostReduces body body') : LeftmostReduces (abs body) (abs body') :=
  steps.lift Nameless.abs fun _ _ step => .abs step

theorem pi (left : LeftmostReduces dom dom') (normal : dom'.Normal)
    (right : LeftmostReduces cod cod') : LeftmostReduces (pi dom cod) (pi dom' cod') :=
  (left.lift (fun t => Nameless.pi t cod) fun _ _ step => .piDom cod step).trans
    (right.lift (fun t => Nameless.pi dom' t) fun _ _ step => .piCod normal step)

theorem exists_steps (steps : LeftmostReduces t u) : ∃ count, LeftmostSteps count t u := by
  induction steps using Relation.ReflTransGen.head_induction_on with
  | refl => exact ⟨0, .none u⟩
  | head step _ ih =>
      obtain ⟨count, rest⟩ := ih
      exact ⟨count + 1, .next step rest⟩

end LeftmostReduces

/-- A standard reduction to a normal term makes leftmost steps only. -/
theorem Standard.leftmost {t u : Nameless φ} (standard : Standard t u) :
    u.Normal → LeftmostReduces t u := by
  induction standard with
  | bound index => exact fun _ => .refl
  | free x => exact fun _ => .refl
  | @app fn fn' arg arg' _ _ ihFn ihArg =>
      intro normal
      have fnNormal : fn'.Normal := fun v step => normal _ (.appFn _ step)
      have argNormal : arg'.Normal := fun v step => normal _ (.appArg _ step)
      have notAbs : ¬ fn'.IsAbs := by
        rintro ⟨body, rfl⟩
        exact normal _ (.contract body arg')
      exact ((ihFn fnNormal).appFn notAbs arg).2.trans
        ((ihArg argNormal).appArg notAbs fnNormal)
  | abs _ ih => exact fun normal => (ih fun v step => normal _ (.abs step)).abs
  | @pi dom dom' cod cod' _ _ ihDom ihCod =>
      intro normal
      have domNormal : dom'.Normal := fun v step => normal _ (.piDom _ step)
      have codNormal : cod'.Normal := fun v step => normal _ (.piCod _ step)
      exact (ihDom domNormal).pi domNormal (ihCod codNormal)
  | sort u => exact fun _ => .refl
  | head step _ ih => exact fun normal => .head step.leftmost (ih normal)

/-- **Leftmost reduction finds every normal form.** -/
theorem leftmostReduces_of_normal {t u : Nameless φ} (steps : BetaReduces t u) (normal : u.Normal) :
    LeftmostReduces t u :=
  (standard_of_reduces steps).leftmost normal

end Redex.Nameless
