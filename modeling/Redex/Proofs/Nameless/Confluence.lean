import Redex.Proofs.Nameless.Beta

/-!
# Confluence of β-reduction

Parallel reduction contracts any set of the redexes of a term at once, and the complete development
contracts all of them. Every parallel reduct reduces in one more parallel step to the complete
development, so two parallel reducts of a term meet there. Parallel reduction has the same closure
as β-reduction, which is therefore confluent, and a term has at most one normal form
(`eq_of_normal_reducts`).
-/

set_option autoImplicit false

namespace Redex.Nameless

variable {φ : Type}

/-! ## Parallel reduction -/

/-- Contraction of any set of redexes of a term. -/
inductive Parallel : Nameless φ → Nameless φ → Prop where
  | bound (index : Nat) : Parallel (bound index) (bound index)
  | free (x : φ) : Parallel (free x) (free x)
  | app {fn fn' arg arg' : Nameless φ} :
      Parallel fn fn' → Parallel arg arg' → Parallel (app fn arg) (app fn' arg')
  | abs {body body' : Nameless φ} : Parallel body body' → Parallel (abs body) (abs body')
  | pi {dom dom' cod cod' : Nameless φ} :
      Parallel dom dom' → Parallel cod cod' → Parallel (pi dom cod) (pi dom' cod')
  | sort (u : Universe) : Parallel (sort u) (sort u)
  | contract {body body' arg arg' : Nameless φ} :
      Parallel body body' → Parallel arg arg' →
        Parallel (app (abs body) arg) (body'.contract arg')

namespace Parallel

theorem refl : ∀ t : Nameless φ, Parallel t t
  | .bound index => .bound index
  | .free x => .free x
  | .app fn arg => .app (refl fn) (refl arg)
  | .abs body => .abs (refl body)
  | .pi dom cod => .pi (refl dom) (refl cod)
  | .sort u => .sort u

theorem of_beta {t u : Nameless φ} (step : Beta t u) : Parallel t u := by
  induction step with
  | contract body arg => exact .contract (refl body) (refl arg)
  | appFn arg _ ih => exact .app ih (refl arg)
  | appArg fn _ ih => exact .app (refl fn) ih
  | abs _ ih => exact .abs ih
  | piDom cod _ ih => exact .pi ih (refl cod)
  | piCod dom _ ih => exact .pi (refl dom) ih

theorem reduces {t u : Nameless φ} (step : Parallel t u) : BetaReduces t u := by
  induction step with
  | bound index => exact .refl
  | free x => exact .refl
  | app _ _ ihFn ihArg => exact BetaReduces.app ihFn ihArg
  | abs _ ih => exact BetaReduces.abs ih
  | pi _ _ ihDom ihCod => exact BetaReduces.pi ihDom ihCod
  | sort u => exact .refl
  | contract _ _ ihBody ihArg =>
      exact (BetaReduces.app (BetaReduces.abs ihBody) ihArg).tail (.contract _ _)

/-! ## Under renaming and substitution -/

theorem rename {t u : Nameless φ} (step : Parallel t u) :
    ∀ ρ : Nat → Nat, Parallel (t.rename ρ) (u.rename ρ) := by
  induction step with
  | bound index => intro ρ; exact .bound _
  | free x => intro ρ; exact .free x
  | app _ _ ihFn ihArg => intro ρ; exact .app (ihFn ρ) (ihArg ρ)
  | abs _ ih => intro ρ; exact .abs (ih _)
  | pi _ _ ihDom ihCod => intro ρ; exact .pi (ihDom ρ) (ihCod _)
  | sort u => intro ρ; exact .sort u
  | contract _ _ ihBody ihArg =>
      intro ρ
      rw [rename_contract]
      exact .contract (ihBody _) (ihArg ρ)

theorem liftSubstitution {σ σ' : Nat → Nameless φ}
    (pointwise : ∀ index, Parallel (σ index) (σ' index)) (index : Nat) :
    Parallel (Nameless.liftSubstitution σ index) (Nameless.liftSubstitution σ' index) := by
  cases index with
  | zero => exact .bound 0
  | succ index => exact (pointwise index).rename Nat.succ

theorem subst {t u : Nameless φ} (step : Parallel t u) :
    ∀ {σ σ' : Nat → Nameless φ}, (∀ index, Parallel (σ index) (σ' index)) →
      Parallel (t.subst σ) (u.subst σ') := by
  induction step with
  | bound index => intro σ σ' pointwise; exact pointwise index
  | free x => intro σ σ' pointwise; exact .free x
  | app _ _ ihFn ihArg => intro σ σ' pointwise; exact .app (ihFn pointwise) (ihArg pointwise)
  | abs _ ih => intro σ σ' pointwise; exact .abs (ih (liftSubstitution pointwise))
  | pi _ _ ihDom ihCod =>
      intro σ σ' pointwise
      exact .pi (ihDom pointwise) (ihCod (liftSubstitution pointwise))
  | sort u => intro σ σ' pointwise; exact .sort u
  | contract _ _ ihBody ihArg =>
      intro σ σ' pointwise
      rw [subst_contract]
      exact .contract (ihBody (liftSubstitution pointwise)) (ihArg pointwise)

theorem contract_congr {body body' arg arg' : Nameless φ} (inBody : Parallel body body')
    (inArg : Parallel arg arg') : Parallel (body.contract arg) (body'.contract arg') := by
  refine inBody.subst fun index => ?_
  cases index with
  | zero => exact inArg
  | succ index => exact .bound index

end Parallel

/-! ## The complete development -/

/-- The term with every redex contracted. -/
def develop : Nameless φ → Nameless φ
  | bound index => bound index
  | free x => free x
  | app (abs body) arg => body.develop.contract arg.develop
  | app fn arg => app fn.develop arg.develop
  | abs body => abs body.develop
  | pi dom cod => pi dom.develop cod.develop
  | sort u => sort u

/-- **Every parallel reduct has the complete development as a parallel reduct.** -/
theorem Parallel.to_develop {t u : Nameless φ} (step : Parallel t u) : Parallel u t.develop := by
  induction step with
  | bound index => exact .bound index
  | free x => exact .free x
  | @app fn fn' arg arg' inFn _ ihFn ihArg =>
      cases fn with
      | abs body =>
          -- the function part is an abstraction on both sides, and the redex is still there
          cases inFn with
          | abs _ =>
              cases ihFn with
              | abs ihBody => exact .contract ihBody ihArg
      | bound index => exact .app ihFn ihArg
      | free x => exact .app ihFn ihArg
      | app fn₀ arg₀ => exact .app ihFn ihArg
      | pi dom cod => exact .app ihFn ihArg
      | sort u => exact .app ihFn ihArg
  | abs _ ih => exact .abs ih
  | pi _ _ ihDom ihCod => exact .pi ihDom ihCod
  | sort u => exact .sort u
  | contract _ _ ihBody ihArg => exact ihBody.contract_congr ihArg

/-! ## Confluence -/

/-- The closures of one step and of one parallel step agree. -/
theorem betaReduces_iff_parallel {t u : Nameless φ} :
    BetaReduces t u ↔ Relation.ReflTransGen Parallel t u := by
  constructor
  · intro steps
    exact Relation.ReflTransGen.mono (fun _ _ step => Parallel.of_beta step) t u steps
  · intro steps
    induction steps with
    | refl => exact .refl
    | tail _ step ih => exact ih.trans step.reduces

/-- **Two reducts of a term have a common reduct.** -/
theorem betaReduces_confluent {t u v : Nameless φ} (left : BetaReduces t u)
    (right : BetaReduces t v) : ∃ w, BetaReduces u w ∧ BetaReduces v w := by
  have diamond : ∀ a b c : Nameless φ, Parallel a b → Parallel a c →
      ∃ d, Relation.ReflGen Parallel b d ∧ Relation.ReflTransGen Parallel c d :=
    fun a _ _ first second =>
      ⟨a.develop, .single first.to_develop, .single second.to_develop⟩
  obtain ⟨w, first, second⟩ := Relation.church_rosser diamond
    (betaReduces_iff_parallel.1 left) (betaReduces_iff_parallel.1 right)
  exact ⟨w, betaReduces_iff_parallel.2 first, betaReduces_iff_parallel.2 second⟩

/-- **A term has at most one normal form.** -/
theorem eq_of_normal_reducts {t u v : Nameless φ} (left : BetaReduces t u)
    (right : BetaReduces t v) (normalLeft : u.Normal) (normalRight : v.Normal) : u = v := by
  obtain ⟨w, first, second⟩ := betaReduces_confluent left right
  rw [← normalLeft.eq_of_reduces first, ← normalRight.eq_of_reduces second]

end Redex.Nameless
