import Redex.Proofs.Nameless.Confluence
import Redex.Proofs.Nameless.Eta

/-!
# Confluence of βη-reduction

β-reduction and η-reduction are confluent by themselves. That they are together follows from how
they commute: a parallel β-step and an η-step from one term are closed by η-steps on one side and
one parallel β-step on the other (`Parallel.commutes`). The two kinds of redexes overlap in two
ways, and in both the β-contractum is the η-contractum already: an abstraction that is an η-redex
may be applied, and what is applied in an η-redex may be an abstraction.

Terms are βη-convertible when steps in either direction lead from one to the other. By confluence
convertible terms have a common reduct (`exists_common_of_convertible`), so that different normal
forms are not convertible.
-/

set_option autoImplicit false

namespace Redex.Nameless

variable {φ : Type}

/-! ## Overlapping redexes -/

/-- Applying a shifted abstraction to the variable it was shifted past gives its body back. -/
theorem contract_shifted_body (body : Nameless φ) :
    (body.rename (liftRenaming Nat.succ)).contract (bound 0) = body := by
  rw [contract, subst_rename]
  have same : (fun index => putFirst (bound 0 : Nameless φ) (liftRenaming Nat.succ index)) =
      bound := by
    funext index
    cases index with
    | zero => rfl
    | succ index => rfl
  rw [same, subst_bound]

namespace Parallel

variable {t u v : Nameless φ}

/-- A parallel step from a renamed term is a renamed parallel step. -/
theorem reflect (step : Parallel t u) :
    ∀ {t₀ : Nameless φ} {ρ : Nat → Nat}, t₀.rename ρ = t →
      ∃ u₀ : Nameless φ, u = u₀.rename ρ ∧ Parallel t₀ u₀ := by
  induction step with
  | bound index =>
      intro t₀ ρ renamed
      exact ⟨t₀, renamed.symm, .refl t₀⟩
  | free x =>
      intro t₀ ρ renamed
      exact ⟨t₀, renamed.symm, .refl t₀⟩
  | app _ _ ihFn ihArg =>
      intro t₀ ρ renamed
      obtain ⟨fn₀, arg₀, rfl, inFn, inArg⟩ := exists_app_of_rename_eq renamed
      obtain ⟨fn₁, rfl, stepFn⟩ := ihFn inFn
      obtain ⟨arg₁, rfl, stepArg⟩ := ihArg inArg
      exact ⟨Nameless.app fn₁ arg₁, rfl, .app stepFn stepArg⟩
  | abs _ ih =>
      intro t₀ ρ renamed
      obtain ⟨body₀, rfl, inBody⟩ := exists_abs_of_rename_eq renamed
      obtain ⟨body₁, rfl, step₀⟩ := ih inBody
      exact ⟨Nameless.abs body₁, rfl, .abs step₀⟩
  | pi _ _ ihDom ihCod =>
      intro t₀ ρ renamed
      obtain ⟨dom₀, cod₀, rfl, inDom, inCod⟩ := exists_pi_of_rename_eq renamed
      obtain ⟨dom₁, rfl, stepDom⟩ := ihDom inDom
      obtain ⟨cod₁, rfl, stepCod⟩ := ihCod inCod
      exact ⟨Nameless.pi dom₁ cod₁, rfl, .pi stepDom stepCod⟩
  | sort u =>
      intro t₀ ρ renamed
      exact ⟨t₀, renamed.symm, .refl t₀⟩
  | contract _ _ ihBody ihArg =>
      intro t₀ ρ renamed
      obtain ⟨fn₀, arg₀, rfl, inFn, inArg⟩ := exists_app_of_rename_eq renamed
      obtain ⟨body₀, rfl, inBody⟩ := exists_abs_of_rename_eq inFn
      obtain ⟨body₁, rfl, stepBody⟩ := ihBody inBody
      obtain ⟨arg₁, rfl, stepArg⟩ := ihArg inArg
      exact ⟨body₁.contract arg₁, (rename_contract body₁ arg₁ ρ).symm, .contract stepBody stepArg⟩

/-- A parallel step of the body of an η-redex is made in the term that is applied there, or this
term is an abstraction and the step leads to a reduct of its body. -/
theorem of_etaBody {body : Nameless φ}
    (step : Parallel (Nameless.app t.shift (Nameless.bound 0)) body) :
    (∃ t', body = Nameless.app t'.shift (Nameless.bound 0) ∧ Parallel t t') ∨
      ∃ inner, t = Nameless.abs inner ∧ Parallel inner body := by
  generalize shifted : t.shift = fn at step
  cases step with
  | app inFn inArg =>
      obtain ⟨t', rfl, step⟩ := inFn.reflect shifted
      cases inArg with
      | bound _ => exact .inl ⟨t', rfl, step⟩
  | contract inBody inArg =>
      obtain ⟨inner, rfl, renamed⟩ := exists_abs_of_rename_eq shifted
      obtain ⟨inner', rfl, step⟩ := inBody.reflect renamed
      cases inArg with
      | bound _ =>
          rw [contract_shifted_body]
          exact .inr ⟨inner, rfl, step⟩

/-! ## Commutation -/

/-- **A parallel β-step and an η-step commute.** -/
theorem commutes (left : Parallel t u) :
    ∀ {v : Nameless φ}, Eta t v → ∃ w, EtaReduces u w ∧ Parallel v w := by
  induction left with
  | bound index =>
      intro v right
      cases right
  | free x =>
      intro v right
      cases right
  | app inFn inArg ihFn ihArg =>
      intro v right
      cases right with
      | appFn _ step =>
          obtain ⟨w, reduces, parallel⟩ := ihFn step
          exact ⟨_, reduces.app .refl, .app parallel inArg⟩
      | appArg _ step =>
          obtain ⟨w, reduces, parallel⟩ := ihArg step
          exact ⟨_, EtaReduces.app .refl reduces, .app inFn parallel⟩
  | abs inBody ih =>
      intro v right
      cases right with
      | contract t =>
          rcases inBody.of_etaBody with ⟨t', rfl, step⟩ | ⟨inner, rfl, step⟩
          · exact ⟨t', .single (.contract t'), step⟩
          · exact ⟨_, .refl, .abs step⟩
      | abs step =>
          obtain ⟨w, reduces, parallel⟩ := ih step
          exact ⟨_, reduces.abs, .abs parallel⟩
  | pi inDom inCod ihDom ihCod =>
      intro v right
      cases right with
      | piDom _ step =>
          obtain ⟨w, reduces, parallel⟩ := ihDom step
          exact ⟨_, reduces.pi .refl, .pi parallel inCod⟩
      | piCod _ step =>
          obtain ⟨w, reduces, parallel⟩ := ihCod step
          exact ⟨_, EtaReduces.pi .refl reduces, .pi inDom parallel⟩
  | sort u =>
      intro v right
      cases right
  | @contract body body' arg arg' inBody inArg ihBody ihArg =>
      intro v right
      cases right with
      | appFn _ step =>
          cases step with
          | contract t =>
              -- the abstraction is an η-redex: applying it applies the term inside
              rcases inBody.of_etaBody with ⟨t', rfl, step⟩ | ⟨inner, rfl, step⟩
              · refine ⟨Nameless.app t' arg', ?_, .app step inArg⟩
                rw [Nameless.contract, Nameless.subst, subst_putFirst_shift]
                exact .refl
              · exact ⟨_, .refl, .contract step inArg⟩
          | abs step =>
              obtain ⟨w, reduces, parallel⟩ := ihBody step
              exact ⟨_, reduces.contract .refl, .contract parallel inArg⟩
      | appArg _ step =>
          obtain ⟨w, reduces, parallel⟩ := ihArg step
          exact ⟨_, EtaReduces.contract .refl reduces, .contract inBody parallel⟩

/-- A parallel β-step commutes with any number of η-steps. -/
theorem commutes_etaReduces (left : Parallel t u) (right : EtaReduces t v) :
    ∃ w, EtaReduces u w ∧ Parallel v w := by
  induction right with
  | refl => exact ⟨u, .refl, left⟩
  | tail _ step ih =>
      obtain ⟨w, reduces, parallel⟩ := ih
      obtain ⟨w', further, parallel'⟩ := parallel.commutes step
      exact ⟨w', reduces.trans further, parallel'⟩

end Parallel

/-! ## βη-reduction and conversion -/

/-- One β-contraction or one η-contraction. -/
def BetaEta (t u : Nameless φ) : Prop := Beta t u ∨ Eta t u

/-- Any number of contractions of either kind. -/
abbrev BetaEtaReduces (t u : Nameless φ) : Prop := Relation.ReflTransGen BetaEta t u

/-- Steps in either direction lead from one term to the other. -/
abbrev Convertible (t u : Nameless φ) : Prop := Relation.EqvGen BetaEta t u

theorem BetaReduces.betaEta {t u : Nameless φ} (steps : BetaReduces t u) : BetaEtaReduces t u :=
  Relation.ReflTransGen.mono (fun _ _ step => .inl step) t u steps

theorem EtaReduces.betaEta {t u : Nameless φ} (steps : EtaReduces t u) : BetaEtaReduces t u :=
  Relation.ReflTransGen.mono (fun _ _ step => .inr step) t u steps

/-- A stride is a parallel β-step or any number of η-steps. -/
def Stride (t u : Nameless φ) : Prop := Parallel t u ∨ EtaReduces t u

/-- Two strides from one term are closed by one stride on each side. -/
theorem Stride.diamond {t u v : Nameless φ} (left : Stride t u) (right : Stride t v) :
    ∃ w, Stride u w ∧ Stride v w := by
  rcases left with left | left <;> rcases right with right | right
  · exact ⟨t.develop, .inl left.to_develop, .inl right.to_develop⟩
  · obtain ⟨w, reduces, parallel⟩ := left.commutes_etaReduces right
    exact ⟨w, .inr reduces, .inl parallel⟩
  · obtain ⟨w, reduces, parallel⟩ := right.commutes_etaReduces left
    exact ⟨w, .inl parallel, .inr reduces⟩
  · obtain ⟨w, first, second⟩ := etaReduces_confluent left right
    exact ⟨w, .inr first, .inr second⟩

theorem betaEtaReduces_iff_strides {t u : Nameless φ} :
    BetaEtaReduces t u ↔ Relation.ReflTransGen Stride t u := by
  constructor
  · intro steps
    refine Relation.ReflTransGen.mono (fun a b step => ?_) t u steps
    rcases step with step | step
    · exact .inl (.of_beta step)
    · exact .inr (.single step)
  · intro strides
    induction strides with
    | refl => exact .refl
    | tail _ stride ih =>
        rcases stride with parallel | reduces
        · exact ih.trans parallel.reduces.betaEta
        · exact ih.trans reduces.betaEta

/-- **Two βη-reducts of a term have a common βη-reduct.** -/
theorem betaEtaReduces_confluent {t u v : Nameless φ} (left : BetaEtaReduces t u)
    (right : BetaEtaReduces t v) : ∃ w, BetaEtaReduces u w ∧ BetaEtaReduces v w := by
  have diamond : ∀ a b c : Nameless φ, Stride a b → Stride a c →
      ∃ d, Relation.ReflGen Stride b d ∧ Relation.ReflTransGen Stride c d := by
    intro a b c first second
    obtain ⟨d, toLeft, toRight⟩ := first.diamond second
    exact ⟨d, .single toLeft, .single toRight⟩
  obtain ⟨w, first, second⟩ := Relation.church_rosser diamond
    (betaEtaReduces_iff_strides.1 left) (betaEtaReduces_iff_strides.1 right)
  exact ⟨w, betaEtaReduces_iff_strides.2 first, betaEtaReduces_iff_strides.2 second⟩

/-- Where reduction is confluent, terms are connected by steps in either direction only if they have
a common reduct. -/
theorem exists_common_of_eqvGen {r : Nameless φ → Nameless φ → Prop}
    (confluent : ∀ t u v, Relation.ReflTransGen r t u → Relation.ReflTransGen r t v →
      ∃ w, Relation.ReflTransGen r u w ∧ Relation.ReflTransGen r v w)
    {t u : Nameless φ} (connected : Relation.EqvGen r t u) :
    ∃ w, Relation.ReflTransGen r t w ∧ Relation.ReflTransGen r u w := by
  have equivalence : Equivalence (Relation.Join (Relation.ReflTransGen r)) :=
    Relation.equivalence_join confluent
  refine equivalence.eqvGen_iff.1 (Relation.EqvGen.eqvGen_mono (fun a b step => ?_) t u connected)
  exact ⟨b, .single step, .refl⟩

/-- **Convertible terms have a common reduct.** -/
theorem exists_common_of_convertible {t u : Nameless φ} (convertible : Convertible t u) :
    ∃ w, BetaEtaReduces t w ∧ BetaEtaReduces u w :=
  exists_common_of_eqvGen (fun _ _ _ => betaEtaReduces_confluent) convertible

/-- Terms without a redex of either kind are convertible only if they are equal. -/
theorem eq_of_convertible {t u : Nameless φ} (convertible : Convertible t u)
    (normal : ∀ v, ¬ BetaEta t v) (normal' : ∀ v, ¬ BetaEta u v) : t = u := by
  obtain ⟨w, left, right⟩ := exists_common_of_convertible convertible
  rcases left.cases_head with rfl | ⟨v, step, _⟩
  · rcases right.cases_head with same | ⟨v, step, _⟩
    · exact same.symm
    · exact absurd step (normal' v)
  · exact absurd step (normal v)

end Redex.Nameless
