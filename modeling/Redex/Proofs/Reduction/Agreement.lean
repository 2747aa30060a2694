import Redex.Proofs.Nameless.Confluence
import Redex.Proofs.Reduction.NormalForms
import Redex.Proofs.Reduction.Simulation
import Redex.Proofs.Term.Alpha

/-!
# Strategies agree on normal forms

Four strategies reduce to full normal form. They contract different redexes in a different order,
and one may come to an end where another runs into its limit; but when two of them come to an end,
the results are α-equivalent. Each result is a β-reduct of the term, has no redex left, and by
confluence there is only one such reduct.
-/

set_option autoImplicit false

namespace Redex

section Image

variable {ι κ φ : Type} [Identifier ι κ] [DecidableEq κ] {reading : ι → φ}

/-- Only an abstraction has an abstraction for its image. -/
theorem isAbs_of_namelessIn_eq {t : Term ι} {scope : List κ} {body : Nameless φ}
    (image : t.namelessIn reading scope = .abs body) : t.IsAbs := by
  cases t with
  | var x => exact absurd image (namelessIn_var_ne x scope rfl)
  | app fn arg => cases image
  | abs x body => exact ⟨x, body, rfl⟩
  | pi x dom cod => cases image
  | sort u => cases image

/-- The image of a term without a redex is normal. -/
theorem normal_namelessIn {t : Term ι} :
    NormalForm.full.Holds t → ∀ scope : List κ, (t.namelessIn reading scope).Normal := by
  induction t with
  | var x =>
      intro _ scope u step
      rcases namelessIn_var_cases x scope with ⟨index, image⟩ | ⟨y, image⟩
      · rw [image] at step
        cases step
      · rw [image] at step
        cases step
  | app fn arg ihFn ihArg =>
      intro holds scope u step
      obtain ⟨notAbs, inFn, inArg⟩ := NormalForm.holds_app.1 holds
      simp only [Term.namelessIn] at step
      generalize image : fn.namelessIn reading scope = fnImage at step
      cases step with
      | contract body _ => exact notAbs (isAbs_of_namelessIn_eq image)
      | appFn _ step =>
          rw [← image] at step
          exact ihFn inFn scope _ step
      | appArg _ step => exact ihArg (inArg rfl) scope _ step
  | abs x body ih =>
      intro holds scope u step
      cases step with
      | abs step => exact ih (NormalForm.holds_abs.1 holds rfl) _ _ step
  | pi x dom cod ihDom ihCod =>
      intro holds scope u step
      obtain ⟨inDom, inCod⟩ := NormalForm.holds_pi.1 holds rfl
      cases step with
      | piDom _ step => exact ihDom inDom scope _ step
      | piCod _ step => exact ihCod inCod _ _ step
  | sort u =>
      intro _ scope v step
      cases step

end Image

/-- The strategies that reduce to full normal form. -/
def Strategy.normalising : List Strategy :=
  [normalOrder, applicativeOrder, hybridApplicative, hybridNormal]

theorem Strategy.normalForm_of_mem_normalising {s : Strategy} (member : s ∈ normalising) :
    s.normalForm = .full := by
  revert member
  cases s <;> decide

/-- A run of a normalising strategy that comes to an end gives a normal β-reduct. -/
theorem run_normalising {φ : Type} (reading : Tagged → φ) {s : Strategy} {limit : Nat}
    {t : Term Tagged} (member : s ∈ Strategy.normalising) (tagged : t.WellTagged)
    (suffice : TagsSuffice s limit t) (fewer : (run s limit t).steps < limit) :
    Nameless.BetaReduces (t.nameless reading) ((run s limit t).term.nameless reading) ∧
      ((run s limit t).term.nameless reading).Normal := by
  have holds := run_holds fewer
  rw [Strategy.normalForm_of_mem_normalising member] at holds
  exact ⟨(run_simulates reading tagged suffice).2.reduces, normal_namelessIn holds []⟩

/-- **The normalising strategies agree.** Two runs of a well-tagged term that come to an end before
their limits have α-equivalent results, free variables being compared by tag. -/
theorem runs_agree (s₁ s₂ : Strategy) (limit₁ limit₂ : Nat) (t : Term Tagged)
    (member₁ : s₁ ∈ Strategy.normalising) (member₂ : s₂ ∈ Strategy.normalising)
    (tagged : t.WellTagged) (suffice₁ : TagsSuffice s₁ limit₁ t)
    (suffice₂ : TagsSuffice s₂ limit₂ t) (fewer₁ : (run s₁ limit₁ t).steps < limit₁)
    (fewer₂ : (run s₂ limit₂ t).steps < limit₂) :
    AlphaEquivalent Tagged.tag Tagged.tag (run s₁ limit₁ t).term (run s₂ limit₂ t).term := by
  obtain ⟨reduces₁, normal₁⟩ := run_normalising Tagged.tag member₁ tagged suffice₁ fewer₁
  obtain ⟨reduces₂, normal₂⟩ := run_normalising Tagged.tag member₂ tagged suffice₂ fewer₂
  exact alphaEquivalent_iff_nameless_eq.2
    (Nameless.eq_of_normal_reducts reduces₁ reduces₂ normal₁ normal₂)

/-- `(λx.x x) ((λy.y) (λz.z))`: normal order copies the redex of the argument, applicative order
contracts it first. -/
def copiedRedex : Term Tagged :=
  .app (.abs ⟨"x", 1⟩ (.app (.var ⟨"x", 1⟩) (.var ⟨"x", 1⟩)))
    (.app (.abs ⟨"y", 2⟩ (.var ⟨"y", 2⟩)) (.abs ⟨"z", 3⟩ (.var ⟨"z", 3⟩)))

/-- The runs differ in length and in the tags they end with, and agree all the same. -/
theorem runs_agree_copiedRedex :
    copiedRedex.WellTagged ∧
      run .normalOrder 100 copiedRedex = ⟨.abs ⟨"z", 11⟩ (.var ⟨"z", 11⟩), 4⟩ ∧
      run .applicativeOrder 50 copiedRedex = ⟨.abs ⟨"z", 7⟩ (.var ⟨"z", 7⟩), 3⟩ ∧
      AlphaEquivalent Tagged.tag Tagged.tag (run .normalOrder 100 copiedRedex).term
        (run .applicativeOrder 50 copiedRedex).term := by
  have tagged : copiedRedex.WellTagged := by decide
  have normal : run .normalOrder 100 copiedRedex = ⟨.abs ⟨"z", 11⟩ (.var ⟨"z", 11⟩), 4⟩ := by cbv
  have applicative : run .applicativeOrder 50 copiedRedex =
      ⟨.abs ⟨"z", 7⟩ (.var ⟨"z", 7⟩), 3⟩ := by cbv
  refine ⟨tagged, normal, applicative, runs_agree .normalOrder .applicativeOrder 100 50 copiedRedex
    (by decide) (by decide) tagged ?_ ?_ ?_ ?_⟩
  · decide_cbv
  · decide_cbv
  · rw [normal]
    decide
  · rw [applicative]
    decide

end Redex
