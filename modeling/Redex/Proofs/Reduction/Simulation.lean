import Mathlib.Algebra.Module.Submodule.Lattice
import Mathlib.Computability.Primrec.List
import Redex.Proofs.Nameless.Beta
import Redex.Proofs.Reduction.Instantiation
import Redex.Proofs.Reduction.Rules

/-!
# Evaluation is β-reduction

The evaluator substitutes by replacing tags, with no check for capture. What makes this right is an
invariant of the whole walk: the part of the term that is being evaluated is well-tagged, all tags
around it have been handed out before, and whatever it turns into differs from it only by binders
with newer tags. So a part may be evaluated while the others wait, and the parts still fit together
afterwards.

`Simulates` is what an evaluation does to one part: it keeps the tags in order, and on nameless
images it is a β-reduction with as many steps as were taken from the budget, whatever binders lie
around. Each rule of evaluation composes such facts, and the run as a whole is the case without
binders around it.
-/

set_option autoImplicit false

namespace Redex

open Term

variable {φ : Type}

/-! ## Parts of an evaluation -/

/-- What happens to a part of the term between two states: new binders have new tags and are not
shadowed, and the nameless image takes one β-step for each unit of the budget. -/
structure Simulates (reading : Tagged → φ) (m : Machine) (t : Term Tagged) (m' : Machine)
    (t' : Term Tagged) : Prop where
  count_le : m.gen.count ≤ m'.gen.count
  refreshes : Refreshes m.gen.count m'.gen.count t t'
  unshadowed : t'.Unshadowed
  steps : ∃ n, m'.left + n = m.left ∧ ∀ scope,
    Nameless.BetaSteps n (t.namelessIn reading scope) (t'.namelessIn reading scope)

namespace Simulates

variable {reading : Tagged → φ} {m m₁ m₂ : Machine} {x : Tagged}
variable {t t' t'' fn fn' arg arg' body body' dom dom' cod cod' : Term Tagged}

theorem refl (m : Machine) (unshadowed : t.Unshadowed) : Simulates reading m t m t where
  count_le := Int.le_refl _
  refreshes := .refl _ _ t
  unshadowed := unshadowed
  steps := ⟨0, rfl, fun _ => .none _⟩

/-- One after the other, two parts have new tags between the first state and the last. -/
theorem refreshes_both (first : Simulates reading m fn m₁ fn')
    (second : Simulates reading m₁ arg m₂ arg') :
    Refreshes m.gen.count m₂.gen.count fn fn' ∧ Refreshes m.gen.count m₂.gen.count arg arg' :=
  ⟨first.refreshes.mono (Int.le_refl _) second.count_le,
    second.refreshes.mono first.count_le (Int.le_refl _)⟩

theorem trans (first : Simulates reading m t m₁ t') (second : Simulates reading m₁ t' m₂ t'') :
    Simulates reading m t m₂ t'' where
  count_le := Int.le_trans first.count_le second.count_le
  refreshes := by
    obtain ⟨early, late⟩ := first.refreshes_both second
    exact early.trans late
  unshadowed := second.unshadowed
  steps := by
    obtain ⟨n₁, spent₁, steps₁⟩ := first.steps
    obtain ⟨n₂, spent₂, steps₂⟩ := second.steps
    exact ⟨n₁ + n₂, by omega, fun scope => (steps₁ scope).trans (steps₂ scope)⟩

theorem tagsUpTo (simulates : Simulates reading m t m₁ t') (upTo : t.TagsUpTo m.gen.count) :
    t'.TagsUpTo m₁.gen.count :=
  simulates.refreshes.tagsUpTo upTo simulates.count_le

theorem wellTagged (simulates : Simulates reading m t m₁ t') (upTo : t.TagsUpTo m.gen.count)
    (tagged : t.WellTagged) : t'.WellTagged :=
  simulates.refreshes.wellTagged upTo tagged simulates.unshadowed

/-- The two parts of an application, one after the other. -/
theorem app (left : Simulates reading m fn m₁ fn') (right : Simulates reading m₁ arg m₂ arg') :
    Simulates reading m (app fn arg) m₂ (app fn' arg') where
  count_le := Int.le_trans left.count_le right.count_le
  refreshes := by
    obtain ⟨early, late⟩ := left.refreshes_both right
    exact early.app late
  unshadowed := ⟨left.unshadowed, right.unshadowed⟩
  steps := by
    obtain ⟨n₁, spent₁, steps₁⟩ := left.steps
    obtain ⟨n₂, spent₂, steps₂⟩ := right.steps
    exact ⟨n₁ + n₂, by omega, fun scope => (steps₁ scope).app (steps₂ scope)⟩

theorem abs (inside : Simulates reading m body m₁ body') (upTo : (abs x body).TagsUpTo m.gen.count)
    (unshadowed : (abs x body).Unshadowed) :
    Simulates reading m (abs x body) m₁ (abs x body') where
  count_le := inside.count_le
  refreshes := inside.refreshes.abs
  unshadowed :=
    ⟨tag_ne_of_new inside.refreshes.binders upTo.absBinder unshadowed.1, inside.unshadowed⟩
  steps := by
    obtain ⟨n, spent, steps⟩ := inside.steps
    exact ⟨n, spent, fun scope => (steps (x.tag :: scope)).abs⟩

theorem pi (left : Simulates reading m dom m₁ dom') (right : Simulates reading m₁ cod m₂ cod')
    (upTo : (pi x dom cod).TagsUpTo m.gen.count) (unshadowed : (pi x dom cod).Unshadowed) :
    Simulates reading m (pi x dom cod) m₂ (pi x dom' cod') where
  count_le := Int.le_trans left.count_le right.count_le
  refreshes := by
    obtain ⟨early, late⟩ := left.refreshes_both right
    exact early.pi late
  unshadowed :=
    ⟨left.unshadowed,
      tag_ne_of_new right.refreshes.binders (Int.le_trans upTo.piBinder left.count_le)
        unshadowed.2.1,
      right.unshadowed⟩
  steps := by
    obtain ⟨n₁, spent₁, steps₁⟩ := left.steps
    obtain ⟨n₂, spent₂, steps₂⟩ := right.steps
    exact ⟨n₁ + n₂, by omega, fun scope => (steps₁ scope).pi (steps₂ (x.tag :: scope))⟩

/-- The contraction of a well-tagged redex is one step. -/
theorem contract {left : Nat} (budget : m.left = left + 1)
    (leads : m.gen.Leads (instantiate x.tag arg body m.gen).2)
    (upTo : (Term.app (Term.abs x body) arg).TagsUpTo m.gen.count)
    (tagged : (Term.app (Term.abs x body) arg).WellTagged) :
    Simulates reading m (Term.app (Term.abs x body) arg)
      ⟨(instantiate x.tag arg body m.gen).2, left⟩ (instantiate x.tag arg body m.gen).1 where
  count_le := leads.le
  refreshes := refreshes_instantiate leads upTo.appArg
  unshadowed := unshadowed_instantiate body leads upTo.appFn.absBody tagged.unshadowed.1.2
  steps := by
    refine ⟨1, budget.symm, fun scope => ?_⟩
    rw [namelessIn_instantiate reading leads upTo.appArg tagged scope]
    exact .next (.contract _ _) (.none _)

end Simulates

/-! ## Whole evaluations -/

namespace Evaluates

variable {active : Bool} {s : Strategy} {m m' : Machine} {t t' : Term Tagged}

theorem count_le (evaluates : Evaluates active s m t m' t') : m.gen.count ≤ m'.gen.count := by
  induction evaluates with
  | skip s m t => exact Int.le_refl _
  | var s m x => exact Int.le_refl _
  | sort s m u => exact Int.le_refl _
  | abs _ ih => exact ih
  | pi _ _ ihDom ihCod => exact Int.le_trans ihDom ihCod
  | contract _ _ _ _ ihFn ihArg ih =>
      exact Int.le_trans (Int.le_trans ihFn ihArg)
        (Int.le_trans (count_le_instantiate _ _ _ _) ih)
  | apply _ _ _ _ _ ihFn ihArg ihFn' ihArg' =>
      exact Int.le_trans (Int.le_trans ihFn ihArg) (Int.le_trans ihFn' ihArg')

/-- **An evaluation simulates β-reduction** as long as the count stays that of a tag. -/
theorem simulates (reading : Tagged → φ) (evaluates : Evaluates active s m t m' t') :
    m.gen.Leads m'.gen → t.TagsUpTo m.gen.count → t.WellTagged →
      Simulates reading m t m' t' := by
  induction evaluates with
  | skip s m t =>
      intro _ _ tagged
      exact .refl m tagged.unshadowed
  | var s m x =>
      intro _ _ tagged
      exact .refl m tagged.unshadowed
  | sort s m u =>
      intro _ _ tagged
      exact .refl m tagged.unshadowed
  | abs _ ih =>
      intro leads upTo tagged
      exact (ih leads upTo.absBody tagged.absBody).abs upTo tagged.unshadowed
  | pi inDom inCod ihDom ihCod =>
      intro leads upTo tagged
      obtain ⟨toDom, toCod⟩ := leads.split inDom.count_le inCod.count_le
      have left := ihDom toDom upTo.piDom tagged.piDom
      have right := ihCod toCod (upTo.piCod.mono toDom.le) tagged.piCod
      exact left.pi right upTo tagged.unshadowed
  | @contract s m m₁ m₂ m₃ x fn arg arg' body t left inFn inArg budget inContractum ihFn ihArg ih =>
      intro leads upTo tagged
      have grows := count_le_instantiate x.tag arg' body m₂.gen
      have rest := Int.le_trans grows inContractum.count_le
      obtain ⟨toFn, leads⟩ := leads.split inFn.count_le (Int.le_trans inArg.count_le rest)
      obtain ⟨toArg, leads⟩ := leads.split inArg.count_le rest
      obtain ⟨toContractum, toEnd⟩ := leads.split grows inContractum.count_le
      -- the parts are evaluated first, which gives a well-tagged redex
      have parts : Simulates reading m (.app fn arg) m₂ (.app (.abs x body) arg') :=
        (ihFn toFn upTo.appFn tagged.appFn).app
          (ihArg toArg (upTo.appArg.mono toFn.le) tagged.appArg)
      have contracted : Simulates reading m₂ (.app (.abs x body) arg') _ _ :=
        .contract budget toContractum (parts.tagsUpTo upTo) (parts.wellTagged upTo tagged)
      have start := parts.trans contracted
      exact start.trans (ih toEnd (start.tagsUpTo upTo) (start.wellTagged upTo tagged))
  | @apply s m m₁ m₂ m₃ m₄ fn fn' fn'' arg arg' arg'' inFn inArg _ inFn' inArg' ihFn ihArg ihFn'
      ihArg' =>
      intro leads upTo tagged
      obtain ⟨first, second⟩ := leads.split (Int.le_trans inFn.count_le inArg.count_le)
        (Int.le_trans inFn'.count_le inArg'.count_le)
      obtain ⟨toFn, toArg⟩ := first.split inFn.count_le inArg.count_le
      obtain ⟨toFn', toArg'⟩ := second.split inFn'.count_le inArg'.count_le
      have parts : Simulates reading m (.app fn arg) m₂ (.app fn' arg') :=
        (ihFn toFn upTo.appFn tagged.appFn).app
          (ihArg toArg (upTo.appArg.mono toFn.le) tagged.appArg)
      have upTo' := parts.tagsUpTo upTo
      have tagged' := parts.wellTagged upTo tagged
      exact parts.trans ((ihFn' toFn' upTo'.appFn tagged'.appFn).app
        (ihArg' toArg' (upTo'.appArg.mono toFn'.le) tagged'.appArg))

end Evaluates

/-! ## Runs -/

/-- The tags last for a run: the count of its generator, which never goes down, ends at a number
that is a tag. -/
def TagsSuffice (s : Strategy) (limit : Nat) (t : Term Tagged) : Prop :=
  (evaluate s ⟨.above [t], limit⟩ t).after.gen.count ≤ Tag.greatest

/-- Whether the number that a generator has come to is a tag. -/
def Generator.lasts (gen : Generator) : Bool := decide (gen.count ≤ Tag.greatest)

-- The generator is an argument of `lasts`, so it is evaluated before it is compared.
/-- Whether the tags last for a run. -/
def tagsLast (s : Strategy) (limit : Nat) (t : Term Tagged) : Bool :=
  (evaluate s ⟨.above [t], limit⟩ t).after.gen.lasts

theorem tagsLast_iff {s : Strategy} {limit : Nat} {t : Term Tagged} :
    tagsLast s limit t = true ↔ TagsSuffice s limit t :=
  decide_eq_true_iff

instance (s : Strategy) (limit : Nat) (t : Term Tagged) : Decidable (TagsSuffice s limit t) :=
  decidable_of_iff _ tagsLast_iff

/-- The generator of a run leads from the greatest tag of the term on. -/
theorem TagsSuffice.leads {s : Strategy} {limit : Nat} {t : Term Tagged}
    (suffice : TagsSuffice s limit t) :
    (Generator.above [t]).Leads (evaluate s ⟨.above [t], limit⟩ t).after.gen :=
  ⟨Int64.minValue_le_toInt _, (evaluate_evaluates s ⟨.above [t], limit⟩ t).count_le, suffice⟩

/-- A run simulates β-reduction, with as many steps as it reports. -/
theorem run_simulates (reading : Tagged → φ) {s : Strategy} {limit : Nat} {t : Term Tagged}
    (tagged : t.WellTagged) (suffice : TagsSuffice s limit t) :
    (run s limit t).term.WellTagged ∧
      Nameless.BetaSteps (run s limit t).steps (t.nameless reading)
        ((run s limit t).term.nameless reading) := by
  have whole := (evaluate_evaluates s ⟨.above [t], limit⟩ t).simulates reading suffice.leads
    (tagsUpTo_above t) tagged
  refine ⟨whole.wellTagged (tagsUpTo_above t) tagged, ?_⟩
  obtain ⟨n, spent, steps⟩ := whole.steps
  have count : (run s limit t).steps = n := Nat.sub_eq_of_eq_add' spent.symm
  rw [count]
  exact steps []

/-- **A run is capture-avoiding β-reduction.** Whatever the strategy and the limit, a well-tagged
term stays well-tagged, and its nameless image takes exactly as many β-steps as the run reports. -/
theorem run_betaSteps (s : Strategy) (limit : Nat) (t : Term Tagged) (tagged : t.WellTagged)
    (suffice : TagsSuffice s limit t) :
    (run s limit t).steps ≤ limit ∧ (run s limit t).term.WellTagged ∧
      Nameless.BetaSteps (run s limit t).steps (t.nameless Tagged.tag)
        ((run s limit t).term.nameless Tagged.tag) :=
  ⟨Nat.sub_le _ _, run_simulates Tagged.tag tagged suffice⟩

/-- `(λx.λy.x x) (λz.y z)`: the argument mentions a free `y`, and is copied twice below a binder of
that name. -/
def duplication : Term Tagged :=
  .app (.abs ⟨"x", 1⟩ (.abs ⟨"y", 2⟩ (.app (.var ⟨"x", 1⟩) (.var ⟨"x", 1⟩))))
    (.abs ⟨"z", 4⟩ (.app (.var ⟨"y", 3⟩) (.var ⟨"z", 4⟩)))

/-- The free variable stays free in both copies. -/
theorem run_betaSteps_duplication :
    (duplication.WellTagged ∧ TagsSuffice .normalOrder 100 duplication) ∧
      Nameless.BetaSteps 2 (duplication.nameless Tagged.tag)
        (.abs (.app (.free 3) (.abs (.app (.free 3) (.bound 0))))) := by
  have tagged : duplication.WellTagged := by decide
  have suffice : TagsSuffice .normalOrder 100 duplication := by decide_cbv
  have result := run_betaSteps .normalOrder 100 duplication tagged suffice
  have steps : (run .normalOrder 100 duplication).steps = 2 := by cbv
  have image : (run .normalOrder 100 duplication).term.nameless Tagged.tag =
      .abs (.app (.free 3) (.abs (.app (.free 3) (.bound 0)))) := by cbv
  rw [steps, image] at result
  exact ⟨⟨tagged, suffice⟩, result.2.2⟩

end Redex
