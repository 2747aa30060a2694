import Redex.Proofs.Reduction.NormalForms

/-!
# Single contractions

An evaluation does not stop between two contractions: it goes on in the middle of its walk, with the
parts it has evaluated already. Here the same contractions are described one at a time, each of them
found from the whole term (`Contracts`). The rules say where a strategy contracts next: in the
function part, then in the argument if it is eager, then at the application itself, and after that,
if it is hybrid, in the two parts once more.

Starting from the whole term again after each contraction leads to the same redex as going on. For a
strategy that is not hybrid this is plain: the parts that were evaluated are in normal form and
nothing is found in them. A hybrid strategy comes back to the function part, and there it must be
known that its own contractions leave nothing to do for the weaker strategy that looks at that part
first (`Contracts.keeps_holds`). So every evaluation is a sequence of single contractions, as many
as were taken from its budget (`Evaluates.contractions`).
-/

set_option autoImplicit false

namespace Redex

open Term

/-- `Contracts s gen t gen' t'`: the redex that the strategy contracts next in `t` is contracted,
with new tags of `gen`. -/
inductive Contracts : Strategy → Generator → Term Tagged → Generator → Term Tagged → Prop where
  | redex {s : Strategy} (gen : Generator) {x : Tagged} {body arg : Term Tagged} :
      s.forFunction.normalForm.Holds (.abs x body) →
      (s.isEager = true → s.normalForm.Holds arg) →
        Contracts s gen (.app (.abs x body) arg) (instantiate x.tag arg body gen).2
          (instantiate x.tag arg body gen).1
  | appFn {s : Strategy} {gen gen' : Generator} {fn fn' arg : Term Tagged} :
      Contracts s.forFunction gen fn gen' fn' → Contracts s gen (.app fn arg) gen' (.app fn' arg)
  | appArg {s : Strategy} {gen gen' : Generator} {fn arg arg' : Term Tagged} :
      s.forFunction.normalForm.Holds fn → s.isEager = true → Contracts s gen arg gen' arg' →
        Contracts s gen (.app fn arg) gen' (.app fn arg')
  /-- The function part once more. -/
  | fnAgain {s : Strategy} {gen gen' : Generator} {fn fn' arg : Term Tagged} :
      s.isHybrid = true → s.forFunction.normalForm.Holds fn → ¬ fn.IsAbs →
      (s.isEager = true → s.normalForm.Holds arg) → Contracts s gen fn gen' fn' →
        Contracts s gen (.app fn arg) gen' (.app fn' arg)
  /-- The argument, which was not reduced before. -/
  | argAgain {s : Strategy} {gen gen' : Generator} {fn arg arg' : Term Tagged} :
      s.isHybrid = true → s.isEager = false → s.normalForm.Holds fn → ¬ fn.IsAbs →
      Contracts s gen arg gen' arg' → Contracts s gen (.app fn arg) gen' (.app fn arg')
  | abs {s : Strategy} {gen gen' : Generator} {x : Tagged} {body body' : Term Tagged} :
      s.isStrong = true → Contracts s gen body gen' body' →
        Contracts s gen (.abs x body) gen' (.abs x body')
  | piDom {s : Strategy} {gen gen' : Generator} {x : Tagged} {dom dom' cod : Term Tagged} :
      s.isStrong = true → Contracts s gen dom gen' dom' →
        Contracts s gen (.pi x dom cod) gen' (.pi x dom' cod)
  | piCod {s : Strategy} {gen gen' : Generator} {x : Tagged} {dom cod cod' : Term Tagged} :
      s.isStrong = true → s.normalForm.Holds dom → Contracts s gen cod gen' cod' →
        Contracts s gen (.pi x dom cod) gen' (.pi x dom cod')

theorem Term.not_isAbs_app {ι : Type} {fn arg : Term ι} : ¬ (app fn arg).IsAbs := by
  rintro ⟨x, body, equal⟩
  cases equal

theorem Term.not_isAbs_pi {ι : Type} {x : ι} {dom cod : Term ι} : ¬ (pi x dom cod).IsAbs := by
  rintro ⟨y, body, equal⟩
  cases equal

namespace Contracts

variable {s : Strategy} {gen gen' gen'' : Generator} {t t' t'' : Term Tagged}

/-! ## One place to contract -/

/-- Nothing is contracted in a term that is in the normal form of the strategy. -/
theorem not_holds (contracts : Contracts s gen t gen' t') : ¬ s.normalForm.Holds t := by
  induction contracts with
  | redex gen _ _ =>
      intro holds
      exact (NormalForm.holds_app.1 holds).1 ⟨_, _, rfl⟩
  | appFn _ ih =>
      intro holds
      exact ih (Strategy.holds_forFunction (NormalForm.holds_app.1 holds).2.1)
  | @appArg s gen gen' fn arg arg' _ eager _ ih =>
      intro holds
      refine ih ((NormalForm.holds_app.1 holds).2.2 ?_)
      rw [s.entersArguments_normalForm, eager, Bool.true_or]
  | fnAgain _ _ _ _ _ ih =>
      intro holds
      exact ih (NormalForm.holds_app.1 holds).2.1
  | @argAgain s gen gen' fn arg arg' hybrid _ _ _ _ ih =>
      intro holds
      refine ih ((NormalForm.holds_app.1 holds).2.2 ?_)
      rw [s.entersArguments_normalForm, hybrid, Bool.or_true]
  | @abs s gen gen' x body body' strong _ ih =>
      intro holds
      refine ih (NormalForm.holds_abs.1 holds ?_)
      rw [s.entersBinders_normalForm, strong]
  | @piDom s gen gen' x dom dom' cod strong _ ih =>
      intro holds
      refine ih (NormalForm.holds_pi.1 holds ?_).1
      rw [s.entersBinders_normalForm, strong]
  | @piCod s gen gen' x dom cod cod' strong _ _ ih =>
      intro holds
      refine ih (NormalForm.holds_pi.1 holds ?_).2
      rw [s.entersBinders_normalForm, strong]

/-- **A strategy contracts at one place only.** -/
theorem deterministic (first : Contracts s gen t gen' t') :
    ∀ {gen'' : Generator} {t'' : Term Tagged}, Contracts s gen t gen'' t'' →
      gen'' = gen' ∧ t'' = t' := by
  induction first with
  | redex gen inFn inArg =>
      intro gen'' t'' second
      cases second with
      | redex gen _ _ => exact ⟨rfl, rfl⟩
      | appFn step => exact absurd inFn step.not_holds
      | appArg _ eager step => exact absurd (inArg eager) step.not_holds
      | fnAgain _ _ notAbs _ _ => exact absurd ⟨_, _, rfl⟩ notAbs
      | argAgain _ _ _ notAbs _ => exact absurd ⟨_, _, rfl⟩ notAbs
  | appFn step ih =>
      intro gen'' t'' second
      cases second with
      | redex gen inFn _ => exact absurd inFn step.not_holds
      | appFn step' =>
          obtain ⟨rfl, rfl⟩ := ih step'
          exact ⟨rfl, rfl⟩
      | appArg inFn _ _ => exact absurd inFn step.not_holds
      | fnAgain _ inFn _ _ _ => exact absurd inFn step.not_holds
      | argAgain _ _ inFn _ _ => exact absurd (Strategy.holds_forFunction inFn) step.not_holds
  | appArg inFn eager step ih =>
      intro gen'' t'' second
      cases second with
      | redex gen _ inArg => exact absurd (inArg eager) step.not_holds
      | appFn step' => exact absurd inFn step'.not_holds
      | appArg _ _ step' =>
          obtain ⟨rfl, rfl⟩ := ih step'
          exact ⟨rfl, rfl⟩
      | fnAgain _ _ _ inArg _ => exact absurd (inArg eager) step.not_holds
      | argAgain _ lazy _ _ _ => exact absurd (eager.symm.trans lazy) (by decide)
  | fnAgain hybrid inFn notAbs inArg step ih =>
      intro gen'' t'' second
      cases second with
      | redex gen _ _ => exact absurd ⟨_, _, rfl⟩ notAbs
      | appFn step' => exact absurd inFn step'.not_holds
      | appArg _ eager step' => exact absurd (inArg eager) step'.not_holds
      | fnAgain _ _ _ _ step' =>
          obtain ⟨rfl, rfl⟩ := ih step'
          exact ⟨rfl, rfl⟩
      | argAgain _ _ inFn' _ _ => exact absurd inFn' step.not_holds
  | argAgain hybrid lazy inFn notAbs step ih =>
      intro gen'' t'' second
      cases second with
      | redex gen _ _ => exact absurd ⟨_, _, rfl⟩ notAbs
      | appFn step' => exact absurd (Strategy.holds_forFunction inFn) step'.not_holds
      | appArg _ eager _ => exact absurd (eager.symm.trans lazy) (by decide)
      | fnAgain _ _ _ _ step' => exact absurd inFn step'.not_holds
      | argAgain _ _ _ _ step' =>
          obtain ⟨rfl, rfl⟩ := ih step'
          exact ⟨rfl, rfl⟩
  | abs strong step ih =>
      intro gen'' t'' second
      cases second with
      | abs _ step' =>
          obtain ⟨rfl, rfl⟩ := ih step'
          exact ⟨rfl, rfl⟩
  | piDom strong step ih =>
      intro gen'' t'' second
      cases second with
      | piDom _ step' =>
          obtain ⟨rfl, rfl⟩ := ih step'
          exact ⟨rfl, rfl⟩
      | piCod _ inDom _ => exact absurd inDom step.not_holds
  | piCod strong inDom step ih =>
      intro gen'' t'' second
      cases second with
      | piDom _ step' => exact absurd inDom step'.not_holds
      | piCod _ _ step' =>
          obtain ⟨rfl, rfl⟩ := ih step'
          exact ⟨rfl, rfl⟩

/-- **A hybrid strategy leaves nothing to do for the weaker one.** Where the strategy for the
function part has come to its end, the contractions of the strategy itself keep that normal form,
and do not make an abstraction of another term. -/
theorem keeps_holds (contracts : Contracts s gen t gen' t') :
    s.isHybrid = true → s.forFunction.normalForm.Holds t →
      s.forFunction.normalForm.Holds t' ∧ (¬ t.IsAbs → ¬ t'.IsAbs) := by
  induction contracts with
  | redex gen _ _ =>
      intro _ holds
      exact absurd ⟨_, _, rfl⟩ (NormalForm.holds_app.1 holds).1
  | appFn step _ =>
      intro _ holds
      exact absurd (NormalForm.holds_app.1 holds).2.1 step.not_holds
  | appArg _ _ _ ih =>
      intro hybrid holds
      obtain ⟨notAbs, inFn, inArg⟩ := NormalForm.holds_app.1 holds
      exact ⟨NormalForm.holds_app.2 ⟨notAbs, inFn, fun enters => (ih hybrid (inArg enters)).1⟩,
        fun _ => not_isAbs_app⟩
  | fnAgain _ _ _ _ _ ih =>
      intro hybrid holds
      obtain ⟨notAbs, inFn, inArg⟩ := NormalForm.holds_app.1 holds
      obtain ⟨inFn', notAbs'⟩ := ih hybrid inFn
      exact ⟨NormalForm.holds_app.2 ⟨notAbs' notAbs, inFn', inArg⟩, fun _ => not_isAbs_app⟩
  | argAgain _ _ _ _ _ ih =>
      intro hybrid holds
      obtain ⟨notAbs, inFn, inArg⟩ := NormalForm.holds_app.1 holds
      exact ⟨NormalForm.holds_app.2 ⟨notAbs, inFn, fun enters => (ih hybrid (inArg enters)).1⟩,
        fun _ => not_isAbs_app⟩
  | abs _ _ ih =>
      intro hybrid holds
      have inside := NormalForm.holds_abs.1 holds
      exact ⟨NormalForm.holds_abs.2 fun enters => (ih hybrid (inside enters)).1,
        fun notAbs => absurd ⟨_, _, rfl⟩ notAbs⟩
  | piDom _ _ ih =>
      intro hybrid holds
      have inside := NormalForm.holds_pi.1 holds
      exact ⟨NormalForm.holds_pi.2 fun enters =>
        ⟨(ih hybrid (inside enters).1).1, (inside enters).2⟩, fun _ => not_isAbs_pi⟩
  | piCod _ _ _ ih =>
      intro hybrid holds
      have inside := NormalForm.holds_pi.1 holds
      exact ⟨NormalForm.holds_pi.2 fun enters =>
        ⟨(inside enters).1, (ih hybrid (inside enters).2).1⟩, fun _ => not_isAbs_pi⟩

end Contracts

/-! ## Sequences of contractions -/

/-- `Contractions s n gen t gen' t'`: so many contractions, one after the other, lead from `t` to
`t'`. -/
inductive Contractions (s : Strategy) :
    Nat → Generator → Term Tagged → Generator → Term Tagged → Prop where
  | none (gen : Generator) (t : Term Tagged) : Contractions s 0 gen t gen t
  | next {n : Nat} {gen gen₁ gen' : Generator} {t t₁ t' : Term Tagged} :
      Contracts s gen t gen₁ t₁ → Contractions s n gen₁ t₁ gen' t' →
        Contractions s (n + 1) gen t gen' t'

namespace Contractions

variable {s s' : Strategy} {n i : Nat} {gen gen' gen'' : Generator} {t t' t'' : Term Tagged}

theorem single (contracts : Contracts s gen t gen' t') : Contractions s 1 gen t gen' t' :=
  .next contracts (.none gen' t')

theorem trans {n' : Nat} (first : Contractions s n gen t gen' t')
    (second : Contractions s n' gen' t' gen'' t'') : Contractions s (n + n') gen t gen'' t'' := by
  induction first with
  | none gen t =>
      rw [Nat.zero_add]
      exact second
  | next step _ ih =>
      rw [Nat.add_right_comm]
      exact .next step (ih second)

/-- Contractions in a part of the term are contractions of the whole, as long as what allows the
strategy to contract at that place is kept. -/
theorem lift (wrap : Term Tagged → Term Tagged) (allows : Term Tagged → Prop)
    (place : ∀ {gen gen' : Generator} {t t' : Term Tagged}, allows t → Contracts s gen t gen' t' →
      Contracts s' gen (wrap t) gen' (wrap t') ∧ allows t')
    (inside : Contractions s n gen t gen' t') (start : 0 < n → allows t) :
    Contractions s' n gen (wrap t) gen' (wrap t') := by
  induction inside with
  | none gen t => exact .none gen (wrap t)
  | next step _ ih =>
      obtain ⟨outside, allowed⟩ := place (start (Nat.succ_pos _)) step
      exact .next outside (ih fun _ => allowed)

section Places

variable {x : Tagged} {fn fn' arg arg' body body' dom dom' cod cod' : Term Tagged}

theorem appFn (inside : Contractions s.forFunction n gen fn gen' fn') :
    Contractions s n gen (app fn arg) gen' (app fn' arg) :=
  inside.lift (app · arg) (fun _ => True) (fun _ step => ⟨.appFn step, trivial⟩) fun _ => trivial

theorem appArg (inside : Contractions s n gen arg gen' arg')
    (allowed : 0 < n → s.forFunction.normalForm.Holds fn ∧ s.isEager = true) :
    Contractions s n gen (app fn arg) gen' (app fn arg') := by
  refine inside.lift (app fn) (fun _ => s.forFunction.normalForm.Holds fn ∧ s.isEager = true)
    (fun allowed step => ?_) allowed
  exact ⟨.appArg allowed.1 allowed.2 step, allowed⟩

theorem fnAgain (inside : Contractions s n gen fn gen' fn')
    (allowed : 0 < n → s.isHybrid = true ∧ s.forFunction.normalForm.Holds fn ∧ ¬ fn.IsAbs ∧
      (s.isEager = true → s.normalForm.Holds arg)) :
    Contractions s n gen (app fn arg) gen' (app fn' arg) := by
  refine inside.lift (app · arg) (fun fn => s.isHybrid = true ∧
    s.forFunction.normalForm.Holds fn ∧ ¬ fn.IsAbs ∧
      (s.isEager = true → s.normalForm.Holds arg)) ?_ allowed
  rintro _ _ fn fn' ⟨hybrid, holds, notAbs, argHolds⟩ step
  obtain ⟨holds', notAbs'⟩ := step.keeps_holds hybrid holds
  exact ⟨.fnAgain hybrid holds notAbs argHolds step, hybrid, holds', notAbs' notAbs, argHolds⟩

theorem argAgain (inside : Contractions s n gen arg gen' arg')
    (allowed : 0 < n → s.isHybrid = true ∧ s.isEager = false ∧ s.normalForm.Holds fn ∧
      ¬ fn.IsAbs) :
    Contractions s n gen (app fn arg) gen' (app fn arg') := by
  refine inside.lift (app fn) (fun _ => s.isHybrid = true ∧ s.isEager = false ∧
    s.normalForm.Holds fn ∧ ¬ fn.IsAbs) ?_ allowed
  rintro _ _ arg arg' ⟨hybrid, lazy, holds, notAbs⟩ step
  exact ⟨.argAgain hybrid lazy holds notAbs step, hybrid, lazy, holds, notAbs⟩

theorem abs (inside : Contractions s n gen body gen' body') (strong : 0 < n → s.isStrong = true) :
    Contractions s n gen (abs x body) gen' (abs x body') :=
  inside.lift (Term.abs x) (fun _ => s.isStrong = true)
    (fun strong step => ⟨.abs strong step, strong⟩) strong

theorem piDom (inside : Contractions s n gen dom gen' dom') (strong : 0 < n → s.isStrong = true) :
    Contractions s n gen (pi x dom cod) gen' (pi x dom' cod) :=
  inside.lift (pi x · cod) (fun _ => s.isStrong = true)
    (fun strong step => ⟨.piDom strong step, strong⟩) strong

theorem piCod (inside : Contractions s n gen cod gen' cod')
    (allowed : 0 < n → s.isStrong = true ∧ s.normalForm.Holds dom) :
    Contractions s n gen (pi x dom cod) gen' (pi x dom cod') := by
  refine inside.lift (pi x dom) (fun _ => s.isStrong = true ∧ s.normalForm.Holds dom)
    (fun allowed step => ?_) allowed
  exact ⟨.piCod allowed.1 allowed.2 step, allowed⟩

end Places

theorem deterministic (first : Contractions s n gen t gen' t') :
    ∀ {gen'' : Generator} {t'' : Term Tagged}, Contractions s n gen t gen'' t'' →
      gen'' = gen' ∧ t'' = t' := by
  induction first with
  | none gen t =>
      intro gen'' t'' second
      cases second
      exact ⟨rfl, rfl⟩
  | next step _ ih =>
      intro gen'' t'' second
      cases second with
      | next step' rest' =>
          obtain ⟨rfl, rfl⟩ := step.deterministic step'
          exact ih rest'

/-- A sequence may be cut in two. -/
theorem split (whole : Contractions s (i + n) gen t gen' t') :
    ∃ gen₁ t₁, Contractions s i gen t gen₁ t₁ ∧ Contractions s n gen₁ t₁ gen' t' := by
  induction i generalizing gen t with
  | zero =>
      rw [Nat.zero_add] at whole
      exact ⟨gen, t, .none gen t, whole⟩
  | succ i ih =>
      rw [Nat.add_right_comm] at whole
      cases whole with
      | next step rest =>
          obtain ⟨gen₁, t₁, first, second⟩ := ih rest
          exact ⟨gen₁, t₁, .next step first, second⟩

/-- No sequence goes on behind a normal form. -/
theorem le_of_holds {n' : Nat} (first : Contractions s n gen t gen' t')
    (holds : s.normalForm.Holds t') (second : Contractions s n' gen t gen'' t'') : n' ≤ n := by
  rcases Nat.lt_or_ge n n' with fewer | atMost
  · obtain ⟨rest, sum⟩ := Nat.exists_eq_add_of_lt fewer
    rw [sum, Nat.add_assoc] at second
    obtain ⟨gen₁, t₁, before, onwards⟩ := second.split
    obtain ⟨rfl, rfl⟩ := first.deterministic before
    cases onwards with
    | next step _ => exact absurd holds step.not_holds
  · exact atMost

end Contractions

/-! ## Evaluations as sequences -/

/-- **An evaluation is a sequence of single contractions**, as many as were taken from its
budget. -/
theorem Evaluates.contractions {active : Bool} {s : Strategy} {m m' : Machine} {t t' : Term Tagged}
    (evaluates : Evaluates active s m t m' t') :
    ∃ n, m'.left + n = m.left ∧ Contractions s n m.gen t m'.gen t' ∧ (0 < n → active = true) := by
  induction evaluates with
  | skip s m t => exact ⟨0, rfl, .none _ _, fun positive => absurd positive (Nat.lt_irrefl 0)⟩
  | var s m x => exact ⟨0, rfl, .none _ _, fun _ => rfl⟩
  | sort s m u => exact ⟨0, rfl, .none _ _, fun _ => rfl⟩
  | abs _ ih =>
      obtain ⟨n, spent, inBody, strong⟩ := ih
      exact ⟨n, spent, inBody.abs strong, fun _ => rfl⟩
  | pi inDom _ ihDom ihCod =>
      obtain ⟨n₁, spent₁, first, strong⟩ := ihDom
      obtain ⟨n₂, spent₂, second, strong'⟩ := ihCod
      refine ⟨n₁ + n₂, by omega, (first.piDom strong).trans (second.piCod fun positive => ?_),
        fun _ => rfl⟩
      exact ⟨strong' positive, inDom.holds (strong' positive) (by omega)⟩
  | @contract s m m₁ m₂ m₃ x fn arg arg' body t left inFn inArg budget _ ihFn ihArg ih =>
      obtain ⟨n₁, spent₁, first, _⟩ := ihFn
      obtain ⟨n₂, spent₂, second, eager⟩ := ihArg
      obtain ⟨n₃, spent₃, rest, _⟩ := ih
      -- some budget is left at the redex, so the parts have come to their normal forms
      have fnHolds := inFn.holds rfl (by omega)
      have argHolds : s.isEager = true → s.normalForm.Holds arg' := fun eager =>
        inArg.holds eager (by omega)
      have parts := first.appFn.trans (second.appArg fun positive => ⟨fnHolds, eager positive⟩)
      have redex := Contractions.single (Contracts.redex m₂.gen fnHolds argHolds)
      refine ⟨n₁ + n₂ + (1 + n₃), ?_, parts.trans (redex.trans rest), fun _ => rfl⟩
      simp only at spent₃
      omega
  | @apply s m m₁ m₂ m₃ m₄ fn fn' fn'' arg arg' arg'' inFn inArg noRedex inFn' inArg' ihFn ihArg
      ihFn' ihArg' =>
      obtain ⟨n₁, spent₁, first, _⟩ := ihFn
      obtain ⟨n₂, spent₂, second, eager⟩ := ihArg
      obtain ⟨n₃, spent₃, third, hybrid⟩ := ihFn'
      obtain ⟨n₄, spent₄, fourth, again⟩ := ihArg'
      -- each part is at its normal form if there is budget left for what comes after it
      have fnHolds : 0 < m₁.left → s.forFunction.normalForm.Holds fn' := inFn.holds rfl
      have notAbs : 0 < m₂.left → ¬ fn'.IsAbs := by
        rintro budget ⟨x, body, isAbs⟩
        exact absurd (noRedex x body isAbs) (Nat.ne_of_gt budget)
      have parts := first.appFn.trans
        (second.appArg fun positive => ⟨fnHolds (by omega), eager positive⟩)
      have fnOnceMore := third.fnAgain fun positive =>
        ⟨hybrid positive, fnHolds (by omega), notAbs (by omega), fun eager =>
          inArg.holds eager (by omega)⟩
      have argOnceMore := fourth.argAgain fun positive => by
        obtain ⟨hybrid, lazy⟩ := Bool.and_eq_true_iff.1 (again positive)
        rw [hybrid] at inFn'
        exact ⟨hybrid, Bool.not_eq_true' _ ▸ lazy, inFn'.holds rfl (by omega),
          inFn'.not_abs (fnHolds (by omega)) (notAbs (by omega))⟩
      exact ⟨n₁ + n₂ + (n₃ + n₄), by omega, parts.trans (fnOnceMore.trans argOnceMore),
        fun _ => rfl⟩

/-! ## Runs and steps -/

section Runs

variable {s : Strategy} {limit n : Nat} {gen : Generator} {t t' : Term Tagged}

/-- A run makes the contractions it reports. -/
theorem run_contractions (s : Strategy) (limit : Nat) (t : Term Tagged) :
    Contractions s (run s limit t).steps (.above [t]) t
      (evaluate s ⟨.above [t], limit⟩ t).after.gen (run s limit t).term := by
  obtain ⟨n, spent, contractions, _⟩ :=
    (evaluate_evaluates s ⟨.above [t], limit⟩ t).contractions
  have count : (run s limit t).steps = n := Nat.sub_eq_of_eq_add' spent.symm
  rw [count]
  exact contractions

/-- **A run with a budget for a sequence of contractions makes just these**, if they lead to the
normal form or use up the budget. -/
theorem run_of_contractions_le (contractions : Contractions s n (.above [t]) t gen t')
    (enough : n ≤ limit) (ends : n < limit → s.normalForm.Holds t') :
    run s limit t = ⟨t', n⟩ := by
  have made := run_contractions s limit t
  have atMost : (run s limit t).steps ≤ limit := Nat.sub_le _ _
  -- neither of the two goes on where the other has come to a normal form
  have all : (run s limit t).steps = n := by
    rcases Nat.lt_trichotomy (run s limit t).steps n with fewer | all | more
    · have holds := run_holds (Nat.lt_of_lt_of_le fewer enough)
      exact absurd (made.le_of_holds holds contractions) (Nat.not_le.2 fewer)
    · exact all
    · have holds := ends (Nat.lt_of_lt_of_le more atMost)
      exact absurd (contractions.le_of_holds holds made) (Nat.not_le.2 more)
  rw [all] at made
  obtain ⟨_, rfl⟩ := contractions.deterministic made
  exact congrArg (Reduct.mk _) all

theorem run_of_contractions (contractions : Contractions s n (.above [t]) t gen t') :
    run s n t = ⟨t', n⟩ :=
  run_of_contractions_le contractions (Nat.le_refl n) fun less => absurd less (Nat.lt_irrefl n)

theorem step?_of_contracts (contracts : Contracts s (.above [t]) t gen t') :
    step? s t = some t' := by
  have once := run_of_contractions (.single contracts)
  simp only [step?, once, Nat.one_pos, if_true]

end Runs

end Redex
