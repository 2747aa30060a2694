import Redex.Reduction.Evaluation

/-!
# Rules of evaluation

The evaluator is described by rules, one for each thing it can do to a term. What is said of every
evaluation is then proved by induction on its derivation, without opening the evaluator again.

A strategy leaves some subterms alone, and at an application it may go over the parts once more.
Both are told by the first argument of `Evaluates`: where it is false, nothing happens. So one rule
for applications serves the strategies that come back to the parts and those that do not.
-/

set_option autoImplicit false

namespace Redex

/-- `Evaluates active s m t m' t'`: from the state `m` the strategy `s` takes `t` to `t'` and leaves
the state `m'`, provided that it is active; otherwise it leaves everything as it was. -/
inductive Evaluates : Bool → Strategy → Machine → Term Tagged → Machine → Term Tagged → Prop where
  | skip (s : Strategy) (m : Machine) (t : Term Tagged) : Evaluates false s m t m t
  | var (s : Strategy) (m : Machine) (x : Tagged) : Evaluates true s m (.var x) m (.var x)
  | sort (s : Strategy) (m : Machine) (u : Universe) : Evaluates true s m (.sort u) m (.sort u)
  | abs {s : Strategy} {m m' : Machine} {x : Tagged} {body body' : Term Tagged} :
      Evaluates s.isStrong s m body m' body' → Evaluates true s m (.abs x body) m' (.abs x body')
  | pi {s : Strategy} {m m₁ m₂ : Machine} {x : Tagged} {dom dom' cod cod' : Term Tagged} :
      Evaluates s.isStrong s m dom m₁ dom' → Evaluates s.isStrong s m₁ cod m₂ cod' →
        Evaluates true s m (.pi x dom cod) m₂ (.pi x dom' cod')
  /-- The function part becomes an abstraction and there is budget left. -/
  | contract {s : Strategy} {m m₁ m₂ m₃ : Machine} {x : Tagged} {fn arg arg' body t : Term Tagged}
      {left : Nat} :
      Evaluates true s.forFunction m fn m₁ (.abs x body) → Evaluates s.isEager s m₁ arg m₂ arg' →
      m₂.left = left + 1 →
      Evaluates true s ⟨(Term.instantiate x.tag arg' body m₂.gen).2, left⟩
        (Term.instantiate x.tag arg' body m₂.gen).1 m₃ t →
        Evaluates true s m (.app fn arg) m₃ t
  /-- The application is no redex, or the budget is spent. -/
  | apply {s : Strategy} {m m₁ m₂ m₃ m₄ : Machine} {fn fn' fn'' arg arg' arg'' : Term Tagged} :
      Evaluates true s.forFunction m fn m₁ fn' → Evaluates s.isEager s m₁ arg m₂ arg' →
      (∀ x body, fn' = .abs x body → m₂.left = 0) →
      Evaluates s.isHybrid s m₂ fn' m₃ fn'' →
      Evaluates (s.isHybrid && !s.isEager) s m₃ arg' m₄ arg'' →
        Evaluates true s m (.app fn arg) m₄ (.app fn'' arg'')

/-! ## The evaluator follows the rules -/

/-- A subterm that is evaluated if the strategy is active there. -/
theorem Evaluates.of_ite {active : Bool} {s : Strategy} {m : Machine} {t : Term Tagged}
    {o : Outcome m t} (chosen : (if active = true then evaluate s m t else .stay m t) = o)
    (whole : Evaluates true s m t (evaluate s m t).after (evaluate s m t).term) :
    Evaluates active s m t o.after o.term := by
  subst chosen
  cases active with
  | true => exact whole
  | false => exact .skip s m t

theorem Evaluates.of_eq_true {active : Bool} {s : Strategy} {m m' : Machine} {t t' : Term Tagged}
    (on : active = true) (whole : Evaluates true s m t m' t') : Evaluates active s m t m' t' := by
  rw [on]
  exact whole

theorem Evaluates.of_ne_true {active : Bool} {s : Strategy} {m : Machine} {t : Term Tagged}
    (off : ¬ active = true) : Evaluates active s m t m t := by
  rw [Bool.not_eq_true] at off
  rw [off]
  exact .skip s m t

/-- **Every evaluation is derived by the rules.** -/
theorem evaluate_evaluates (s : Strategy) (m : Machine) (t : Term Tagged) :
    Evaluates true s m t (evaluate s m t).after (evaluate s m t).term := by
  -- where no redex was found, an abstraction in front means that the budget is spent
  have spent : ∀ {left : Nat} {fn : Term Tagged},
      (∀ x body left', fn = .abs x body → left = left' + 1 → False) →
      ∀ x body, fn = .abs x body → left = 0 := by
    intro left fn noRedex x body isAbs
    cases left with
    | zero => rfl
    | succ left => exact (noRedex x body left isAbs rfl).elim
  fun_induction evaluate s m t with
  | case1 s m x => exact .var s m x
  | case2 s m u => exact .sort s m u
  | case3 s m x body strong ih => exact .abs (.of_eq_true strong ih)
  | case4 s m x body weak => exact .abs (.of_ne_true weak)
  | case5 s m x dom cod strong dom' m₁ _ _ inDom cod' m₂ _ _ inCod ihDom ihCod =>
      rw [inDom] at ihDom
      rw [inCod] at ihCod
      exact .pi (.of_eq_true strong ihDom) (.of_eq_true strong ihCod)
  | case6 s m x dom cod weak => exact .pi (.of_ne_true weak) (.of_ne_true weak)
  | case7 s m fn arg m₁ _ arg' m₂ _ _ inArg x body left _ budget contractum gen contracted t m₃ _ _
      inContractum _ _ inFn ihFn ihArg ih =>
      rw [inFn] at ihFn
      rw [inContractum] at ih
      refine .contract ihFn (Evaluates.of_ite inArg ihArg) budget ?_
      rw [contracted]
      exact ih
  | case8 s m fn arg m₁ _ arg' m₂ _ _ inArg fn' _ hybrid fn'' m₃ _ _ inFn' arg'' m₄ _ _ inArg'
      noRedex _ inFn ihFn ihArg ihFn' ihArg' =>
      rw [inFn] at ihFn
      rw [inFn'] at ihFn'
      have again : Evaluates (!s.isEager) s m₃ arg' m₄ arg'' := by
        refine Evaluates.of_ite (Eq.trans ?_ inArg') ihArg'
        cases s.isEager with
        | true => rfl
        | false => rfl
      refine .apply ihFn (Evaluates.of_ite inArg ihArg) (spent ?_) (.of_eq_true hybrid ihFn') ?_
      · intro x body left isAbs budget
        subst isAbs
        exact noRedex x body left _ rfl budget HEq.rfl
      · rw [hybrid]
        exact again
  | case9 s m fn arg m₁ _ arg' m₂ _ _ inArg fn' _ plain noRedex _ inFn ihFn ihArg =>
      rw [inFn] at ihFn
      refine .apply ihFn (Evaluates.of_ite inArg ihArg) (spent ?_) (.of_ne_true plain) ?_
      · intro x body left isAbs budget
        subst isAbs
        exact noRedex x body left _ rfl budget HEq.rfl
      · rw [Bool.not_eq_true] at plain
        rw [plain]
        exact .skip s m₂ arg'

end Redex
