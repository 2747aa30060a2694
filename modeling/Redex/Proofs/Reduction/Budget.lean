import Redex.Proofs.Reduction.Contraction

/-!
# Budgets

The limit of a run is shared by all its parts, and each of them goes on after it is spent, only
without contracting. Two things follow from the fact that an evaluation is a sequence of single
contractions, which the strategy alone determines.

A smaller limit cuts the sequence off earlier and changes nothing else (`run_of_smaller_limit`).
This needs no condition on tags: both runs take them from the same generator in the same order, also
after the largest one.

An evaluation comes to an end (`evaluation_ends`), although it asks for evaluations of terms that
are larger than its own. `Asks` lists what it asks for: the parts of the term, the contractum of a
redex, and the parts once more after a weaker strategy has been over them. A contractum comes with a
smaller budget. So does a part that is gone over again, unless nothing was contracted in it, and
then it is the very part it was before (`Evaluates.eq_of_left_eq`). Hence the budget and the size of
the term decrease together, in this order.
-/

set_option autoImplicit false

namespace Redex

open Term

/-! ## Smaller limits -/

/-- **A limit does nothing but cut a run off.** If a run makes no more contractions than a smaller
limit allows, then under that limit it gives the same term and the same number; otherwise it makes
as many contractions as it may. A negative limit counts as zero. -/
theorem run_of_smaller_limit (s : Strategy) (t : Term Tagged) (k l : Int) (le : k ≤ l) :
    ((run s l.toNat t).steps ≤ k.toNat → run s k.toNat t = run s l.toNat t) ∧
      (k.toNat < (run s l.toNat t).steps → (run s k.toNat t).steps = k.toNat) := by
  have made := run_contractions s l.toNat t
  constructor
  · intro enough
    exact run_of_contractions_le made enough fun fewer =>
      run_holds (Nat.lt_of_lt_of_le fewer (Int.toNat_le_toNat le))
  · intro more
    obtain ⟨rest, sum⟩ := Nat.exists_eq_add_of_le (Nat.le_of_lt more)
    rw [sum] at made
    obtain ⟨gen, t', first, _⟩ := made.split
    rw [run_of_contractions first]

/-- `(λx.x x) (λz.z)`, where the copies of the argument get the least tags. -/
def lastCopied : Term Tagged :=
  .app (.abs ⟨"x", 1⟩ (.app (.var ⟨"x", 1⟩) (.var ⟨"x", 1⟩)))
    (.abs ⟨"z", Int64.maxValue⟩ (.var ⟨"z", Int64.maxValue⟩))

theorem run_of_smaller_limit_lastCopied :
    (run .normalOrder 100 lastCopied).steps = 2 ∧
      run .normalOrder 2 lastCopied = run .normalOrder 100 lastCopied ∧
      (run .normalOrder 1 lastCopied).steps = 1 := by
  have steps : (run .normalOrder 100 lastCopied).steps = 2 := by cbv
  refine ⟨steps, (run_of_smaller_limit .normalOrder lastCopied 2 100 (by decide)).1 ?_,
    (run_of_smaller_limit .normalOrder lastCopied 1 100 (by decide)).2 ?_⟩
  · exact Nat.le_of_eq steps
  · exact Nat.lt_of_lt_of_eq (by decide) steps.symm

/-! ## Results of evaluations -/

namespace Evaluates

variable {active : Bool} {s : Strategy} {m m' m'' : Machine} {t t' t'' : Term Tagged}

/-- Without a contraction the term stays. -/
theorem eq_of_left_eq (evaluates : Evaluates active s m t m' t') (same : m'.left = m.left) :
    t' = t := by
  obtain ⟨n, spent, contractions, _⟩ := evaluates.contractions
  have none : n = 0 := by omega
  rw [none] at contractions
  exact (contractions.deterministic (.none m.gen t)).2.symm

/-- **The rules give one result at most.** -/
theorem deterministic (first : Evaluates active s m t m' t')
    (second : Evaluates active s m t m'' t'') : m'' = m' ∧ t'' = t' := by
  cases active with
  | false =>
      obtain ⟨rfl, rfl⟩ := first.eq_of_inactive rfl
      exact second.eq_of_inactive rfl
  | true =>
      obtain ⟨n, spent, made, _⟩ := first.contractions
      obtain ⟨n', spent', made', _⟩ := second.contractions
      -- the one with fewer contractions has budget left, and so has come to a normal form
      have same : n' = n := by
        rcases Nat.lt_trichotomy n' n with fewer | same | more
        · exact absurd (made'.le_of_holds (second.holds rfl (by omega)) made) (Nat.not_le.2 fewer)
        · exact same
        · exact absurd (made.le_of_holds (first.holds rfl (by omega)) made') (Nat.not_le.2 more)
      subst same
      obtain ⟨gen, rfl⟩ := made.deterministic made'
      have left : m''.left = m'.left := by omega
      exact ⟨congrArg₂ Machine.mk gen left, rfl⟩

end Evaluates

/-! ## What an evaluation asks for -/

/-- An evaluation that is to be made: by a strategy, from a state, of a term. -/
structure Task where
  strategy : Strategy
  state : Machine
  term : Term Tagged

/-- `Asks task part`: to make the evaluation `task` the evaluation `part` is made. Where it starts
depends on what the parts before it have come to. -/
inductive Asks : Task → Task → Prop where
  | body {s : Strategy} {m : Machine} {x : Tagged} {body : Term Tagged} :
      s.isStrong = true → Asks ⟨s, m, .abs x body⟩ ⟨s, m, body⟩
  | dom {s : Strategy} {m : Machine} {x : Tagged} {dom cod : Term Tagged} :
      s.isStrong = true → Asks ⟨s, m, .pi x dom cod⟩ ⟨s, m, dom⟩
  | cod {s : Strategy} {m m₁ : Machine} {x : Tagged} {dom dom' cod : Term Tagged} :
      s.isStrong = true → Evaluates true s m dom m₁ dom' →
        Asks ⟨s, m, .pi x dom cod⟩ ⟨s, m₁, cod⟩
  | fn {s : Strategy} {m : Machine} {fn arg : Term Tagged} :
      Asks ⟨s, m, .app fn arg⟩ ⟨s.forFunction, m, fn⟩
  | arg {s : Strategy} {m m₁ : Machine} {fn fn' arg : Term Tagged} :
      s.isEager = true → Evaluates true s.forFunction m fn m₁ fn' →
        Asks ⟨s, m, .app fn arg⟩ ⟨s, m₁, arg⟩
  | contractum {s : Strategy} {m m₁ m₂ : Machine} {x : Tagged} {fn arg arg' body : Term Tagged}
      {left : Nat} :
      Evaluates true s.forFunction m fn m₁ (.abs x body) → Evaluates s.isEager s m₁ arg m₂ arg' →
      m₂.left = left + 1 →
        Asks ⟨s, m, .app fn arg⟩ ⟨s, ⟨(instantiate x.tag arg' body m₂.gen).2, left⟩,
          (instantiate x.tag arg' body m₂.gen).1⟩
  /-- The function part once more. -/
  | fnAgain {s : Strategy} {m m₁ m₂ : Machine} {fn fn' arg arg' : Term Tagged} :
      s.isHybrid = true → Evaluates true s.forFunction m fn m₁ fn' →
      Evaluates s.isEager s m₁ arg m₂ arg' → (∀ x body, fn' = .abs x body → m₂.left = 0) →
        Asks ⟨s, m, .app fn arg⟩ ⟨s, m₂, fn'⟩
  /-- The argument, if it was not reduced before. -/
  | argAgain {s : Strategy} {m m₁ m₂ m₃ : Machine} {fn fn' fn'' arg arg' : Term Tagged} :
      s.isHybrid = true → s.isEager = false → Evaluates true s.forFunction m fn m₁ fn' →
      Evaluates s.isEager s m₁ arg m₂ arg' → (∀ x body, fn' = .abs x body → m₂.left = 0) →
      Evaluates true s m₂ fn' m₃ fn'' → Asks ⟨s, m, .app fn arg⟩ ⟨s, m₃, arg'⟩

/-- The budget gets smaller, or it stays and the term gets smaller. -/
theorem Asks.decreases {task part : Task} (asks : Asks task part) :
    Prod.Lex (· < ·) (· < ·) (part.state.left, part.term.size)
      (task.state.left, task.term.size) := by
  cases asks with
  | body _ | dom _ | fn => exact lex_lt_of_le (Nat.le_refl _) fun _ => by simp only [size]; omega
  | cod _ inDom => exact lex_lt_of_le inDom.left_le fun _ => by simp only [size]; omega
  | arg _ inFn => exact lex_lt_of_le inFn.left_le fun _ => by simp only [size]; omega
  | contractum inFn inArg budget =>
      have first := inFn.left_le
      have second := inArg.left_le
      exact .left _ _ (by simp only; omega)
  | fnAgain _ inFn inArg _ =>
      have first := inFn.left_le
      have second := inArg.left_le
      refine lex_lt_of_le (Nat.le_trans second first) fun same => ?_
      simp only at same
      rw [inFn.eq_of_left_eq (by omega)]
      simp only [size]
      omega
  | argAgain _ _ inFn inArg _ inFn' =>
      have first := inFn.left_le
      have second := inArg.left_le
      have third := inFn'.left_le
      refine lex_lt_of_le (Nat.le_trans third (Nat.le_trans second first)) fun same => ?_
      simp only at same
      rw [inArg.eq_of_left_eq (by omega)]
      simp only [size]
      omega

theorem wellFounded_asks : WellFounded fun part task => Asks task part :=
  Subrelation.wf (fun asks => asks.decreases)
    (InvImage.wf (fun task : Task => (task.state.left, task.term.size))
      (WellFounded.prod_lex Nat.lt_wfRel.wf Nat.lt_wfRel.wf))

/-- **Every evaluation comes to an end**, whatever the strategy, the limit and the tags: the
evaluations it asks for are well-founded, and the rules of evaluation lead to one result, which is
that of the run. The run makes no more contractions than the limit allows, and without a contraction
it gives back the term. A negative limit counts as zero. -/
theorem evaluation_ends (s : Strategy) (limit : Int) (t : Term Tagged) :
    (WellFounded fun part task => Asks task part) ∧
      (∃ m', Evaluates true s ⟨.above [t], limit.toNat⟩ t m' (run s limit.toNat t).term ∧
        m'.left + (run s limit.toNat t).steps = limit.toNat ∧
        ∀ m'' t'', Evaluates true s ⟨.above [t], limit.toNat⟩ t m'' t'' →
          m'' = m' ∧ t'' = (run s limit.toNat t).term) ∧
      (run s limit.toNat t).steps ≤ limit.toNat ∧
      ((run s limit.toNat t).steps = 0 → (run s limit.toNat t).term = t) := by
  have ends := evaluate_evaluates s ⟨.above [t], limit.toNat⟩ t
  refine ⟨wellFounded_asks, ⟨_, ends, ?_, fun m'' t'' => ends.deterministic⟩, Nat.sub_le _ _,
    run_term_of_steps⟩
  exact Nat.add_sub_of_le ends.left_le

end Redex
