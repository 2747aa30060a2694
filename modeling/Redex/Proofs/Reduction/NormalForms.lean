import Mathlib.Computability.Primrec.List
import Redex.Proofs.Reduction.Rules

/-!
# Normal forms of strategies

A strategy looks for redexes at some places of a term only, and a term is in the normal form of the
strategy when there is none at those places. Which places these are is settled by two questions:
whether the places inside arguments count, and whether those inside abstractions and products do.
The function part of an application always counts.

A run that does not use up its budget ends in the normal form of its strategy, and a term in that
normal form is left alone. For the strategies that hand the function part to a weaker one first this
needs an argument: going over that part once more must not turn it into an abstraction. It does not,
because the part is in the normal form of the weaker strategy by then, and the weaker strategy,
asked again, finds nothing to do in the function parts along its spine (`Evaluates.not_abs`).
-/

set_option autoImplicit false

namespace Redex

/-! ## Places and normal forms -/

namespace Term

variable {ι : Type}

/-- An abstraction applied to an argument. -/
def IsRedex (t : Term ι) : Prop := ∃ x body arg, t = app (abs x body) arg

/-- The term is an abstraction. -/
def IsAbs (t : Term ι) : Prop := ∃ x body, t = abs x body

end Term

namespace NormalForm

variable {ι : Type}

/-- Whether the places inside arguments count. -/
def entersArguments : NormalForm → Bool
  | full | weak => true
  | weakHead | head => false

/-- Whether the places inside abstractions and products count. -/
def entersBinders : NormalForm → Bool
  | full | head => true
  | weakHead | weak => false

/-- The part stands at a place of the term that counts for the normal form. -/
inductive Sees (form : NormalForm) (part : Term ι) : Term ι → Prop where
  | here : Sees form part part
  | appFn {fn arg : Term ι} : Sees form part fn → Sees form part (.app fn arg)
  | appArg {fn arg : Term ι} :
      form.entersArguments = true → Sees form part arg → Sees form part (.app fn arg)
  | absBody {x : ι} {body : Term ι} :
      form.entersBinders = true → Sees form part body → Sees form part (.abs x body)
  | piDom {x : ι} {dom cod : Term ι} :
      form.entersBinders = true → Sees form part dom → Sees form part (.pi x dom cod)
  | piCod {x : ι} {dom cod : Term ι} :
      form.entersBinders = true → Sees form part cod → Sees form part (.pi x dom cod)

/-- No redex stands at a place that counts. -/
def Holds (form : NormalForm) (t : Term ι) : Prop := ∀ part, form.Sees part t → ¬ part.IsRedex

variable {form form' : NormalForm} {x : ι} {fn arg body dom cod t : Term ι}

theorem holds_var : form.Holds (.var x) := by
  rintro part sees ⟨y, body, arg, rfl⟩
  cases sees

theorem holds_sort {u : Universe} : form.Holds (.sort u : Term ι) := by
  rintro part sees ⟨y, body, arg, rfl⟩
  cases sees

theorem holds_app :
    form.Holds (.app fn arg) ↔
      ¬ fn.IsAbs ∧ form.Holds fn ∧ (form.entersArguments = true → form.Holds arg) := by
  constructor
  · intro holds
    refine ⟨?_, fun part sees => holds part (.appFn sees),
      fun enters part sees => holds part (.appArg enters sees)⟩
    rintro ⟨y, body, rfl⟩
    exact holds _ .here ⟨y, body, arg, rfl⟩
  · rintro ⟨notAbs, inFn, inArg⟩ part sees
    cases sees with
    | here =>
        rintro ⟨y, body, arg', equal⟩
        exact notAbs ⟨y, body, (Term.app.inj equal).1⟩
    | appFn sees => exact inFn part sees
    | appArg enters sees => exact inArg enters part sees

theorem holds_abs : form.Holds (.abs x body) ↔ (form.entersBinders = true → form.Holds body) := by
  constructor
  · intro holds enters part sees
    exact holds part (.absBody enters sees)
  · intro inBody part sees
    cases sees with
    | here =>
        rintro ⟨y, body, arg, equal⟩
        cases equal
    | absBody enters sees => exact inBody enters part sees

theorem holds_pi :
    form.Holds (.pi x dom cod) ↔
      (form.entersBinders = true → form.Holds dom ∧ form.Holds cod) := by
  constructor
  · intro holds enters
    exact ⟨fun part sees => holds part (.piDom enters sees),
      fun part sees => holds part (.piCod enters sees)⟩
  · intro inside part sees
    cases sees with
    | here =>
        rintro ⟨y, body, arg, equal⟩
        cases equal
    | piDom enters sees => exact (inside enters).1 part sees
    | piCod enters sees => exact (inside enters).2 part sees

/-- A normal form that looks at fewer places holds more often. -/
theorem Holds.weaken (holds : form.Holds t)
    (arguments : form'.entersArguments = true → form.entersArguments = true)
    (binders : form'.entersBinders = true → form.entersBinders = true) : form'.Holds t := by
  intro part sees
  refine holds part ?_
  clear holds
  induction sees with
  | here => exact .here
  | appFn _ ih => exact .appFn ih
  | appArg enters _ ih => exact .appArg (arguments enters) ih
  | absBody enters _ ih => exact .absBody (binders enters) ih
  | piDom enters _ ih => exact .piDom (binders enters) ih
  | piCod enters _ ih => exact .piCod (binders enters) ih

end NormalForm

/-! ## Strategies and their normal forms -/

namespace Strategy

/-- The normal form a strategy stops at. -/
def normalForm : Strategy → NormalForm
  | callByName => .weakHead
  | callByValue => .weak
  | headSpine => .head
  | normalOrder | applicativeOrder | hybridApplicative | hybridNormal => .full

theorem entersBinders_normalForm (s : Strategy) : s.normalForm.entersBinders = s.isStrong := by
  cases s <;> rfl

/-- Arguments are reduced before they are passed, or when the parts are gone over again. -/
theorem entersArguments_normalForm (s : Strategy) :
    s.normalForm.entersArguments = (s.isEager || s.isHybrid) := by
  cases s <;> rfl

/-- The strategy for the function part looks at fewer places. -/
theorem holds_forFunction {ι : Type} {s : Strategy} {t : Term ι} (holds : s.normalForm.Holds t) :
    s.forFunction.normalForm.Holds t := by
  refine holds.weaken ?_ ?_
  · cases s <;> decide
  · cases s <;> decide

end Strategy

/-! ## Evaluation and normal forms -/

namespace Evaluates

variable {active : Bool} {s : Strategy} {m m' : Machine} {t t' : Term Tagged}

theorem left_le (evaluates : Evaluates active s m t m' t') : m'.left ≤ m.left := by
  induction evaluates with
  | skip s m t => exact Nat.le_refl _
  | var s m x => exact Nat.le_refl _
  | sort s m u => exact Nat.le_refl _
  | abs _ ih => exact ih
  | pi _ _ ihDom ihCod => exact Nat.le_trans ihCod ihDom
  | contract _ _ budget _ ihFn ihArg ih =>
      simp only at ih
      omega
  | apply _ _ _ _ _ ihFn ihArg ihFn' ihArg' => omega

/-- Where a strategy is not active, nothing happens. -/
theorem eq_of_inactive (evaluates : Evaluates active s m t m' t') (off : active = false) :
    m' = m ∧ t' = t := by
  subst off
  cases evaluates
  exact ⟨rfl, rfl⟩

/-- **A term in the normal form of the strategy is left alone.** -/
theorem eq_of_holds (evaluates : Evaluates active s m t m' t') :
    (active = true → s.normalForm.Holds t) → m' = m ∧ t' = t := by
  induction evaluates with
  | skip s m t => exact fun _ => ⟨rfl, rfl⟩
  | var s m x => exact fun _ => ⟨rfl, rfl⟩
  | sort s m u => exact fun _ => ⟨rfl, rfl⟩
  | @abs s m m' x body body' _ ih =>
      intro holds
      have inBody := NormalForm.holds_abs.1 (holds rfl)
      rw [s.entersBinders_normalForm] at inBody
      obtain ⟨rfl, rfl⟩ := ih inBody
      exact ⟨rfl, rfl⟩
  | @pi s m m₁ m₂ x dom dom' cod cod' _ _ ihDom ihCod =>
      intro holds
      have inside := NormalForm.holds_pi.1 (holds rfl)
      rw [s.entersBinders_normalForm] at inside
      obtain ⟨rfl, rfl⟩ := ihDom fun strong => (inside strong).1
      obtain ⟨rfl, rfl⟩ := ihCod fun strong => (inside strong).2
      exact ⟨rfl, rfl⟩
  | contract _ _ _ _ ihFn _ _ =>
      intro holds
      obtain ⟨notAbs, inFn, _⟩ := NormalForm.holds_app.1 (holds rfl)
      obtain ⟨_, same⟩ := ihFn fun _ => Strategy.holds_forFunction inFn
      exact absurd ⟨_, _, same.symm⟩ notAbs
  | @apply s m m₁ m₂ m₃ m₄ fn fn' fn'' arg arg' arg'' _ _ _ _ _ ihFn ihArg ihFn' ihArg' =>
      intro holds
      obtain ⟨_, inFn, inArg⟩ := NormalForm.holds_app.1 (holds rfl)
      rw [s.entersArguments_normalForm] at inArg
      obtain ⟨rfl, rfl⟩ := ihFn fun _ => Strategy.holds_forFunction inFn
      obtain ⟨rfl, rfl⟩ := ihArg fun eager => inArg (by rw [eager, Bool.true_or])
      obtain ⟨rfl, rfl⟩ := ihFn' fun _ => inFn
      obtain ⟨rfl, rfl⟩ := ihArg' fun again => inArg (by
        rw [(Bool.and_eq_true_iff.1 again).1, Bool.or_true])
      exact ⟨rfl, rfl⟩

/-- Going over the function part once more does not turn it into an abstraction. -/
theorem not_abs (evaluates : Evaluates true s m t m' t') (holds : s.forFunction.normalForm.Holds t)
    (notAbs : ¬ t.IsAbs) : ¬ t'.IsAbs := by
  cases evaluates with
  | var s m x => exact notAbs
  | sort s m u => exact notAbs
  | abs _ => exact absurd ⟨_, _, rfl⟩ notAbs
  | pi _ _ =>
      rintro ⟨x, body, equal⟩
      cases equal
  | contract inFn _ _ _ =>
      -- the weaker strategy has been over the function part, so it was an abstraction before
      obtain ⟨fnNotAbs, inFnHolds, _⟩ := NormalForm.holds_app.1 holds
      obtain ⟨_, same⟩ := inFn.eq_of_holds fun _ => inFnHolds
      exact absurd ⟨_, _, same.symm⟩ fnNotAbs
  | apply _ _ _ _ _ =>
      rintro ⟨x, body, equal⟩
      cases equal

/-- **An evaluation that leaves some of the budget ends in the normal form of its strategy.** -/
theorem holds (evaluates : Evaluates active s m t m' t') :
    active = true → 0 < m'.left → s.normalForm.Holds t' := by
  induction evaluates with
  | skip s m t =>
      intro on
      cases on
  | var s m x => exact fun _ _ => NormalForm.holds_var
  | sort s m u => exact fun _ _ => NormalForm.holds_sort
  | @abs s m m' x body body' _ ih =>
      intro _ budget
      refine NormalForm.holds_abs.2 fun enters => ih ?_ budget
      rwa [s.entersBinders_normalForm] at enters
  | @pi s m m₁ m₂ x dom dom' cod cod' _ inCod ihDom ihCod =>
      intro _ budget
      refine NormalForm.holds_pi.2 fun enters => ?_
      rw [s.entersBinders_normalForm] at enters
      exact ⟨ihDom enters (Nat.lt_of_lt_of_le budget inCod.left_le), ihCod enters budget⟩
  | contract _ _ _ _ _ _ ih => exact fun _ budget => ih rfl budget
  | @apply s m m₁ m₂ m₃ m₄ fn fn' fn'' arg arg' arg'' _ inArg noRedex inFn' inArg' ihFn ihArg ihFn'
      ihArg' =>
      intro _ budget
      have left₃ := Nat.lt_of_lt_of_le budget inArg'.left_le
      have left₂ := Nat.lt_of_lt_of_le left₃ inFn'.left_le
      have left₁ := Nat.lt_of_lt_of_le left₂ inArg.left_le
      have notAbs : ¬ fn'.IsAbs := by
        rintro ⟨x, body, isAbs⟩
        exact absurd (noRedex x body isAbs) (Nat.ne_of_gt left₂)
      have fnHolds := ihFn rfl left₁
      rw [NormalForm.holds_app, s.entersArguments_normalForm]
      cases hybrid : s.isHybrid with
      | false =>
          rw [hybrid] at inFn' inArg'
          obtain ⟨rfl, rfl⟩ := inFn'.eq_of_inactive rfl
          obtain ⟨rfl, rfl⟩ := inArg'.eq_of_inactive rfl
          -- a strategy that is not hybrid is its own strategy for the function part
          have itself : s.forFunction = s := Decidable.of_not_not (of_decide_eq_false hybrid)
          rw [itself] at fnHolds
          exact ⟨notAbs, fnHolds, fun eager => ihArg (by rwa [Bool.or_false] at eager) left₂⟩
      | true =>
          rw [hybrid] at inFn'
          refine ⟨inFn'.not_abs fnHolds notAbs, ihFn' hybrid left₃, fun _ => ?_⟩
          cases eager : s.isEager with
          | true =>
              rw [hybrid, eager] at inArg'
              obtain ⟨rfl, rfl⟩ := inArg'.eq_of_inactive rfl
              exact ihArg eager left₂
          | false => exact ihArg' (by rw [hybrid, eager]; rfl) budget

end Evaluates

/-! ## Runs and steps -/

section Runs

variable {s : Strategy} {t : Term Tagged}

theorem run_holds {limit : Nat} (fewer : (run s limit t).steps < limit) :
    s.normalForm.Holds (run s limit t).term := by
  refine (evaluate_evaluates s ⟨.above [t], limit⟩ t).holds rfl ?_
  simp only [run] at fewer
  omega

theorem run_of_holds (holds : s.normalForm.Holds t) (limit : Nat) : run s limit t = ⟨t, 0⟩ := by
  obtain ⟨after, term⟩ :=
    (evaluate_evaluates s ⟨.above [t], limit⟩ t).eq_of_holds fun _ => holds
  simp only [run, after, term, Nat.sub_self]

/-- Without a contraction a run gives back the term. -/
theorem run_term_of_steps {limit : Nat} (none : (run s limit t).steps = 0) :
    (run s limit t).term = t := by
  have spent := (evaluate s ⟨.above [t], limit⟩ t).spent
  refine (evaluate s ⟨.above [t], limit⟩ t).unchanged ?_
  simp only [run] at none spent
  exact Nat.le_antisymm spent (Nat.sub_eq_zero_iff_le.1 none)

theorem step?_eq_none_iff : step? s t = none ↔ s.normalForm.Holds t := by
  constructor
  · intro none
    have zero : (run s 1 t).steps = 0 := by
      rcases Nat.eq_zero_or_pos (run s 1 t).steps with zero | positive
      · exact zero
      · simp only [step?, if_pos positive] at none
        cases none
    have holds : s.normalForm.Holds (run s 1 t).term := run_holds (by rw [zero]; exact Nat.one_pos)
    rwa [run_term_of_steps zero] at holds
  · intro holds
    simp only [step?, run_of_holds holds 1, Nat.lt_irrefl, if_false]

end Runs

/-- **Each strategy stops exactly at its own normal form.** A run that makes fewer contractions
than it may ends in the normal form; a term in the normal form is given back unchanged under every
limit; and there is no step exactly when the term is in the normal form. -/
theorem run_stops_at_normalForm (s : Strategy) (t : Term Tagged) :
    (∀ limit, (run s limit t).steps < limit → s.normalForm.Holds (run s limit t).term) ∧
      (s.normalForm.Holds t → ∀ limit, run s limit t = ⟨t, 0⟩) ∧
      (step? s t = none ↔ s.normalForm.Holds t) :=
  ⟨fun _ fewer => run_holds fewer, run_of_holds, step?_eq_none_iff⟩

/-- `x ((λy.y) z)`, whose only redex stands in an argument. -/
def redexInArgument : Term Tagged :=
  .app (.var ⟨"x", 1⟩) (.app (.abs ⟨"y", 2⟩ (.var ⟨"y", 2⟩)) (.var ⟨"z", 3⟩))

/-- Hybrid normal order comes back to the argument, and call-by-name finds nothing to do. -/
theorem run_stops_redexInArgument :
    ((run .hybridNormal 2 redexInArgument).steps < 2 ∧
        NormalForm.full.Holds (run .hybridNormal 2 redexInArgument).term) ∧
      NormalForm.weakHead.Holds redexInArgument := by
  have steps : (run .hybridNormal 2 redexInArgument).steps = 1 := by cbv
  have fewer : (run .hybridNormal 2 redexInArgument).steps < 2 := by
    rw [steps]
    decide
  have noStep : step? .callByName redexInArgument = none := by cbv
  exact ⟨⟨fewer, (run_stops_at_normalForm .hybridNormal redexInArgument).1 2 fewer⟩,
    (run_stops_at_normalForm .callByName redexInArgument).2.2.1 noStep⟩

end Redex
