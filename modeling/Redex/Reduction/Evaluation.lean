import Redex.Reduction.Strategy
import Redex.Reduction.Substitution

/-!
# Evaluation under a budget

An evaluation walks over a term as its strategy says and contracts the redexes it meets, as long
as its budget lasts. The budget is shared by the whole walk, so that terms without a normal form
come to an end as well; when it is spent the walk goes on without contracting.

Contraction makes terms larger, and a hybrid strategy walks over a result again, so no part of the
term gets smaller from call to call. The walk ends because each call either has a smaller budget or
has the same budget and a smaller term: an evaluation that spent nothing gives back the very term it
was given. The two facts that this rests on are part of the type of its result, `Outcome`.
-/

set_option autoImplicit false

namespace Redex

/-- What an evaluation uses up: tags for copied binders, and contractions. -/
structure Machine where
  gen : Generator
  left : Nat
deriving DecidableEq, Repr

/-- The result of evaluating `t` from the state `before`. -/
structure Outcome (before : Machine) (t : Term Tagged) where
  term : Term Tagged
  after : Machine
  /-- The budget does not grow. -/
  spent : after.left ≤ before.left
  /-- Without a contraction the term is unchanged. -/
  unchanged : after.left = before.left → term = t

namespace Outcome

/-- The outcome of doing nothing. -/
def stay (before : Machine) (t : Term Tagged) : Outcome before t :=
  ⟨t, before, Nat.le_refl _, fun _ => rfl⟩

/-- The outcome for an abstraction from the outcome for its body. -/
def underAbs {before : Machine} {body : Term Tagged} (x : Tagged) (o : Outcome before body) :
    Outcome before (.abs x body) :=
  ⟨.abs x o.term, o.after, o.spent, fun same => by rw [o.unchanged same]⟩

end Outcome

/-- A pair gets smaller when its first part does not grow and, if that stays, the second part
shrinks. -/
theorem lex_lt_of_le {a a' b b' : Nat} (notMore : a' ≤ a) (smaller : a' = a → b' < b) :
    Prod.Lex (· < ·) (· < ·) (a', b') (a, b) := by
  rcases Nat.lt_or_eq_of_le notMore with less | rfl
  · exact .left _ _ less
  · exact .right _ (smaller rfl)

/-- Evaluate a term by a strategy. -/
def evaluate (s : Strategy) (before : Machine) (t : Term Tagged) : Outcome before t :=
  match t with
  | .var x => .stay before (.var x)
  | .sort u => .stay before (.sort u)
  | .abs x body =>
    if s.isStrong then (evaluate s before body).underAbs x else .stay before (.abs x body)
  | .pi x dom cod =>
    if s.isStrong then
      let ⟨dom', m₁, spent₁, same₁⟩ := evaluate s before dom
      let ⟨cod', m₂, spent₂, same₂⟩ := evaluate s m₁ cod
      ⟨.pi x dom' cod', m₂, by omega, fun same => by rw [same₁ (by omega), same₂ (by omega)]⟩
    else .stay before (.pi x dom cod)
  | .app fn arg =>
    let ⟨fn', m₁, spent₁, same₁⟩ := evaluate s.forFunction before fn
    let ⟨arg', m₂, spent₂, same₂⟩ : Outcome m₁ arg :=
      if s.isEager then evaluate s m₁ arg else .stay m₁ arg
    match fn', _budget : m₂.left with
    | .abs x body, left + 1 =>
      let (contractum, gen) := Term.instantiate x.tag arg' body m₂.gen
      let ⟨result, m₃, spent₃, _⟩ := evaluate s ⟨gen, left⟩ contractum
      have less : m₃.left < before.left := by simp only at spent₃; omega
      ⟨result, m₃, Nat.le_of_lt less, fun same => absurd same (Nat.ne_of_lt less)⟩
    | fn', _ =>
      if s.isHybrid then
        let ⟨fn'', m₃, spent₃, same₃⟩ := evaluate s m₂ fn'
        let ⟨arg'', m₄, spent₄, same₄⟩ : Outcome m₃ arg' :=
          if s.isEager then .stay m₃ arg' else evaluate s m₃ arg'
        ⟨.app fn'' arg'', m₄, by omega, fun same => by
          rw [same₄ (by omega), same₃ (by omega), same₂ (by omega), same₁ (by omega)]⟩
      else
        ⟨.app fn' arg', m₂, by omega, fun same => by rw [same₁ (by omega), same₂ (by omega)]⟩
termination_by (before.left, t.size)
decreasing_by
  all_goals refine lex_lt_of_le (by omega) fun equal => ?_; simp only [Term.size]
  -- the body, the domain and the codomain, the function part, the argument
  · omega
  · omega
  · omega
  · omega
  · omega
  -- the contractum, for which the budget is smaller
  · omega
  -- the two parts once more, unchanged if the budget is
  · rw [same₁ (by omega)]; omega
  · rw [same₂ (by omega)]; omega

/-! ## Runs, steps and traces -/

/-- The number of contractions when none is asked for. -/
def defaultLimit : Nat := 100

/-- A reduced term, and the number of contractions it took. -/
structure Reduct where
  term : Term Tagged
  steps : Nat
deriving DecidableEq, Repr

/-- Reduce a term by at most `limit` contractions. New tags come after those of the term. -/
def run (s : Strategy) (limit : Nat) (t : Term Tagged) : Reduct :=
  let outcome := evaluate s ⟨.above [t], limit⟩ t
  ⟨outcome.term, limit - outcome.after.left⟩

/-- The term after the first contraction, if there is one. -/
def step? (s : Strategy) (t : Term Tagged) : Option (Term Tagged) :=
  let reduct := run s 1 t
  if 0 < reduct.steps then some reduct.term else none

/-- A term and the terms after each of at most `limit` contractions. -/
def trace (s : Strategy) : Nat → Term Tagged → List (Term Tagged)
  | 0, t => [t]
  | limit + 1, t =>
    match step? s t with
    | some next => t :: trace s limit next
    | none => [t]

/-- The normal forms that have a name. -/
inductive NormalForm where
  | full
  | weakHead
  | weak
  | head
deriving DecidableEq, Repr

/-- The strategy that computes a normal form. -/
def NormalForm.strategy : NormalForm → Strategy
  | full => .hybridApplicative
  | weakHead => .callByName
  | weak => .callByValue
  | head => .headSpine

/-! ## Strategies by number -/

/-- The failure to reduce by a number that names no strategy. -/
structure UnknownNumber where
  number : Int
deriving DecidableEq, Repr

/-- The wording of the failure. -/
def UnknownNumber.message (failure : UnknownNumber) : String :=
  "reduce: unknown strategy " ++ Strategy.printNumber failure.number

/-- The strategy of a number that is to be used for reducing. -/
def Strategy.byNumber (number : Int) : Except UnknownNumber Strategy :=
  match ofNumber? number with
  | some s => .ok s
  | none => .error ⟨number⟩

/-- A trace by the strategy of a number. A trace of no contraction uses no strategy. -/
def traceByNumber (number : Int) (limit : Nat) (t : Term Tagged) :
    Except UnknownNumber (List (Term Tagged)) :=
  if limit = 0 then .ok [t]
  else do
    let s ← Strategy.byNumber number
    return trace s limit t

end Redex
