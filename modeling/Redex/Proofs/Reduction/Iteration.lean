import Redex.Proofs.Reduction.Contraction
import Redex.Proofs.Reduction.Instantiation
import Redex.Proofs.Tagging
import Redex.Proofs.Term.Alpha

/-!
# Iterated application

The numeral of `n` is the function that applies its first argument `n` times to its second one. Here
it is said what happens to numerals and to their parts when they are tagged, copied and contracted.

A numeral applied to a variable becomes a function that applies the variable so many times, and that
function applied to a term applies the variable to the term. A numeral applied to such a function
becomes a tower of copies of it, one inside the argument of the other. Each copy takes the next tag
for its binder, and the tower collapses from the inside (`contractions_tower`). What is left is a
single iterated application just if no copy has taken the tag of the variable that it applies: a
copy that has captures the variable and applies its own argument to itself
(`alphaEquivalent_collapse_iff`).
-/

set_option autoImplicit false

namespace Redex

namespace Term

variable {ι : Type}

/-- A function applied so many times to a term. -/
def applyTimes (fn : Term ι) : Nat → Term ι → Term ι
  | 0, t => t
  | n + 1, t => app fn (fn.applyTimes n t)

@[simp] theorem applyTimes_zero (fn t : Term ι) : fn.applyTimes 0 t = t := rfl

theorem applyTimes_succ (fn t : Term ι) (n : Nat) :
    fn.applyTimes (n + 1) t = app fn (fn.applyTimes n t) := rfl

theorem applyTimes_add (fn t : Term ι) (m n : Nat) :
    fn.applyTimes (m + n) t = fn.applyTimes m (fn.applyTimes n t) := by
  induction m with
  | zero => rw [Nat.zero_add, applyTimes_zero]
  | succ m ih => rw [Nat.succ_add, applyTimes_succ, applyTimes_succ, ih]

/-- The function that applies `f` so many times to its argument. -/
def iteration (f x : ι) (n : Nat) : Term ι := abs x ((var f).applyTimes n (var x))

/-- The numeral of a number. -/
def numeral (f x : ι) (n : Nat) : Term ι := abs f (iteration f x n)

/-- The term is built from variables by application alone. -/
inductive Combination : Term ι → Prop where
  | var (x : ι) : Combination (var x)
  | app {fn arg : Term ι} : Combination fn → Combination arg → Combination (app fn arg)

theorem Combination.applyTimes {fn t : Term ι} (inFn : fn.Combination) (inArg : t.Combination)
    (n : Nat) : (fn.applyTimes n t).Combination := by
  induction n with
  | zero => exact inArg
  | succ n ih => exact .app inFn ih

/-! ## Normal forms -/

variable {form : NormalForm} {f x : ι}

theorem not_isAbs_var : ¬ (var x).IsAbs := by
  rintro ⟨y, body, equal⟩
  cases equal

/-- Nothing is looked for inside an abstraction. -/
theorem holds_weak_abs {body : Term ι} : NormalForm.weak.Holds (abs x body) := by
  refine NormalForm.holds_abs.2 fun enters => ?_
  cases enters

theorem Combination.not_isAbs {t : Term ι} (combination : t.Combination) : ¬ t.IsAbs := by
  cases combination with
  | var x => exact not_isAbs_var
  | app _ _ => exact not_isAbs_app

theorem Combination.holds {t : Term ι} (combination : t.Combination) : form.Holds t := by
  induction combination with
  | var x => exact NormalForm.holds_var
  | app inFn _ fnHolds argHolds =>
      exact NormalForm.holds_app.2 ⟨inFn.not_isAbs, fnHolds, fun _ => argHolds⟩

theorem holds_iteration (n : Nat) : form.Holds (iteration f x n) :=
  NormalForm.holds_abs.2 fun _ => (Combination.applyTimes (.var f) (.var x) n).holds

theorem holds_numeral (n : Nat) : form.Holds (numeral f x n) :=
  NormalForm.holds_abs.2 fun _ => holds_iteration n

end Term

open Term

/-! ## Tagged numerals -/

section Tagging

variable {bound : List (Name × Tag)} {f x : Name}

theorem tagIn_applyTimes {a b : Tag} (foundF : bound.lookup f = some a)
    (foundX : bound.lookup x = some b) (state : Tagging) (n : Nat) :
    ((var f).applyTimes n (var x)).tagIn bound state =
      ((var ⟨f, a⟩).applyTimes n (var ⟨x, b⟩), state) := by
  have tagF : (var f).tagIn bound state = (var ⟨f, a⟩, state) := by simp [tagIn, foundF]
  have tagX : (var x).tagIn bound state = (var ⟨x, b⟩, state) := by simp [tagIn, foundX]
  induction n with
  | zero => exact tagX
  | succ n ih =>
      rw [applyTimes_succ, tagIn]
      simp only [tagF, ih, applyTimes_succ]

/-- A numeral takes the next two tags. -/
theorem tagIn_numeral (other : f ≠ x) (c : Int) (free : List (Name × Tag)) (n : Nat) :
    (numeral f x n).tagIn bound ⟨⟨c⟩, free⟩ =
      (numeral ⟨f, .ofInt (c + 1)⟩ ⟨x, .ofInt (c + 2)⟩ n, ⟨⟨c + 2⟩, free⟩) := by
  have count : c + 1 + 1 = c + 2 := Int.add_assoc c 1 1
  have foundF : List.lookup f ((x, Int64.ofInt (c + 2)) :: (f, Int64.ofInt (c + 1)) :: bound) =
      some (.ofInt (c + 1)) := by
    simp [List.lookup_cons, beq_eq_false_iff_ne.2 other]
  have foundX : List.lookup x ((x, Int64.ofInt (c + 2)) :: (f, Int64.ofInt (c + 1)) :: bound) =
      some (.ofInt (c + 2)) := by
    simp
  simp only [numeral, iteration, tagIn, Generator.next, count, tagIn_applyTimes foundF foundX]

/-- A tagged numeral is the numeral, whatever its tags are. -/
theorem alphaEquivalent_numeral {f x : Tagged} {f' x' : Name} (other : f.tag ≠ x.tag)
    (other' : f' ≠ x') (n : Nat) :
    AlphaEquivalent Tagged.name id (numeral f x n) (numeral f' x' n) := by
  have inside : ∀ n, Alike Tagged.name id [(x.tag, x'), (f.tag, f')]
      ((var f).applyTimes n (var x)) ((var f').applyTimes n (var x')) := by
    intro n
    induction n with
    | zero => exact .var (.here _ rfl rfl)
    | succ n ih => exact .app (.var (.there other other' (.here _ rfl rfl))) ih
  exact .abs (.abs (inside n))

end Tagging

/-! ## Copies and instances -/

section Copies

variable {f g x y : Tagged} {t value : Term Tagged} {gen : Generator}

theorem retag_applyTimes (renewed : List (Tag × Tag)) (f : Tagged) (t : Term Tagged)
    (gen : Generator) (n : Nat) :
    ((var f).applyTimes n t).retag renewed gen =
      ((var (renew renewed f)).applyTimes n (t.retag renewed gen).1, (t.retag renewed gen).2) := by
  induction n with
  | zero => rfl
  | succ n ih => simp only [applyTimes_succ, retag_app, retag_var, ih]

/-- A copy of an iteration takes the next tag. -/
theorem retag_iteration (other : f.tag ≠ x.tag) (c : Int) (n : Nat) :
    (iteration f x n).retag [] ⟨c⟩ = (iteration f ⟨x.name, .ofInt (c + 1)⟩ n, ⟨c + 1⟩) := by
  simp only [iteration, retag_abs, retag_applyTimes, retag_var, renew_cons_of_ne other,
    renew_cons_self rfl, renew_nil, Generator.next]

/-- A copy of a numeral takes the next two tags. -/
theorem retag_numeral (other : f.tag ≠ x.tag) (c : Int) (n : Nat) :
    (numeral f x n).retag [] ⟨c⟩ =
      (numeral ⟨f.name, .ofInt (c + 1)⟩ ⟨x.name, .ofInt (c + 2)⟩ n, ⟨c + 2⟩) := by
  have count : c + 1 + 1 = c + 2 := Int.add_assoc c 1 1
  simp only [numeral, iteration, retag_abs, retag_applyTimes, retag_var, renew_cons_of_ne other,
    renew_cons_self rfl, Generator.next, count]

/-- There is nothing to renew in a combination of variables. -/
theorem Term.Combination.retag_eq_self (combination : t.Combination) :
    t.retag [] gen = (t, gen) := by
  induction combination with
  | var x => rw [retag_var, renew_nil]
  | app _ _ fnSame argSame => rw [retag_app, fnSame, argSame]

/-- A combination for the argument of an iteration. A binder with the tag of the function captures
it. -/
theorem instantiate_applyTimes (combination : value.Combination) (n : Nat) :
    instantiate x.tag value ((var f).applyTimes n (var x)) gen =
      ((if f.tag = x.tag then value else var f).applyTimes n value, gen) := by
  have atVar : ∀ {z : Tagged}, z.tag = x.tag → instantiate x.tag value (var z) gen = (value, gen) := by
    intro z same
    rw [instantiate_var_self _ _ _ same, combination.retag_eq_self]
  have atF : instantiate x.tag value (var f) gen =
      (if f.tag = x.tag then value else var f, gen) := by
    split
    next same => exact atVar same
    next other => exact instantiate_var_of_ne _ _ _ other
  induction n with
  | zero => exact atVar rfl
  | succ n ih => simp only [applyTimes_succ, instantiate_app, atF, ih]

/-- A variable for the function of an iteration. -/
theorem instantiate_iteration (other : f.tag ≠ x.tag) (n : Nat) :
    instantiate f.tag (var g) (iteration f x n) gen = (iteration g x n, gen) := by
  have inside : ∀ n, instantiate f.tag (var g) ((var f).applyTimes n (var x)) gen =
      ((var g).applyTimes n (var x), gen) := by
    intro n
    induction n with
    | zero => exact instantiate_var_of_ne f.tag (var g) gen other.symm
    | succ n ih =>
        simp only [applyTimes_succ, instantiate_app, instantiate_var_self f.tag (var g) gen rfl,
          retag_var, renew_nil, ih]
  rw [iteration, instantiate_abs_of_ne _ _ _ other.symm, inside n]
  rfl

/-- Nothing is replaced in a numeral but what has the tags of its binders. -/
theorem instantiate_numeral {tag : Tag} (otherF : f.tag ≠ tag) (otherX : x.tag ≠ tag) (n : Nat) :
    instantiate tag value (numeral f x n) gen = (numeral f x n, gen) := by
  have inside : ∀ n, instantiate tag value ((var f).applyTimes n (var x)) gen =
      ((var f).applyTimes n (var x), gen) := by
    intro n
    induction n with
    | zero => exact instantiate_var_of_ne tag value gen otherX
    | succ n ih =>
        simp only [applyTimes_succ, instantiate_app, instantiate_var_of_ne _ _ _ otherF, ih]
  simp only [numeral, iteration, instantiate_abs_of_ne _ _ _ otherF,
    instantiate_abs_of_ne _ _ _ otherX, inside n]

end Copies

/-! ## Contractions -/

section Contractions

variable {s : Strategy} {f g x y : Tagged} {gen : Generator}

theorem Contracts.of_instantiate_eq {gen' : Generator} {body arg t : Term Tagged}
    (contractum : instantiate x.tag arg body gen = (t, gen'))
    (fnHolds : s.forFunction.normalForm.Holds (.abs x body))
    (argHolds : s.isEager = true → s.normalForm.Holds arg) :
    Contracts s gen (.app (.abs x body) arg) gen' t := by
  have contracts := Contracts.redex gen fnHolds argHolds
  rwa [contractum] at contracts

/-- A numeral applied to a variable. -/
theorem contracts_numeral (other : f.tag ≠ x.tag) (n : Nat) :
    Contracts s gen (app (numeral f x n) (var g)) gen (iteration g x n) :=
  .of_instantiate_eq (instantiate_iteration other n) (holds_numeral n) fun _ => NormalForm.holds_var

/-- An iteration applied to a combination of variables. -/
theorem contracts_iteration {t : Term Tagged} (combination : t.Combination) (n : Nat) :
    Contracts s gen (app (iteration f x n) t) gen
      ((if f.tag = x.tag then t else var f).applyTimes n t) :=
  .of_instantiate_eq (instantiate_applyTimes combination n) (holds_iteration n)
    fun _ => combination.holds

theorem contracts_iteration_of_ne {t : Term Tagged} (other : f.tag ≠ x.tag)
    (combination : t.Combination) (n : Nat) :
    Contracts s gen (app (iteration f x n) t) gen ((var f).applyTimes n t) := by
  have contracts : Contracts s gen (app (iteration f x n) t) gen _ :=
    contracts_iteration combination n
  rwa [if_neg other] at contracts

/-- A numeral applied to two variables. -/
theorem contractions_numeral (other : f.tag ≠ x.tag) (other' : g.tag ≠ x.tag) (n : Nat) :
    Contractions .hybridApplicative 2 gen (app (app (numeral f x n) (var g)) (var y)) gen
      ((var g).applyTimes n (var y)) := by
  have inFn : Contractions .callByValue 1 gen (app (numeral f x n) (var g)) gen (iteration g x n) :=
    .single (contracts_numeral other n)
  have whole : Contractions .hybridApplicative 1 gen (app (iteration g x n) (var y)) gen
      ((var g).applyTimes n (var y)) := .single (contracts_iteration_of_ne other' (.var y) n)
  exact (Contractions.appFn (s := .hybridApplicative) inFn).trans whole

/-- Copies of an iteration, each applied to what follows. The tags of their binders count up from
the outermost one. -/
def tower (f : Tagged) (name : Name) (n : Nat) : Nat → Int → Term Tagged → Term Tagged
  | 0, _, t => t
  | m + 1, c, t =>
    app (iteration f ⟨name, .ofInt (c + 1)⟩ n) (tower f name n m (c + 1) t)

/-- An iteration for the function of an iterated application: every occurrence gets a copy. -/
theorem instantiate_tower {h : Tagged} (other : f.tag ≠ x.tag) (n m : Nat) :
    ∀ c : Int, y.tag ≠ h.tag →
      instantiate h.tag (iteration f x n) ((var h).applyTimes m (var y)) ⟨c⟩ =
        (tower f x.name n m c (var y), ⟨c + m⟩) := by
  induction m with
  | zero =>
      intro c apart
      rw [applyTimes_zero, instantiate_var_of_ne _ _ _ apart]
      simp [tower]
  | succ m ih =>
      intro c apart
      have count : c + 1 + (m : Int) = c + ((m + 1 : Nat) : Int) := by
        push_cast
        omega
      simp only [applyTimes_succ, instantiate_app, instantiate_var_self _ _ _ rfl,
        retag_iteration other, ih (c + 1) apart, count]
      rfl

/-- What is left of a tower. A copy whose binder has the tag of the variable applies what is left of
the tower inside it to itself. -/
def collapse (f : Tagged) (n : Nat) : Nat → Int → Term Tagged → Term Tagged
  | 0, _, t => t
  | m + 1, c, t =>
    (if f.tag = .ofInt (c + 1) then collapse f n m (c + 1) t else var f).applyTimes n
      (collapse f n m (c + 1) t)

theorem Term.Combination.collapse {t : Term Tagged} (combination : t.Combination) (n m : Nat) :
    ∀ c : Int, (collapse f n m c t).Combination := by
  induction m with
  | zero => exact fun _ => combination
  | succ m ih =>
      intro c
      refine .applyTimes ?_ (ih (c + 1)) n
      split
      · exact ih (c + 1)
      · exact .var f

/-- **A tower collapses from the inside**, one copy after the other. -/
theorem contractions_tower {name : Name} {t : Term Tagged} (combination : t.Combination)
    (n m : Nat) :
    ∀ c : Int, Contractions .hybridApplicative m gen (tower f name n m c t) gen
      (collapse f n m c t) := by
  induction m with
  | zero => exact fun _ => .none _ _
  | succ m ih =>
      intro c
      have outermost : Contracts .hybridApplicative gen
          (app (iteration f ⟨name, .ofInt (c + 1)⟩ n) (collapse f n m (c + 1) t)) gen
          (collapse f n (m + 1) c t) := contracts_iteration (combination.collapse n m (c + 1)) n
      exact ((ih (c + 1)).appArg fun _ => ⟨holds_iteration n, rfl⟩).trans (.single outermost)

end Contractions

/-! ## Collapsed towers -/

section Collapse

variable {f y : Tagged}

/-- None of the next tags is that of the variable. -/
def Spared (f : Tagged) (m : Nat) (c : Int) : Prop :=
  ∀ i : Nat, i < m → f.tag ≠ .ofInt (c + 1 + i)

theorem spared_succ {m : Nat} {c : Int} :
    Spared f (m + 1) c ↔ f.tag ≠ .ofInt (c + 1) ∧ Spared f m (c + 1) := by
  have count : ∀ i : Nat, c + 1 + ((i + 1 : Nat) : Int) = c + 1 + 1 + i := by
    intro i
    push_cast
    omega
  constructor
  · intro spared
    refine ⟨?_, fun i less => ?_⟩
    · have first := spared 0 (Nat.succ_pos m)
      rwa [Int.natCast_zero, Int.add_zero] at first
    · rw [← count]
      exact spared (i + 1) (Nat.succ_lt_succ less)
  · rintro ⟨first, later⟩ i less
    cases i with
    | zero => rwa [Int.natCast_zero, Int.add_zero]
    | succ i =>
        rw [count]
        exact later i (Nat.lt_of_succ_lt_succ less)

theorem collapse_of_spared {t : Term Tagged} (n m : Nat) :
    ∀ c : Int, Spared f m c → collapse f n m c t = (var f).applyTimes (m * n) t := by
  induction m with
  | zero =>
      intro c _
      rw [Nat.zero_mul]
      rfl
  | succ m ih =>
      intro c spared
      obtain ⟨first, later⟩ := spared_succ.1 spared
      rw [collapse, if_neg first, ih (c + 1) later, ← applyTimes_add, Nat.succ_mul, Nat.add_comm]

/-- Copies that apply nothing leave the argument, whatever they capture. -/
theorem collapse_zero {t : Term Tagged} (m : Nat) : ∀ c : Int, collapse f 0 m c t = t := by
  induction m with
  | zero => exact fun _ => rfl
  | succ m ih => exact fun c => ih (c + 1)

/-- Nothing is applied but variables with the tag. -/
def AppliesOnly (tag : Tag) : Term Tagged → Prop
  | .var _ => True
  | .app fn arg => (∃ z, fn = .var z ∧ z.tag = tag) ∧ AppliesOnly tag arg
  | .abs _ _ | .pi _ _ _ | .sort _ => False

theorem appliesOnly_applyTimes {t : Term Tagged} (n : Nat) :
    AppliesOnly f.tag ((var f).applyTimes n t) ↔ AppliesOnly f.tag t := by
  induction n with
  | zero => rfl
  | succ n ih => exact ⟨fun only => ih.1 only.2, fun only => ⟨⟨f, rfl, rfl⟩, ih.2 only⟩⟩

/-- A collapsed tower is the variable it ends in or an application. -/
theorem eq_of_collapse_eq_var {z : Tagged} (n m : Nat) (c : Int)
    (equal : collapse f (n + 1) m c (var y) = var z) : z = y := by
  cases m with
  | zero =>
      cases equal
      rfl
  | succ m => cases equal

/-- A copy that captures its variable applies what is no variable with the tag. -/
theorem appliesOnly_collapse_iff (other : y.tag ≠ f.tag) (n m : Nat) :
    ∀ c : Int, AppliesOnly f.tag (collapse f (n + 1) m c (var y)) ↔ Spared f m c := by
  induction m with
  | zero => exact fun c => ⟨fun _ i less => absurd less (Nat.not_lt_zero i), fun _ => trivial⟩
  | succ m ih =>
      intro c
      rw [spared_succ, collapse]
      split
      next same =>
        refine ⟨fun only => ?_, fun spared => absurd same spared.1⟩
        obtain ⟨⟨z, isVar, tag⟩, _⟩ := only
        rw [eq_of_collapse_eq_var n m (c + 1) isVar] at tag
        exact absurd tag other
      next differs =>
        rw [appliesOnly_applyTimes, ih (c + 1)]
        exact ⟨fun spared => ⟨differs, spared⟩, fun spared => spared.2⟩

/-- In a term that is alike to a numeral, nothing is applied but the variable of the outer binder. -/
theorem appliesOnly_of_alphaEquivalent {t : Term Tagged} {f' x' : Name} (other : f' ≠ x')
    {n : Nat} (alike : AlphaEquivalent Tagged.name id (.abs f (.abs y t)) (numeral f' x' n)) :
    AppliesOnly f.tag t := by
  have inside : ∀ (n : Nat) (t : Term Tagged), Alike Tagged.name id [(y.tag, x'), (f.tag, f')] t
      ((var f').applyTimes n (var x')) → AppliesOnly f.tag t := by
    intro n
    induction n with
    | zero =>
        intro t alike
        cases alike
        trivial
    | succ n ih =>
        intro t alike
        cases alike with
        | app inFn inArg =>
            refine ⟨?_, ih _ inArg⟩
            cases inFn with
            | var corresponds =>
                rcases corresponds with _ | ⟨_, _, isInner⟩ | ⟨_, _, outer⟩
                · exact absurd isInner other
                · rcases outer with _ | ⟨_, isOuter, _⟩ | ⟨_, notOuter, _⟩
                  · exact ⟨_, rfl, isOuter⟩
                  · exact absurd rfl notOuter
  exact inside n t (alike_abs_iff.1 (alike_abs_iff.1 alike))

/-- **A collapsed tower is the numeral of the product** just if no copy captures its variable or no
copy has anything to capture. -/
theorem alphaEquivalent_collapse_iff {f' x' : Name} (other : y.tag ≠ f.tag) (other' : f' ≠ x')
    (n m : Nat) (c : Int) :
    AlphaEquivalent Tagged.name id (.abs f (.abs y (collapse f n m c (var y))))
        (numeral f' x' (m * n)) ↔ n = 0 ∨ Spared f m c := by
  constructor
  · intro alike
    cases n with
    | zero => exact .inl rfl
    | succ n =>
        have only := appliesOnly_of_alphaEquivalent other' alike
        exact .inr ((appliesOnly_collapse_iff other n m c).1 only)
  · rintro (rfl | spared)
    · rw [collapse_zero]
      exact alphaEquivalent_numeral other.symm other' 0
    · rw [collapse_of_spared n m c spared]
      exact alphaEquivalent_numeral other.symm other' (m * n)

end Collapse

end Redex
