import Redex.Proofs.Reduction.Images

/-!
# Normal order finds every normal form

Normal order hands the function part of an application to call-by-name first and comes back to both
parts when the application turns out to be no redex. On nameless images this contracts the leftmost
redex each time (`Leftmost.next?`): what call-by-name finds in a function part is what normal order
would find there, and where it finds nothing, the application is the leftmost redex or is none.

Leftmost reduction leads to every normal form there is. So a run by normal order makes the leftmost
contractions to the normal form of its term, if the term has one and the limit is not less than
their number.
-/

set_option autoImplicit false

namespace Redex

open Term

namespace Nameless

variable {φ : Type} {t u : Nameless φ}

/-! ## Normal order on nameless terms -/

theorem beta_of_contractum? {fn arg u : Nameless φ} (contracts : contractum? fn arg = some u) :
    Beta (app fn arg) u := by
  cases fn with
  | abs body =>
      cases contracts
      exact .contract body arg
  | bound index => cases contracts
  | free x => cases contracts
  | app fn arg => cases contracts
  | pi dom cod => cases contracts
  | sort u => cases contracts

/-- What a strategy makes of a term is a β-step. -/
theorem beta_of_next? (t : Nameless φ) :
    ∀ {s : Strategy} {u : Nameless φ}, t.next? s = some u → Beta t u := by
  induction t with
  | bound index => intro s u next; cases next
  | free x => intro s u next; cases next
  | app fn arg ihFn ihArg =>
      intro s u next
      simp only [next?_app, Option.or_eq_some_iff, Option.map_eq_some_iff,
        Option.ite_none_right_eq_some] at next
      obtain (((⟨fn', inFn, rfl⟩ | ⟨_, _, arg', inArg, rfl⟩) | ⟨_, contracts⟩) |
        ⟨_, _, fn', inFn, rfl⟩) | ⟨_, _, arg', inArg, rfl⟩ := next
      · exact .appFn arg (ihFn inFn)
      · exact .appArg fn (ihArg inArg)
      · exact beta_of_contractum? contracts
      · exact .appFn arg (ihFn inFn)
      · exact .appArg fn (ihArg inArg)
  | abs body ih =>
      intro s u next
      simp only [next?_abs, Option.map_eq_some_iff, Option.ite_none_right_eq_some] at next
      obtain ⟨_, body', inBody, rfl⟩ := next
      exact .abs (ih inBody)
  | pi dom cod ihDom ihCod =>
      intro s u next
      simp only [next?_pi, Option.or_eq_some_iff, Option.map_eq_some_iff,
        Option.ite_none_right_eq_some] at next
      obtain ⟨_, ⟨dom', inDom, rfl⟩ | ⟨_, cod', inCod, rfl⟩⟩ := next
      · exact .piDom cod (ihDom inDom)
      · exact .piCod dom (ihCod inCod)
  | sort u => intro s u next; cases next

theorem Normal.next? (normal : t.Normal) (s : Strategy) : t.next? s = none := by
  cases next : t.next? s with
  | none => rfl
  | some u => exact absurd (beta_of_next? t next) (normal u)

theorem next?_normalOrder_app (fn arg : Nameless φ) :
    (app fn arg).next? .normalOrder =
      ((((fn.next? .callByName).map (app · arg)).or (contractum? fn arg)).or
        ((fn.next? .normalOrder).map (app · arg))).or ((arg.next? .normalOrder).map (app fn)) := by
  simp [next?_app, Strategy.forFunction, Strategy.isEager, Strategy.isHybrid]

/-- What call-by-name contracts, normal order contracts as well. -/
theorem next?_normalOrder_of_callByName (next : t.next? .callByName = some u) :
    t.next? .normalOrder = some u := by
  cases t with
  | app fn arg =>
      have places : (app fn arg).next? .callByName =
          ((fn.next? .callByName).map (app · arg)).or (contractum? fn arg) := by
        simp [next?_app, Strategy.forFunction, Strategy.isEager, Strategy.isHybrid]
      rw [next?_normalOrder_app, ← places, next]
      rfl
  | bound index => cases next
  | free x => cases next
  | abs body => cases next
  | pi dom cod => cases next
  | sort u => cases next

/-- **Normal order contracts the leftmost redex.** -/
theorem Leftmost.next? (step : Leftmost t u) : t.next? .normalOrder = some u := by
  induction step with
  | contract body arg => rfl
  | @appFn fn fn' arg notAbs _ ih =>
      rw [next?_normalOrder_app, contractum?_eq_none_iff.2 notAbs, ih]
      cases early : fn.next? .callByName with
      | none => rfl
      | some fn₁ =>
          have same := (next?_normalOrder_of_callByName early).symm.trans ih
          cases same
          rfl
  | appArg notAbs normal _ ih =>
      rw [next?_normalOrder_app, normal.next?, contractum?_eq_none_iff.2 notAbs, normal.next?, ih]
      rfl
  | abs _ ih =>
      rw [next?_abs, ih]
      rfl
  | piDom cod _ ih =>
      rw [next?_pi, ih]
      rfl
  | piCod normal _ ih =>
      rw [next?_pi, normal.next?, ih]
      rfl

/-- Normal order makes the leftmost contractions to a normal term if the limit allows them. -/
theorem LeftmostSteps.reduce {n : Nat} (steps : LeftmostSteps n t u) (normal : u.Normal) :
    ∀ {limit : Nat}, n ≤ limit → t.reduce .normalOrder limit = (u, n) := by
  induction steps with
  | none t =>
      intro limit _
      exact reduce_of_stop (normal.next? .normalOrder) limit
  | next step _ ih =>
      intro limit atMost
      cases limit with
      | zero => exact absurd atMost (Nat.not_succ_le_zero _)
      | succ limit =>
          rw [reduce_of_next? step.next?, ih normal (Nat.le_of_succ_le_succ atMost)]

end Nameless

/-! ## Runs -/

/-- **Normal order finds every normal form.** If the nameless image of a well-tagged term β-reduces
to a normal term in any way, some number of leftmost contractions leads there, and a run by normal
order whose limit is at least this number makes just these contractions and ends with a term whose
image is the normal term. -/
theorem run_normalOrder_finds_normalForm {φ : Type} (reading : Tagged → φ) (t : Term Tagged)
    (normalForm : Nameless φ) (tagged : t.WellTagged)
    (reduces : Nameless.BetaReduces (t.nameless reading) normalForm)
    (normal : normalForm.Normal) :
    ∃ count, Nameless.LeftmostSteps count (t.nameless reading) normalForm ∧
      ∀ limit, count ≤ limit → TagsSuffice .normalOrder limit t →
        (run .normalOrder limit t).steps = count ∧
          (run .normalOrder limit t).term.nameless reading = normalForm := by
  obtain ⟨count, steps⟩ := (Nameless.leftmostReduces_of_normal reduces normal).exists_steps
  refine ⟨count, steps, fun limit atMost suffice => ?_⟩
  have image := reduce_nameless reading tagged suffice
  rw [steps.reduce normal atMost] at image
  obtain ⟨result, asMany⟩ := Prod.mk.inj image
  exact ⟨asMany.symm, result.symm⟩

/-- `(λk.λz.(λw.w) z) ((λx.x x) (λy.y y))`: the argument has no normal form, and the term has
one. -/
def discardedLoop : Term Tagged :=
  .app
    (.abs ⟨"k", 1⟩ (.abs ⟨"z", 2⟩ (.app (.abs ⟨"w", 3⟩ (.var ⟨"w", 3⟩)) (.var ⟨"z", 2⟩))))
    (.app (.abs ⟨"x", 4⟩ (.app (.var ⟨"x", 4⟩) (.var ⟨"x", 4⟩)))
      (.abs ⟨"y", 5⟩ (.app (.var ⟨"y", 5⟩) (.var ⟨"y", 5⟩))))

/-- Applicative order stays in the argument, and normal order discards it: two contractions lead to
the normal form under every limit that allows them. -/
theorem run_normalOrder_finds_normalForm_discardedLoop :
    (discardedLoop.WellTagged ∧
        Nameless.BetaReduces (discardedLoop.nameless Tagged.tag) (.abs (.bound 0)) ∧
        (.abs (.bound 0) : Nameless Tag).Normal) ∧
      (run .applicativeOrder 10 discardedLoop).steps = 10 ∧
      ∀ limit, 2 ≤ limit → TagsSuffice .normalOrder limit discardedLoop ∧
        (run .normalOrder limit discardedLoop).steps = 2 ∧
        (run .normalOrder limit discardedLoop).term.nameless Tagged.tag = .abs (.bound 0) := by
  have tagged : discardedLoop.WellTagged := by decide
  have reduces : Nameless.BetaReduces (discardedLoop.nameless Tagged.tag) (.abs (.bound 0)) :=
    .head (.contract _ _) (.head (.abs (.contract _ _)) .refl)
  have normal : (.abs (.bound 0) : Nameless Tag).Normal := by
    rintro u (_ | _ | _ | step)
    cases step
  have count : ∀ more, (evaluate .normalOrder ⟨.above [discardedLoop], more + 2⟩
      discardedLoop).after.gen.count = 5 := by
    intro more
    cbv
  have suffice : ∀ limit, 2 ≤ limit → TagsSuffice .normalOrder limit discardedLoop := by
    intro limit atLeast
    obtain ⟨more, rfl⟩ := Nat.exists_eq_add_of_le' atLeast
    rw [TagsSuffice, count]
    decide
  refine ⟨⟨tagged, reduces, normal⟩, by cbv, ?_⟩
  obtain ⟨least, _, finds⟩ :=
    run_normalOrder_finds_normalForm Tagged.tag discardedLoop _ tagged reduces normal
  have left : (evaluate .normalOrder ⟨.above [discardedLoop], least + 2⟩ discardedLoop).after.left =
      least := by cbv
  have steps : (run .normalOrder (least + 2) discardedLoop).steps = 2 := by
    rw [run, left]
    exact Nat.add_sub_cancel_left least 2
  have enough := finds (least + 2) (Nat.le_add_right _ _) (suffice _ (Nat.le_add_left _ _))
  obtain rfl : least = 2 := enough.1.symm.trans steps
  exact fun limit atLeast => ⟨suffice limit atLeast, finds limit atLeast (suffice limit atLeast)⟩

end Redex
