import Redex.Proofs.Nameless.Standardization
import Redex.Proofs.Reduction.Agreement
import Redex.Proofs.Reduction.Counterpart

/-!
# Runs on nameless images

Which redex a strategy contracts next depends on the shape of a term only, so a strategy can be said
to act on nameless terms: `next?` is what its next contraction makes of a term, and `reduce` makes
one such contraction after another as long as the limit allows it. Neither knows of tags, of names
or of the state in which an evaluation waits.

The nameless image of a run is what `reduce` makes of the image of its term, with as many
contractions (`reduce_nameless`). So a run under any limit, cut off or not, depends on tags and bound
names no more than the image does.
-/

set_option autoImplicit false

namespace Redex

open Term

/-! ## Strategies on nameless terms -/

namespace Nameless

variable {φ : Type}

/-- What an application contracts to, if it is a redex. -/
def contractum? : Nameless φ → Nameless φ → Option (Nameless φ)
  | abs body, arg => some (body.contract arg)
  | _, _ => none

theorem contractum?_eq_none_iff {fn arg : Nameless φ} : contractum? fn arg = none ↔ ¬ fn.IsAbs := by
  cases fn with
  | abs body => exact iff_of_false nofun fun notAbs => notAbs ⟨body, rfl⟩
  | bound index => exact iff_of_true rfl nofun
  | free x => exact iff_of_true rfl nofun
  | app fn arg => exact iff_of_true rfl nofun
  | pi dom cod => exact iff_of_true rfl nofun
  | sort u => exact iff_of_true rfl nofun

/-- The term after the contraction that a strategy makes next, if it makes one. At an application
the places are the function part, the argument, the application itself, and the two parts once
more. -/
def next? : Strategy → Nameless φ → Option (Nameless φ)
  | _, bound _ => none
  | _, free _ => none
  | s, app fn arg =>
    (next? s.forFunction fn).map (app · arg)
      |>.or (if s.isEager then (next? s arg).map (app fn) else none)
      |>.or (contractum? fn arg)
      |>.or (if s.isHybrid then (next? s fn).map (app · arg) else none)
      |>.or (if s.isHybrid then (next? s arg).map (app fn) else none)
  | s, abs body => if s.isStrong then (next? s body).map abs else none
  | s, pi dom cod =>
    if s.isStrong then ((next? s dom).map (pi · cod)).or ((next? s cod).map (pi dom)) else none
  | _, sort _ => none

theorem next?_app (s : Strategy) (fn arg : Nameless φ) : next? s (app fn arg) =
    (((((next? s.forFunction fn).map (app · arg)).or
      (if s.isEager then (next? s arg).map (app fn) else none)).or (contractum? fn arg)).or
        (if s.isHybrid then (next? s fn).map (app · arg) else none)).or
          (if s.isHybrid then (next? s arg).map (app fn) else none) := rfl

theorem next?_abs (s : Strategy) (body : Nameless φ) :
    next? s (abs body) = if s.isStrong then (next? s body).map abs else none := rfl

theorem next?_pi (s : Strategy) (dom cod : Nameless φ) : next? s (pi dom cod) =
    if s.isStrong then ((next? s dom).map (pi · cod)).or ((next? s cod).map (pi dom)) else none :=
  rfl

/-- What at most `limit` contractions make of a term, and how many there are. -/
def reduce (s : Strategy) : Nat → Nameless φ → Nameless φ × Nat
  | 0, t => (t, 0)
  | limit + 1, t =>
    match next? s t with
    | some u => ((reduce s limit u).1, (reduce s limit u).2 + 1)
    | none => (t, 0)

theorem reduce_of_next? {s : Strategy} {t u : Nameless φ} (next : next? s t = some u)
    (limit : Nat) :
    reduce s (limit + 1) t = ((reduce s limit u).1, (reduce s limit u).2 + 1) := by
  rw [reduce, next]

theorem reduce_of_stop {s : Strategy} {t : Nameless φ} (stop : next? s t = none) (limit : Nat) :
    reduce s limit t = (t, 0) := by
  cases limit with
  | zero => rfl
  | succ limit => rw [reduce, stop]

end Nameless

/-! ## Images of contractions -/

section Image

variable {φ : Type} {reading : Tagged → φ}

theorem isAbs_namelessIn_iff {t : Term Tagged} {scope : List Tag} :
    (t.namelessIn reading scope).IsAbs ↔ t.IsAbs := by
  constructor
  · rintro ⟨body, image⟩
    exact isAbs_of_namelessIn_eq image
  · rintro ⟨x, body, rfl⟩
    exact ⟨_, rfl⟩

/-- **A strategy makes no contraction exactly where its normal form holds.** -/
theorem next?_namelessIn_eq_none_iff (t : Term Tagged) :
    ∀ {s : Strategy} {scope : List Tag},
      (t.namelessIn reading scope).next? s = none ↔ s.normalForm.Holds t := by
  induction t with
  | var x =>
      intro s scope
      refine iff_of_true ?_ NormalForm.holds_var
      rcases namelessIn_var_cases x scope with ⟨index, image⟩ | ⟨y, image⟩
      · rw [image]
        rfl
      · rw [image]
        rfl
  | app fn arg ihFn ihArg =>
      intro s scope
      simp only [namelessIn, Nameless.next?_app, Option.or_eq_none_iff, Option.map_eq_none_iff,
        ite_eq_right_iff, Nameless.contractum?_eq_none_iff, isAbs_namelessIn_iff, ihFn, ihArg]
      rw [NormalForm.holds_app, s.entersArguments_normalForm, Bool.or_eq_true]
      constructor
      · rintro ⟨⟨⟨⟨first, eager⟩, notAbs⟩, again⟩, again'⟩
        refine ⟨notAbs, ?_, fun either => either.elim eager again'⟩
        cases hybrid : s.isHybrid with
        | true => exact again hybrid
        | false =>
            -- a strategy that is not hybrid is its own strategy for the function part
            have itself : s.forFunction = s := Decidable.of_not_not (of_decide_eq_false hybrid)
            rwa [itself] at first
      · rintro ⟨notAbs, inFn, inArg⟩
        exact ⟨⟨⟨⟨Strategy.holds_forFunction inFn, fun eager => inArg (.inl eager)⟩, notAbs⟩,
          fun _ => inFn⟩, fun hybrid => inArg (.inr hybrid)⟩
  | abs x body ih =>
      intro s scope
      simp only [namelessIn, Nameless.next?_abs, ite_eq_right_iff, Option.map_eq_none_iff, ih]
      rw [NormalForm.holds_abs, s.entersBinders_normalForm]
  | pi x dom cod ihDom ihCod =>
      intro s scope
      simp only [namelessIn, Nameless.next?_pi, ite_eq_right_iff, Option.or_eq_none_iff,
        Option.map_eq_none_iff, ihDom, ihCod]
      rw [NormalForm.holds_pi, s.entersBinders_normalForm]
  | sort u =>
      intro s scope
      exact iff_of_true rfl NormalForm.holds_sort

/-- **A contraction of a term is the next contraction of its image**, whatever binders lie
around. -/
theorem Contracts.next? {s : Strategy} {gen gen₁ : Generator} {t t₁ : Term Tagged}
    (contracts : Contracts s gen t gen₁ t₁) :
    gen.Leads gen₁ → t.TagsUpTo gen.count → t.WellTagged → ∀ scope,
      (t.namelessIn reading scope).next? s = some (t₁.namelessIn reading scope) := by
  -- nothing is found where the strategy is at its normal form, or does not look
  have stops : ∀ {s : Strategy} {t : Term Tagged} (scope : List Tag), s.normalForm.Holds t →
      (t.namelessIn reading scope).next? s = none :=
    fun scope holds => (next?_namelessIn_eq_none_iff _).2 holds
  have stopsIf : ∀ {active : Bool} {s : Strategy} {t : Term Tagged}
      (wrap : Nameless φ → Nameless φ) (scope : List Tag),
      (active = true → s.normalForm.Holds t) →
      (if active = true then ((t.namelessIn reading scope).next? s).map wrap else none) = none :=
    fun wrap scope holds => ite_eq_right_iff.2 fun on =>
      Option.map_eq_none_iff.2 (stops scope (holds on))
  have noRedex : ∀ {fn : Term Tagged} (scope : List Tag) (arg : Nameless φ), ¬ fn.IsAbs →
      Nameless.contractum? (fn.namelessIn reading scope) arg = none :=
    fun scope arg notAbs => Nameless.contractum?_eq_none_iff.2 fun isAbs =>
      notAbs (isAbs_namelessIn_iff.1 isAbs)
  induction contracts with
  | @redex s gen x body arg inFn inArg =>
      intro leads upTo tagged scope
      rw [namelessIn_instantiate reading leads upTo.appArg tagged scope, namelessIn,
        Nameless.next?_app, stops scope inFn, stopsIf _ scope inArg]
      rfl
  | appFn _ ih =>
      intro leads upTo tagged scope
      rw [namelessIn, Nameless.next?_app, ih leads upTo.appFn tagged.appFn]
      rfl
  | appArg inFn eager _ ih =>
      intro leads upTo tagged scope
      rw [namelessIn, Nameless.next?_app, stops scope inFn, if_pos eager,
        ih leads upTo.appArg tagged.appArg]
      rfl
  | fnAgain hybrid inFn notAbs inArg _ ih =>
      intro leads upTo tagged scope
      rw [namelessIn, Nameless.next?_app, stops scope inFn, stopsIf _ scope inArg,
        noRedex scope _ notAbs, if_pos hybrid, ih leads upTo.appFn tagged.appFn]
      rfl
  | @argAgain s gen gen' fn arg arg' hybrid lazy inFn notAbs _ ih =>
      intro leads upTo tagged scope
      have notEager : ¬ s.isEager = true := Bool.eq_false_iff.1 lazy
      rw [namelessIn, Nameless.next?_app, stops scope (Strategy.holds_forFunction inFn),
        if_neg notEager, noRedex scope _ notAbs, if_pos hybrid, stops scope inFn, if_pos hybrid,
        ih leads upTo.appArg tagged.appArg]
      rfl
  | abs strong _ ih =>
      intro leads upTo tagged scope
      rw [namelessIn, Nameless.next?_abs, if_pos strong, ih leads upTo.absBody tagged.absBody]
      rfl
  | piDom strong _ ih =>
      intro leads upTo tagged scope
      rw [namelessIn, Nameless.next?_pi, if_pos strong, ih leads upTo.piDom tagged.piDom]
      rfl
  | piCod strong inDom _ ih =>
      intro leads upTo tagged scope
      rw [namelessIn, Nameless.next?_pi, if_pos strong, stops scope inDom,
        ih leads upTo.piCod tagged.piCod]
      rfl

theorem Contractions.reduce_nameless {s : Strategy} {n : Nat} {gen gen' : Generator}
    {t t' : Term Tagged} (contractions : Contractions s n gen t gen' t') :
    ∀ {limit : Nat}, gen.Leads gen' → t.TagsUpTo gen.count → t.WellTagged → n ≤ limit →
      (n < limit → s.normalForm.Holds t') →
        (t.nameless reading).reduce s limit = (t'.nameless reading, n) := by
  induction contractions with
  | none gen t =>
      intro limit _ _ _ _ ends
      cases limit with
      | zero => rfl
      | succ limit =>
          have stop : (t.nameless reading).next? s = .none :=
            (next?_namelessIn_eq_none_iff t).2 (ends (Nat.succ_pos limit))
          exact Nameless.reduce_of_stop stop _
  | @next n gen gen₁ gen' t t₁ t' step rest ih =>
      intro limit leads upTo tagged atMost ends
      obtain ⟨toNext, onwards⟩ := leads.split step.count_le rest.count_le
      have one := step.simulates id 0 toNext upTo tagged
      have next : (t.nameless reading).next? s = some (t₁.nameless reading) :=
        step.next? toNext upTo tagged []
      cases limit with
      | zero => exact absurd atMost (Nat.not_succ_le_zero _)
      | succ limit =>
          have whole := ih onwards (one.tagsUpTo upTo) (one.wellTagged upTo tagged)
            (Nat.le_of_succ_le_succ atMost) fun fewer => ends (Nat.succ_lt_succ fewer)
          rw [Nameless.reduce_of_next? next, whole]

/-- **The image of a run is what its strategy makes of the image of the term**, with as many
contractions. -/
theorem reduce_nameless (reading : Tagged → φ) {s : Strategy} {limit : Nat} {t : Term Tagged}
    (tagged : t.WellTagged) (suffice : TagsSuffice s limit t) :
    (t.nameless reading).reduce s limit =
      ((run s limit t).term.nameless reading, (run s limit t).steps) :=
  (run_contractions s limit t).reduce_nameless suffice.leads (tagsUpTo_above t) tagged
    (Nat.sub_le _ _) run_holds

end Image

end Redex
