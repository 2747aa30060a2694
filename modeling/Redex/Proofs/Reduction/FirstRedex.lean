import Redex.Proofs.Reduction.Addresses
import Redex.Proofs.Reduction.Contraction
import Redex.Proofs.Reduction.Instantiation
import Redex.Proofs.Tagging

/-!
# The redex that is contracted

A step is an evaluation with a budget of one contraction. Here it is told by the address of the redex
it contracts. The strategies that use themselves on the function part contract the first redex in
the order that visits a node after its parts, among those at the addresses that count for their
normal form. Normal order contracts the first redex in the order that visits a node before its
parts: where call-by-name has something to do in the function part, this redex stands on the spine,
and otherwise normal order comes back to the function part and then to the argument.

What stands in place of the redex is the body with copies of the argument, which is said by the two
relations `CopyOf` and `InstanceOf`, apart from the functions that make copies and put them in. The
tags of the copies' binders are the ones after the greatest tag of the whole term. They are new as
long as they are words of their own; after the largest word comes the least one, and that may be
the tag of another variable (`step?_reuses_tag`).
-/

set_option autoImplicit false

namespace Redex

/-! ## The contractum -/

/-- `CopyOf renewed t new copy`: the copy is the term but for the tags of its binders, which are
listed in `new`, and the occurrences that follow them. Outside the term the tags lead on as in
`renewed`. -/
inductive CopyOf : List (Tag × Tag) → Term Tagged → List Tag → Term Tagged → Prop where
  | var (renewed : List (Tag × Tag)) (y : Tagged) :
      CopyOf renewed (.var y) [] (.var (Term.renew renewed y))
  | app {renewed : List (Tag × Tag)} {fn fn' arg arg' : Term Tagged} {new new' : List Tag} :
      CopyOf renewed fn new fn' → CopyOf renewed arg new' arg' →
        CopyOf renewed (.app fn arg) (new ++ new') (.app fn' arg')
  | abs {renewed : List (Tag × Tag)} {x : Tagged} {tag : Tag} {body body' : Term Tagged}
      {new : List Tag} :
      CopyOf ((x.tag, tag) :: renewed) body new body' →
        CopyOf renewed (.abs x body) (tag :: new) (.abs ⟨x.name, tag⟩ body')
  | pi {renewed : List (Tag × Tag)} {x : Tagged} {tag : Tag} {dom dom' cod cod' : Term Tagged}
      {new new' : List Tag} :
      CopyOf renewed dom new dom' → CopyOf ((x.tag, tag) :: renewed) cod new' cod' →
        CopyOf renewed (.pi x dom cod) (new ++ tag :: new') (.pi ⟨x.name, tag⟩ dom' cod')
  | sort (renewed : List (Tag × Tag)) (u : Universe) : CopyOf renewed (.sort u) [] (.sort u)

/-- `InstanceOf x value body new t`: each occurrence of the tag `x` in the body that is not under a
further binder of that tag is replaced by a copy of the value. The tags of the copies' binders are
listed in `new`. -/
inductive InstanceOf (x : Tag) (value : Term Tagged) :
    Term Tagged → List Tag → Term Tagged → Prop where
  | here {y : Tagged} {new : List Tag} {copy : Term Tagged} :
      y.tag = x → CopyOf [] value new copy → InstanceOf x value (.var y) new copy
  | var {y : Tagged} : y.tag ≠ x → InstanceOf x value (.var y) [] (.var y)
  | app {fn fn' arg arg' : Term Tagged} {new new' : List Tag} :
      InstanceOf x value fn new fn' → InstanceOf x value arg new' arg' →
        InstanceOf x value (.app fn arg) (new ++ new') (.app fn' arg')
  | absSame {y : Tagged} {body : Term Tagged} :
      y.tag = x → InstanceOf x value (.abs y body) [] (.abs y body)
  | abs {y : Tagged} {body body' : Term Tagged} {new : List Tag} :
      y.tag ≠ x → InstanceOf x value body new body' →
        InstanceOf x value (.abs y body) new (.abs y body')
  | piSame {y : Tagged} {dom dom' cod : Term Tagged} {new : List Tag} :
      y.tag = x → InstanceOf x value dom new dom' →
        InstanceOf x value (.pi y dom cod) new (.pi y dom' cod)
  | pi {y : Tagged} {dom dom' cod cod' : Term Tagged} {new new' : List Tag} :
      y.tag ≠ x → InstanceOf x value dom new dom' → InstanceOf x value cod new' cod' →
        InstanceOf x value (.pi y dom cod) (new ++ new') (.pi y dom' cod')
  | sort (u : Universe) : InstanceOf x value (.sort u) [] (.sort u)

theorem Generator.minted_succ (gen : Generator) (n : Nat) :
    gen.minted (n + 1) = gen.next.1 :: gen.next.2.minted n := by
  rw [Nat.add_comm, minted_add, minted_one]
  rfl

namespace Term

theorem retag_skip (t : Term Tagged) (renewed : List (Tag × Tag)) (gen : Generator) :
    (t.retag renewed gen).2 = gen.skip t.binders.length :=
  congrArg Generator.mk (t.count_retag renewed gen)

/-- Retagging makes a copy with the next tags. -/
theorem copyOf_retag (t : Term Tagged) :
    ∀ (renewed : List (Tag × Tag)) (gen : Generator),
      CopyOf renewed t (gen.minted t.binders.length) (t.retag renewed gen).1 := by
  induction t with
  | var y =>
      intro renewed gen
      rw [retag_var]
      exact .var renewed y
  | app fn arg ihFn ihArg =>
      intro renewed gen
      rw [retag_app, retag_skip, binders, List.length_append, Generator.minted_add]
      exact .app (ihFn renewed gen) (ihArg renewed _)
  | abs x body ih =>
      intro renewed gen
      rw [retag_abs, binders, List.length_cons, Generator.minted_succ]
      exact .abs (ih _ _)
  | pi x dom cod ihDom ihCod =>
      intro renewed gen
      rw [retag_pi, retag_skip, binders, List.length_cons, List.length_append, Nat.add_assoc,
        Generator.minted_add, Generator.minted_succ]
      exact .pi (ihDom renewed gen) (ihCod _ _)
  | sort u =>
      intro renewed gen
      exact .sort renewed u

/-- Instantiating makes an instance with the next tags. -/
theorem instanceOf_instantiate (x : Tag) (value body : Term Tagged) :
    ∀ gen : Generator, ∃ n, (instantiate x value body gen).2 = gen.skip n ∧
      InstanceOf x value body (gen.minted n) (instantiate x value body gen).1 := by
  induction body with
  | var y =>
      intro gen
      by_cases same : y.tag = x
      · rw [instantiate_var_self x value gen same]
        exact ⟨_, value.retag_skip [] gen, .here same (value.copyOf_retag [] gen)⟩
      · rw [instantiate_var_of_ne x value gen same]
        exact ⟨0, gen.skip_zero.symm, .var same⟩
  | app fn arg ihFn ihArg =>
      intro gen
      obtain ⟨n, first, inFn⟩ := ihFn gen
      obtain ⟨m, second, inArg⟩ := ihArg (gen.skip n)
      refine ⟨n + m, ?_, ?_⟩
      · rw [instantiate_app, first, second, Generator.skip_skip]
      · rw [instantiate_app, first, Generator.minted_add]
        exact .app inFn inArg
  | abs y body ih =>
      intro gen
      by_cases same : y.tag = x
      · rw [instantiate_abs_self x value gen same]
        exact ⟨0, gen.skip_zero.symm, .absSame same⟩
      · obtain ⟨n, after, inBody⟩ := ih gen
        rw [instantiate_abs_of_ne x value gen same]
        exact ⟨n, after, .abs same inBody⟩
  | pi y dom cod ihDom ihCod =>
      intro gen
      obtain ⟨n, first, inDom⟩ := ihDom gen
      by_cases same : y.tag = x
      · rw [instantiate_pi_self x value gen same]
        exact ⟨n, first, .piSame same inDom⟩
      · obtain ⟨m, second, inCod⟩ := ihCod (gen.skip n)
        rw [instantiate_pi_of_ne x value gen same, first, second]
        refine ⟨n + m, Generator.skip_skip gen n m, ?_⟩
        rw [Generator.minted_add]
        exact .pi same inDom inCod
  | sort u =>
      intro gen
      exact ⟨0, gen.skip_zero.symm, .sort u⟩

end Term

open Term

/-- Tags that are words of their own after those of a term are new for it. -/
theorem fresh_minted_above {t : Term Tagged} {n : Nat}
    (word : (Generator.above [t]).count + n ≤ Tag.greatest) :
    ((Generator.above [t]).minted n).Nodup ∧
      ∀ tag ∈ (Generator.above [t]).minted n, ∀ y ∈ t.identifiers, y.tag ≠ tag := by
  have least : Tag.least ≤ (Generator.above [t]).count := Int64.minValue_le_toInt _
  have leads : (Generator.above [t]).Leads ((Generator.above [t]).skip n) :=
    ⟨least, Int.le_add_of_nonneg_right (Int.natCast_nonneg n), word⟩
  refine ⟨leads.nodup_minted, fun tag member y inTerm same => ?_⟩
  have new := (leads.mem_minted member).1
  have old : y.tag.toInt ≤ (Generator.above [t]).count := by
    apply Generator.toInt_le_greatest
    exact List.mem_flatMap.2 ⟨t, List.mem_singleton.2 rfl, List.mem_map.2 ⟨y, inTerm, rfl⟩⟩
  rw [same] at old
  omega

/-! ## The address of a contraction -/

/-- The strategy contracts the redex at the address. -/
def ContractsAt (s : Strategy) (t : Term Tagged) (p : Address) : Prop :=
  ∃ x body arg, t.at? p = some (.app (.abs x body) arg) ∧
    ∀ gen, Contracts s gen t (instantiate x.tag arg body gen).2
      (t.put p (instantiate x.tag arg body gen).1)

namespace ContractsAt

variable {s s' : Strategy} {whole part : Term Tagged} {p q : Address}

/-- A contraction inside a part is one of the whole. -/
theorem lift (inside : ContractsAt s' part p) (found : whole.at? q = part.at? p)
    (step : ∀ {gen gen' : Generator} {new : Term Tagged},
      Contracts s' gen part gen' (part.put p new) → Contracts s gen whole gen' (whole.put q new)) :
    ContractsAt s whole q := by
  obtain ⟨x, body, arg, isRedex, contracts⟩ := inside
  exact ⟨x, body, arg, found.trans isRedex, fun gen => step (contracts gen)⟩

theorem redex {x : Tagged} {body arg : Term Tagged}
    (fnHolds : s.forFunction.normalForm.Holds (.abs x body))
    (argHolds : s.isEager = true → s.normalForm.Holds arg) :
    ContractsAt s (.app (.abs x body) arg) [] :=
  ⟨x, body, arg, rfl, fun gen => .redex gen fnHolds argHolds⟩

end ContractsAt

/-- **A strategy that uses itself on the function part contracts the first redex behind its
parts**, among those at the addresses that count for its normal form. -/
theorem contractsAt_firstRedex_after {s : Strategy} (plain : s.isHybrid = false)
    (t : Term Tagged) :
    ∀ {p : Address}, t.firstRedex .after s.normalForm.enters = some p → ContractsAt s t p := by
  have itself : s.forFunction = s := Decidable.of_not_not (of_decide_eq_false plain)
  have strong : ∀ {turn : Turn}, turn = .body ∨ turn = .dom ∨ turn = .cod →
      s.normalForm.enters turn = true → s.isStrong = true := by
    rintro turn (rfl | rfl | rfl) entered
    all_goals rwa [← s.entersBinders_normalForm]
  induction t with
  | var x =>
      intro p found
      rw [firstRedex_var] at found
      cases found
  | app fn arg ihFn ihArg =>
      intro p found
      have inFn : ∀ {q : Address}, fn.firstRedex .after s.normalForm.enters = some q →
          ContractsAt s (.app fn arg) (.fn :: q) := by
        intro q first
        have inside : ContractsAt s.forFunction fn q := by
          rw [itself]
          exact ihFn first
        exact inside.lift rfl fun step => .appFn step
      have inArg : ∀ {q : Address}, s.forFunction.normalForm.Holds fn →
          s.normalForm.enters .arg = true → arg.firstRedex .after s.normalForm.enters = some q →
          ContractsAt s (.app fn arg) (.arg :: q) := by
        intro q fnHolds entered first
        have eager : s.isEager = true := by
          have either := s.entersArguments_normalForm
          rwa [plain, Bool.or_false, show s.normalForm.entersArguments = true from entered,
            eq_comm] at either
        exact (ihArg first).lift rfl fun step => .appArg fnHolds eager step
      have fnHolds : (s.normalForm.enters .fn = true →
          fn.firstRedex .after s.normalForm.enters = none) → s.forFunction.normalForm.Holds fn :=
        fun none => Strategy.holds_forFunction ((firstRedex_eq_none_iff fn).1 (none rfl))
      by_cases isAbs : fn.IsAbs
      · obtain ⟨x, body, rfl⟩ := isAbs
        rw [firstRedex_redex_after, Option.or_eq_some_iff, Option.or_eq_some_iff,
          Option.or_eq_none_iff, firstWithin_eq_some_iff, firstWithin_eq_some_iff,
          firstWithin_eq_none_iff, firstWithin_eq_none_iff] at found
        rcases found with (⟨_, q, first, rfl⟩ | ⟨none, entered, q, first, rfl⟩) | ⟨⟨none, none'⟩, here⟩
        · exact inFn first
        · exact inArg (fnHolds none) entered first
        · cases here
          refine .redex (fnHolds none) fun eager => (firstRedex_eq_none_iff arg).1 (none' ?_)
          have entered := s.entersArguments_normalForm
          rwa [eager, Bool.true_or] at entered
      · rw [firstRedex_app_of_not_isAbs isAbs, Option.or_eq_some_iff, firstWithin_eq_some_iff,
          firstWithin_eq_some_iff, firstWithin_eq_none_iff] at found
        rcases found with ⟨_, q, first, rfl⟩ | ⟨none, entered, q, first, rfl⟩
        · exact inFn first
        · exact inArg (fnHolds none) entered first
  | abs x body ih =>
      intro p found
      rw [firstRedex_abs, firstWithin_eq_some_iff] at found
      obtain ⟨entered, q, first, rfl⟩ := found
      exact (ih first).lift rfl fun step => .abs (strong (.inl rfl) entered) step
  | pi x dom cod ihDom ihCod =>
      intro p found
      rw [firstRedex_pi, Option.or_eq_some_iff, firstWithin_eq_some_iff, firstWithin_eq_some_iff,
        firstWithin_eq_none_iff] at found
      rcases found with ⟨entered, q, first, rfl⟩ | ⟨none, entered, q, first, rfl⟩
      · exact (ihDom first).lift rfl fun step => .piDom (strong (.inr (.inl rfl)) entered) step
      · have domHolds := (firstRedex_eq_none_iff dom).1 (none entered)
        exact (ihCod first).lift rfl fun step =>
          .piCod (strong (.inr (.inr rfl)) entered) domHolds step
  | sort u =>
      intro p found
      rw [firstRedex_sort] at found
      cases found

/-- Where call-by-name has something to do, it contracts the first redex of all before its parts. -/
theorem contractsAt_firstRedex_before_of_not_holds (t : Term Tagged) :
    ∀ {p : Address}, t.firstRedex .before NormalForm.full.enters = some p →
      ¬ NormalForm.weakHead.Holds t → ContractsAt .callByName t p := by
  induction t with
  | var x => exact fun _ fails => absurd NormalForm.holds_var fails
  | app fn arg ihFn _ =>
      intro p found fails
      by_cases isAbs : fn.IsAbs
      · obtain ⟨x, body, rfl⟩ := isAbs
        rw [firstRedex_redex_before] at found
        cases found
        refine .redex (NormalForm.holds_abs.2 fun enters => ?_) fun eager => ?_
        · cases enters
        · cases eager
      · have fnFails : ¬ NormalForm.weakHead.Holds fn := fun holds =>
          fails (NormalForm.holds_app.2 ⟨isAbs, holds, fun enters => by cases enters⟩)
        -- so the function part has a redex, and its first one is the first of the application
        have some : fn.firstRedex .before NormalForm.full.enters ≠ none := fun none =>
          fnFails (((firstRedex_eq_none_iff fn).1 none).weaken (by decide) (by decide))
        rw [firstRedex_app_of_not_isAbs isAbs, Option.or_eq_some_iff, firstWithin_eq_some_iff,
          firstWithin_eq_none_iff] at found
        rcases found with ⟨_, q, first, rfl⟩ | ⟨none, _⟩
        · exact (ihFn first fnFails).lift rfl fun step => .appFn step
        · exact absurd (none rfl) some
  | abs x body _ =>
      refine fun _ fails => absurd (NormalForm.holds_abs.2 fun enters => ?_) fails
      cases enters
  | pi x dom cod _ _ =>
      refine fun _ fails => absurd (NormalForm.holds_pi.2 fun enters => ?_) fails
      cases enters
  | sort u => exact fun _ fails => absurd NormalForm.holds_sort fails

/-- **Normal order contracts the first redex before its parts.** -/
theorem contractsAt_firstRedex_before (t : Term Tagged) :
    ∀ {p : Address}, t.firstRedex .before NormalForm.full.enters = some p →
      ContractsAt .normalOrder t p := by
  induction t with
  | var x =>
      intro p found
      rw [firstRedex_var] at found
      cases found
  | app fn arg ihFn ihArg =>
      intro p found
      by_cases isAbs : fn.IsAbs
      · obtain ⟨x, body, rfl⟩ := isAbs
        rw [firstRedex_redex_before] at found
        cases found
        refine .redex (NormalForm.holds_abs.2 fun enters => ?_) fun eager => ?_
        · cases enters
        · cases eager
      · rw [firstRedex_app_of_not_isAbs isAbs, Option.or_eq_some_iff, firstWithin_eq_some_iff,
          firstWithin_eq_some_iff, firstWithin_eq_none_iff] at found
        rcases found with ⟨_, q, first, rfl⟩ | ⟨none, _, q, first, rfl⟩
        · by_cases holds : NormalForm.weakHead.Holds fn
          · refine (ihFn first).lift rfl fun step => .fnAgain rfl holds isAbs (fun eager => ?_) step
            cases eager
          · have inside := contractsAt_firstRedex_before_of_not_holds fn first holds
            exact inside.lift rfl fun step => .appFn step
        · have holds := (firstRedex_eq_none_iff fn).1 (none rfl)
          exact (ihArg first).lift rfl fun step => .argAgain rfl rfl holds isAbs step
  | abs x body ih =>
      intro p found
      rw [firstRedex_abs, firstWithin_eq_some_iff] at found
      obtain ⟨_, q, first, rfl⟩ := found
      exact (ih first).lift rfl fun step => .abs rfl step
  | pi x dom cod ihDom ihCod =>
      intro p found
      rw [firstRedex_pi, Option.or_eq_some_iff, firstWithin_eq_some_iff, firstWithin_eq_some_iff,
        firstWithin_eq_none_iff] at found
      rcases found with ⟨_, q, first, rfl⟩ | ⟨none, _, q, first, rfl⟩
      · exact (ihDom first).lift rfl fun step => .piDom rfl step
      · have holds := (firstRedex_eq_none_iff dom).1 (none rfl)
        exact (ihCod first).lift rfl fun step => .piCod rfl holds step
  | sort u =>
      intro p found
      rw [firstRedex_sort] at found
      cases found

/-- Only one redex is reached through function parts alone. -/
theorem eq_of_redexAt_spine {p : Address} :
    ∀ {q : Address} {t : Term Tagged}, (∀ turn ∈ p, turn = .fn) → (∀ turn ∈ q, turn = .fn) →
      t.RedexAt p → t.RedexAt q → p = q := by
  -- the function part of a redex is an abstraction, and no function part leads on from there
  have below : ∀ {q : Address} {t : Term Tagged}, (∀ turn ∈ q, turn = .fn) → t.IsRedex →
      t.RedexAt q → q = [] := by
    rintro q t spine ⟨x, body, arg, rfl⟩ redex
    match q, spine, redex with
    | [], _, _ => rfl
    | [.fn], _, ⟨part, found, isRedex⟩ =>
        cases found
        obtain ⟨y, body', arg', equal⟩ := isRedex
        cases equal
    | .fn :: turn :: q, spine, ⟨part, found, _⟩ =>
        obtain rfl := spine turn (List.mem_cons_of_mem _ List.mem_cons_self)
        cases found
    | .arg :: q, spine, _ => cases spine .arg List.mem_cons_self
  induction p with
  | nil =>
      intro q t _ spine redex redex'
      exact (below spine (redexAt_nil.1 redex) redex').symm
  | cons turn p ih =>
      intro q t spine spine' redex redex'
      cases q with
      | nil => exact below spine (redexAt_nil.1 redex') redex
      | cons turn' q =>
          obtain ⟨rfl, inside⟩ := List.forall_mem_cons.1 spine
          obtain ⟨rfl, inside'⟩ := List.forall_mem_cons.1 spine'
          match t, redex, redex' with
          | .app fn arg, redex, redex' => rw [ih (t := fn) inside inside' redex redex']

/-! ## Steps -/

/-- The step contracts the redex at the address and leaves everything else as it is. In place of the
redex stands the body with copies of the argument, whose binders have the tags after the greatest
one of the term; these are new, unless they pass the largest word. -/
def StepsAt (s : Strategy) (t : Term Tagged) (p : Address) : Prop :=
  ∃ x body arg new contractum,
    t.at? p = some (.app (.abs x body) arg) ∧ InstanceOf x.tag arg body new contractum ∧
      step? s t = some (t.put p contractum) ∧
      new = (Generator.above [t]).minted new.length ∧
      ((Generator.above [t]).count + new.length ≤ Tag.greatest →
        new.Nodup ∧ ∀ tag ∈ new, ∀ y ∈ t.identifiers, y.tag ≠ tag)

theorem ContractsAt.stepsAt {s : Strategy} {t : Term Tagged} {p : Address}
    (contracts : ContractsAt s t p) : StepsAt s t p := by
  obtain ⟨x, body, arg, isRedex, contracts⟩ := contracts
  obtain ⟨n, _, isInstance⟩ := instanceOf_instantiate x.tag arg body (.above [t])
  have length : ((Generator.above [t]).minted n).length = n := by simp [Generator.minted]
  refine ⟨x, body, arg, _, _, isRedex, isInstance, step?_of_contracts (contracts _), ?_, ?_⟩
  · rw [length]
  · rw [length]
    exact fresh_minted_above

/-- If a strategy contracts the first redex of the search for its normal form, a redex at the
addresses searched makes it take a step there. -/
theorem exists_stepsAt_firstRedex {s : Strategy} {t : Term Tagged} {order : WalkOrder}
    {enters : Turn → Bool} (same : s.normalForm.enters = enters)
    (contracts : ∀ {p : Address}, t.firstRedex order s.normalForm.enters = some p →
      ContractsAt s t p)
    (some : ∃ p : Address, (∀ turn ∈ p, enters turn = true) ∧ t.RedexAt p) :
    ∃ p, t.firstRedex order enters = .some p ∧ StepsAt s t p := by
  subst same
  obtain ⟨p, first⟩ := exists_firstRedex order some
  exact ⟨p, first, (contracts first).stepsAt⟩

/-- **A step contracts the redex that the strategy is named for**, if there is one at the addresses
concerned: normal order the first one before its parts and applicative order the first one behind
its parts; call-by-name the only one that is reached through function parts; call-by-value the first
one behind its parts that is not inside an abstraction or a product; and head spine reduction the
first one behind its parts that is not inside an argument. -/
theorem step?_contracts_first (t : Term Tagged) :
    ((∃ p, t.RedexAt p) →
      ∃ p, t.firstRedex .before (fun _ => true) = some p ∧ StepsAt .normalOrder t p) ∧
    ((∃ p, t.RedexAt p) →
      ∃ p, t.firstRedex .after (fun _ => true) = some p ∧ StepsAt .applicativeOrder t p) ∧
    ((∃ p, (∀ turn ∈ p, turn = .fn) ∧ t.RedexAt p) →
      ∃ p, ((∀ turn ∈ p, turn = .fn) ∧ t.RedexAt p) ∧
        (∀ q, (∀ turn ∈ q, turn = .fn) ∧ t.RedexAt q → q = p) ∧ StepsAt .callByName t p) ∧
    ((∃ p, (∀ turn ∈ p, turn = .fn ∨ turn = .arg) ∧ t.RedexAt p) →
      ∃ p, t.firstRedex .after (fun turn => turn = .fn ∨ turn = .arg) = some p ∧
        StepsAt .callByValue t p) ∧
    ((∃ p, (∀ turn ∈ p, turn ≠ .arg) ∧ t.RedexAt p) →
      ∃ p, t.firstRedex .after (fun turn => turn ≠ .arg) = some p ∧ StepsAt .headSpine t p) := by
  refine ⟨fun ⟨p, redex⟩ => ?_, fun ⟨p, redex⟩ => ?_, fun ⟨p, spine, redex⟩ => ?_,
    fun ⟨p, outside, redex⟩ => ?_, fun ⟨p, outside, redex⟩ => ?_⟩
  · refine exists_stepsAt_firstRedex ?_ (contractsAt_firstRedex_before t) ⟨p, by simp, redex⟩
    funext turn
    cases turn <;> rfl
  · refine exists_stepsAt_firstRedex ?_ (contractsAt_firstRedex_after rfl t) ⟨p, by simp, redex⟩
    funext turn
    cases turn <;> rfl
  · have same : Strategy.callByName.normalForm.enters = fun turn => decide (turn = .fn) := by
      funext turn
      cases turn <;> rfl
    obtain ⟨q, first, steps⟩ := exists_stepsAt_firstRedex same
      (contractsAt_firstRedex_after rfl t) ⟨p, by simpa using spine, redex⟩
    obtain ⟨spine', redex'⟩ := of_firstRedex first
    simp only [decide_eq_true_iff] at spine'
    refine ⟨q, ⟨spine', redex'⟩, fun r ⟨spine'', redex''⟩ => ?_, steps⟩
    exact eq_of_redexAt_spine spine'' spine' redex'' redex'
  · refine exists_stepsAt_firstRedex ?_ (contractsAt_firstRedex_after rfl t)
      ⟨p, by simpa using outside, redex⟩
    funext turn
    cases turn <;> rfl
  · refine exists_stepsAt_firstRedex ?_ (contractsAt_firstRedex_after rfl t)
      ⟨p, by simpa using outside, redex⟩
    funext turn
    cases turn <;> rfl

/-- `(λx.(λk.k) (x ((λy.y) x))) ((λu.u) v)`, in which the redexes that the strategies are named for
stand at four addresses. -/
def fourRedexes : Term Tagged :=
  .app
    (.abs ⟨"x", 1⟩
      (.app (.abs ⟨"k", 2⟩ (.var ⟨"k", 2⟩))
        (.app (.var ⟨"x", 1⟩) (.app (.abs ⟨"y", 3⟩ (.var ⟨"y", 3⟩)) (.var ⟨"x", 1⟩)))))
    (.app (.abs ⟨"u", 4⟩ (.var ⟨"u", 4⟩)) (.var ⟨"v", 5⟩))

theorem step?_contracts_fourRedexes :
    StepsAt .normalOrder fourRedexes [] ∧
      StepsAt .applicativeOrder fourRedexes [.fn, .body, .arg, .arg] ∧
      StepsAt .callByName fourRedexes [] ∧ StepsAt .callByValue fourRedexes [.arg] ∧
      StepsAt .headSpine fourRedexes [.fn, .body] := by
  obtain ⟨normal, applicative, byName, byValue, spine⟩ := step?_contracts_first fourRedexes
  have atRoot : fourRedexes.RedexAt [] := by decide
  have inFunction : ∀ turn ∈ ([] : Address), turn = .fn := by decide
  refine ⟨?_, ?_, ?_, ?_, ?_⟩
  · obtain ⟨p, first, steps⟩ := normal ⟨[], atRoot⟩
    cases first.symm.trans (by decide : _ = some [])
    exact steps
  · obtain ⟨p, first, steps⟩ := applicative ⟨[], atRoot⟩
    cases first.symm.trans (by decide : _ = some [.fn, .body, .arg, .arg])
    exact steps
  · obtain ⟨p, _, only, steps⟩ := byName ⟨[], inFunction, atRoot⟩
    rw [only [] ⟨inFunction, atRoot⟩]
    exact steps
  · obtain ⟨p, first, steps⟩ := byValue ⟨[.arg], by decide, by decide⟩
    cases first.symm.trans (by decide : _ = some [.arg])
    exact steps
  · obtain ⟨p, first, steps⟩ := spine ⟨[.fn, .body], by decide, by decide⟩
    cases first.symm.trans (by decide : _ = some [.fn, .body])
    exact steps

/-- `(λx.x) (λz.z)`, where the binder `z` has the greatest tag there is and the variable `z` is free
and has the least one. -/
def greatestTagged : Term Tagged :=
  .app (.abs ⟨"x", 1⟩ (.var ⟨"x", 1⟩))
    (.abs ⟨"z", Int64.maxValue⟩ (.var ⟨"z", Int64.minValue⟩))

/-- **After the greatest tag comes one that may be in use**: the copy of the argument has the tag of
the free variable on its binder, so no list of tags that are new for the term explains the step. -/
theorem step?_reuses_tag :
    step? .normalOrder greatestTagged =
        some (.abs ⟨"z", Int64.minValue⟩ (.var ⟨"z", Int64.minValue⟩)) ∧
      ¬ ∃ p x body arg new contractum,
        greatestTagged.at? p = some (.app (.abs x body) arg) ∧
          InstanceOf x.tag arg body new contractum ∧
          step? .normalOrder greatestTagged = some (greatestTagged.put p contractum) ∧
          ∀ tag ∈ new, ∀ y ∈ greatestTagged.identifiers, y.tag ≠ tag := by
  have step : step? .normalOrder greatestTagged =
      some (.abs ⟨"z", Int64.minValue⟩ (.var ⟨"z", Int64.minValue⟩)) := by cbv
  refine ⟨step, ?_⟩
  rintro ⟨p, x, body, arg, new, contractum, found, isInstance, contracted, fresh⟩
  have only : ∀ p ∈ greatestTagged.addresses .before, greatestTagged.RedexAt p → p = [] := by
    decide
  obtain rfl := only p (mem_addresses _ (Option.isSome_of_mem found)) ⟨_, found, x, body, arg, rfl⟩
  cases found
  rw [step, put_nil] at contracted
  cases contracted
  cases isInstance with
  | here _ copy =>
      cases copy with
      | abs _ => exact fresh _ List.mem_cons_self ⟨"z", Int64.minValue⟩ (by decide) rfl

end Redex
