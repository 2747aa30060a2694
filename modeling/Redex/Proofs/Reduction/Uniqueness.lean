import Redex.Proofs.Reduction.Coherence
import Redex.Proofs.Tagging

/-!
# Unique tags

Well-tagged terms may have two binders with one tag side by side. Tagging gives each binder a tag of
its own, and reduction keeps it so: an argument is copied with new tags for every occurrence it
replaces, while the tags of the rest of the term, which waits, are older than those of the copies
and stay where they are.

Two parts of a term that have no tag in common have none after either of them was replaced by a term
with newer binders (`distinct_app_of_new`). Copies have distinct tags (`distinct_retag`), so a
contraction keeps the tags of all binders distinct (`Contracts.distinct`). Each run makes its own
generator, above all tags of the term it is given, so one may start from the result of another.
-/

set_option autoImplicit false

namespace Redex

open Term

namespace Term

variable {x : Tagged} {fn fn' arg arg' body body' dom cod : Term Tagged}

/-! ## Distinct binders -/

/-- No two binders have one tag. -/
def Distinct (t : Term Tagged) : Prop := (t.binders.map Tagged.tag).Nodup

instance (t : Term Tagged) : Decidable t.Distinct :=
  inferInstanceAs (Decidable (t.binders.map Tagged.tag).Nodup)

theorem distinct_app :
    (app fn arg).Distinct ↔
      fn.Distinct ∧ arg.Distinct ∧ ∀ y ∈ fn.binders, ∀ z ∈ arg.binders, y.tag ≠ z.tag := by
  simp only [Distinct, binders, List.map_append, List.nodup_append, List.forall_mem_map]

theorem distinct_abs :
    (abs x body).Distinct ↔ (∀ z ∈ body.binders, z.tag ≠ x.tag) ∧ body.Distinct := by
  rw [Distinct, binders, List.map_cons, List.nodup_cons, List.mem_map, not_exists]
  exact and_congr_left' (forall_congr' fun z => not_and)

/-- The binder of a product goes with its scope. -/
theorem distinct_pi : (pi x dom cod).Distinct ↔ (app dom (abs x cod)).Distinct :=
  (List.perm_middle.symm.map Tagged.tag).nodup_iff

theorem TagsUpTo.piParts {bound : Int} (upTo : (pi x dom cod).TagsUpTo bound) :
    (app dom (abs x cod)).TagsUpTo bound where
  binders z member := upTo.binders z (List.perm_middle.mem_iff.1 member)
  free y free := upTo.free y (hasFree_pi_iff_abs.2 (hasFree_app.1 free))

/-! ## Newer binders -/

section New

variable {low mid high : Int}

/-- Two parts, in which new binders come up one after the other, have no tag in common if they had
none before. -/
theorem distinct_app_of_new
    (left : ∀ z ∈ fn'.binders, z ∈ fn.binders ∨ (low < z.tag.toInt ∧ z.tag.toInt ≤ mid))
    (right : ∀ z ∈ arg'.binders, z ∈ arg.binders ∨ (mid < z.tag.toInt ∧ z.tag.toInt ≤ high))
    (lowMid : low ≤ mid) (upTo : (app fn arg).TagsUpTo low) (distinct : (app fn arg).Distinct)
    (inFn : fn'.Distinct) (inArg : arg'.Distinct) : (app fn' arg').Distinct := by
  refine distinct_app.2 ⟨inFn, inArg, fun y member z member' => ?_⟩
  obtain ⟨_, _, apart⟩ := distinct_app.1 distinct
  rcases left y member with before | new
  · have old := Int.le_trans (upTo.appFn.binders y before) lowMid
    exact (tag_ne_of_new right old (fun z old' => (apart y before z old').symm) z member').symm
  · refine (tag_ne_of_new right new.2 (fun z before same => ?_) z member').symm
    have old := upTo.appArg.binders z before
    rw [same] at old
    exact absurd new.1 (Int.not_lt.2 old)

theorem distinct_appFn_of_new
    (inside : ∀ z ∈ fn'.binders, z ∈ fn.binders ∨ (low < z.tag.toInt ∧ z.tag.toInt ≤ high))
    (lowHigh : low ≤ high) (upTo : (app fn arg).TagsUpTo low) (distinct : (app fn arg).Distinct)
    (inFn : fn'.Distinct) : (app fn' arg).Distinct :=
  distinct_app_of_new inside (Refreshes.refl high high arg).binders lowHigh upTo distinct inFn
    (distinct_app.1 distinct).2.1

theorem distinct_appArg_of_new
    (inside : ∀ z ∈ arg'.binders, z ∈ arg.binders ∨ (low < z.tag.toInt ∧ z.tag.toInt ≤ high))
    (upTo : (app fn arg).TagsUpTo low) (distinct : (app fn arg).Distinct)
    (inArg : arg'.Distinct) : (app fn arg').Distinct :=
  distinct_app_of_new (Refreshes.refl low low fn).binders inside (Int.le_refl low) upTo distinct
    (distinct_app.1 distinct).1 inArg

theorem distinct_abs_of_new
    (inside : ∀ z ∈ body'.binders, z ∈ body.binders ∨ (low < z.tag.toInt ∧ z.tag.toInt ≤ high))
    (upTo : (abs x body).TagsUpTo low) (distinct : (abs x body).Distinct)
    (inBody : body'.Distinct) : (abs x body').Distinct :=
  distinct_abs.2 ⟨tag_ne_of_new inside upTo.absBinder (distinct_abs.1 distinct).1, inBody⟩

end New

/-! ## Copies and instantiation -/

/-- **The binders of a copy have distinct tags**, whatever tags those of the term have. -/
theorem distinct_retag (t : Term Tagged) :
    ∀ {renewed : List (Tag × Tag)} {gen : Generator},
      gen.Leads (t.retag renewed gen).2 → (t.retag renewed gen).1.Distinct := by
  -- what is copied first has the earlier tags
  have inTurn : ∀ {t u : Term Tagged} {renewed : List (Tag × Tag)} {gen : Generator},
      gen.Leads (t.retag renewed gen).2 →
      (t.retag renewed gen).2.Leads (u.retag renewed (t.retag renewed gen).2).2 →
      ∀ y ∈ (t.retag renewed gen).1.binders,
        ∀ z ∈ (u.retag renewed (t.retag renewed gen).2).1.binders, y.tag ≠ z.tag := by
    intro t u renewed gen toFirst toSecond y inFirst z inSecond same
    have early := tag_of_mem_binders_retag t toFirst inFirst
    have late := tag_of_mem_binders_retag u toSecond inSecond
    rw [same] at early
    exact absurd late.1 (Int.not_lt.2 early.2)
  induction t with
  | var y =>
      intro renewed gen _
      rw [retag_var]
      exact List.nodup_nil
  | app fn arg ihFn ihArg =>
      intro renewed gen leads
      obtain ⟨toFn, toArg⟩ := leads_retag_app leads
      exact distinct_app.2 ⟨ihFn toFn, ihArg toArg, inTurn toFn toArg⟩
  | abs x body ih =>
      intro renewed gen leads
      obtain ⟨toNext, toBody⟩ := leads_retag_abs leads
      exact distinct_abs.2 ⟨(unshadowed_retag (abs x body) leads).1, ih toBody⟩
  | pi x dom cod ihDom ihCod =>
      intro renewed gen leads
      obtain ⟨toDom, afterDom⟩ := leads_retag_pi leads
      obtain ⟨toNext, toCod⟩ := leads_retag_abs afterDom
      have scope := distinct_abs.2 ⟨(unshadowed_retag (abs x cod) afterDom).1, ihCod toCod⟩
      exact distinct_pi.2 (distinct_app.2 ⟨ihDom toDom, scope, inTurn toDom afterDom⟩)
  | sort u =>
      intro renewed gen _
      exact List.nodup_nil

/-- The copies of a value have newer tags than the body, each other tags than the one before. -/
theorem distinct_instantiate {x : Tag} {value : Term Tagged} (body : Term Tagged) :
    ∀ {gen : Generator}, gen.Leads (instantiate x value body gen).2 →
      body.TagsUpTo gen.count → body.Distinct → (instantiate x value body gen).1.Distinct := by
  induction body with
  | var y =>
      intro gen leads _ distinct
      by_cases same : y.tag = x
      · rw [instantiate_var_self x value gen same] at leads ⊢
        exact distinct_retag value leads
      · rw [instantiate_var_of_ne x value gen same]
        exact distinct
  | app fn arg ihFn ihArg =>
      intro gen leads upTo distinct
      obtain ⟨toFn, toArg⟩ := leads_instantiate_app leads
      obtain ⟨inFn, inArg, _⟩ := distinct_app.1 distinct
      exact distinct_app_of_new (fun _ => mem_binders_instantiate fn toFn)
        (fun _ => mem_binders_instantiate arg toArg) toFn.le upTo distinct
        (ihFn toFn upTo.appFn inFn) (ihArg toArg (upTo.appArg.mono toFn.le) inArg)
  | abs y body ih =>
      intro gen leads upTo distinct
      by_cases same : y.tag = x
      · rw [instantiate_abs_self x value gen same]
        exact distinct
      · rw [instantiate_abs_of_ne x value gen same] at leads ⊢
        exact distinct_abs_of_new (fun _ => mem_binders_instantiate body leads) upTo distinct
          (ih leads upTo.absBody (distinct_abs.1 distinct).2)
  | pi y dom cod ihDom ihCod =>
      intro gen leads upTo distinct
      obtain ⟨inDom, inScope, _⟩ := distinct_app.1 (distinct_pi.1 distinct)
      by_cases same : y.tag = x
      · rw [instantiate_pi_self x value gen same] at leads ⊢
        exact distinct_pi.2 (distinct_appFn_of_new (fun _ => mem_binders_instantiate dom leads)
          leads.le upTo.piParts (distinct_pi.1 distinct) (ihDom leads upTo.piDom inDom))
      · obtain ⟨toDom, toCod⟩ := leads_instantiate_pi same leads
        rw [instantiate_pi_of_ne x value gen same]
        have upToScope := upTo.piParts.appArg.mono toDom.le
        have scope := distinct_abs_of_new (fun _ => mem_binders_instantiate cod toCod) upToScope
          inScope (ihCod toCod upToScope.absBody (distinct_abs.1 inScope).2)
        have newInScope := fun z => mem_binders_instantiate (z := z) (abs y cod)
          (by rwa [instantiate_abs_of_ne x value _ same])
        rw [instantiate_abs_of_ne x value _ same] at newInScope
        exact distinct_pi.2 (distinct_app_of_new (fun _ => mem_binders_instantiate dom toDom)
          newInScope toDom.le upTo.piParts (distinct_pi.1 distinct)
          (ihDom toDom upTo.piDom inDom) scope)
  | sort u =>
      intro gen _ _ distinct
      exact distinct

end Term

/-! ## Contractions and runs -/

/-- **A contraction keeps the tags of the binders distinct.** -/
theorem Contracts.distinct {s : Strategy} {gen gen₁ : Generator} {t t₁ : Term Tagged}
    (contracts : Contracts s gen t gen₁ t₁) :
    gen.Leads gen₁ → t.TagsUpTo gen.count → t.WellTagged → t.Distinct → t₁.Distinct := by
  -- the binders of the part that changes are those it had and newer ones
  have newer : ∀ {s : Strategy} {gen gen₁ : Generator} {t t₁ : Term Tagged},
      Contracts s gen t gen₁ t₁ → gen.Leads gen₁ → t.TagsUpTo gen.count → t.WellTagged →
      Refreshes gen.count gen₁.count t t₁ :=
    fun step leads upTo tagged => (step.simulates id 0 leads upTo tagged).refreshes
  have inFn : ∀ {s : Strategy} {gen gen₁ : Generator} {fn fn₁ arg : Term Tagged},
      Contracts s gen fn gen₁ fn₁ → gen.Leads gen₁ → (app fn arg).TagsUpTo gen.count →
      fn.WellTagged → (app fn arg).Distinct → fn₁.Distinct → (app fn₁ arg).Distinct :=
    fun step leads upTo tagged => distinct_appFn_of_new
      (newer step leads upTo.appFn tagged).binders leads.le upTo
  have inArg : ∀ {s : Strategy} {gen gen₁ : Generator} {fn arg arg₁ : Term Tagged},
      Contracts s gen arg gen₁ arg₁ → gen.Leads gen₁ → (app fn arg).TagsUpTo gen.count →
      arg.WellTagged → (app fn arg).Distinct → arg₁.Distinct → (app fn arg₁).Distinct :=
    fun step leads upTo tagged => distinct_appArg_of_new
      (newer step leads upTo.appArg tagged).binders upTo
  induction contracts with
  | redex gen _ _ =>
      intro leads upTo tagged distinct
      exact distinct_instantiate _ leads upTo.appFn.absBody
        (distinct_abs.1 (distinct_app.1 distinct).1).2
  | appFn step ih =>
      intro leads upTo tagged distinct
      exact inFn step leads upTo tagged.appFn distinct
        (ih leads upTo.appFn tagged.appFn (distinct_app.1 distinct).1)
  | appArg _ _ step ih =>
      intro leads upTo tagged distinct
      exact inArg step leads upTo tagged.appArg distinct
        (ih leads upTo.appArg tagged.appArg (distinct_app.1 distinct).2.1)
  | fnAgain _ _ _ _ step ih =>
      intro leads upTo tagged distinct
      exact inFn step leads upTo tagged.appFn distinct
        (ih leads upTo.appFn tagged.appFn (distinct_app.1 distinct).1)
  | argAgain _ _ _ _ step ih =>
      intro leads upTo tagged distinct
      exact inArg step leads upTo tagged.appArg distinct
        (ih leads upTo.appArg tagged.appArg (distinct_app.1 distinct).2.1)
  | abs _ step ih =>
      intro leads upTo tagged distinct
      exact distinct_abs_of_new (newer step leads upTo.absBody tagged.absBody).binders upTo
        distinct (ih leads upTo.absBody tagged.absBody (distinct_abs.1 distinct).2)
  | piDom _ step ih =>
      intro leads upTo tagged distinct
      have parts := distinct_pi.1 distinct
      exact distinct_pi.2 (inFn step leads upTo.piParts tagged.piDom parts
        (ih leads upTo.piDom tagged.piDom (distinct_app.1 parts).1))
  | piCod _ _ step ih =>
      intro leads upTo tagged distinct
      have parts := distinct_pi.1 distinct
      have scope := (distinct_app.1 parts).2.1
      have inCod := newer step leads upTo.piCod tagged.piCod
      exact distinct_pi.2 (distinct_appArg_of_new inCod.abs.binders upTo.piParts parts
        (distinct_abs_of_new inCod.binders upTo.piParts.appArg scope
          (ih leads upTo.piCod tagged.piCod (distinct_abs.1 scope).2)))

/-- **A run keeps the tags of the binders distinct.** -/
theorem run_distinct {s : Strategy} {limit : Nat} {t : Term Tagged} (tagged : t.WellTagged)
    (suffice : TagsSuffice s limit t) (distinct : t.Distinct) : (run s limit t).term.Distinct :=
  (run_contractions s limit t).keeps Contracts.distinct suffice.leads (tagsUpTo_above t) tagged
    distinct

/-! ## Sequences of calls -/

/-- The tags of a term tell its variables apart: no two binders have one tag, no tag that occurs
free is the tag of a binder, and every bound occurrence carries the name of its binder. -/
structure Term.UniquelyTagged (t : Term Tagged) : Prop where
  distinct : t.Distinct
  apart : t.Apart t
  coherent : t.Coherent

theorem Term.UniquelyTagged.wellTagged {t : Term Tagged} (unique : t.UniquelyTagged) :
    t.WellTagged :=
  ⟨unshadowed_of_nodup unique.distinct, unique.apart⟩

/-- What a term is given to: a run, or a single step. -/
inductive Call where
  | run (s : Strategy) (limit : Nat)
  | step (s : Strategy)

namespace Call

/-- The term a call leads to. A step that finds nothing to contract leaves the term. -/
def result : Call → Term Tagged → Term Tagged
  | run s limit, t => (Redex.run s limit t).term
  | step s, t => (step? s t).getD t

/-- The tags last for the call. -/
def TagsSuffice : Call → Term Tagged → Prop
  | run s limit, t => Redex.TagsSuffice s limit t
  | step s, t => Redex.TagsSuffice s 1 t

instance : (call : Call) → (t : Term Tagged) → Decidable (call.TagsSuffice t)
  | run s limit, t => inferInstanceAs (Decidable (Redex.TagsSuffice s limit t))
  | step s, t => inferInstanceAs (Decidable (Redex.TagsSuffice s 1 t))

/-- A step is a run with a budget of one contraction. -/
theorem result_step (s : Strategy) (t : Term Tagged) :
    (step s).result t = (Redex.run s 1 t).term := by
  have made := run_contractions s 1 t
  rw [result, step?]
  split
  · rfl
  · next stopped =>
      rw [Nat.eq_zero_of_not_pos stopped] at made
      exact (made.deterministic (.none _ t)).2

/-- **A call keeps tags unique**, and nothing becomes free in it. -/
theorem keeps_uniquelyTagged (call : Call) {t : Term Tagged} (unique : t.UniquelyTagged)
    (suffice : call.TagsSuffice t) :
    (call.result t).UniquelyTagged ∧ ∀ y, (call.result t).HasFree y → t.HasFree y := by
  have inRun : ∀ {s : Strategy} {limit : Nat}, Redex.TagsSuffice s limit t →
      (Redex.run s limit t).term.UniquelyTagged ∧
        ∀ y, (Redex.run s limit t).term.HasFree y → t.HasFree y := by
    intro s limit suffice
    have tagged := unique.wellTagged
    refine ⟨⟨run_distinct tagged suffice unique.distinct,
      (run_simulates id tagged suffice).1.apart, run_coherent tagged suffice unique.coherent⟩, ?_⟩
    exact fun y => hasFree_of_run tagged suffice
  cases call with
  | run s limit => exact inRun suffice
  | step s =>
      rw [result_step]
      exact inRun suffice

end Call

/-- `Obtained t u`: some calls, one after the other, lead from `t` to `u`, and the tags last for
each of them. -/
inductive Obtained (t : Term Tagged) : Term Tagged → Prop where
  | start : Obtained t t
  | next {u : Term Tagged} (call : Call) :
      Obtained t u → call.TagsSuffice u → Obtained t (call.result u)

/-- **Tags stay unique through any sequence of runs and steps**, each with a strategy, a limit and a
generator of its own, and the free variables are among those of the first term. -/
theorem obtained_uniquelyTagged (t u : Term Tagged) (unique : t.UniquelyTagged)
    (obtained : Obtained t u) : u.UniquelyTagged ∧ ∀ y, u.HasFree y → t.HasFree y := by
  induction obtained with
  | start => exact ⟨unique, fun _ free => free⟩
  | next call _ suffice ih =>
      obtain ⟨kept, free⟩ := call.keeps_uniquelyTagged ih.1 suffice
      exact ⟨kept, fun y inResult => ih.2 y (free y inResult)⟩

/-- `(λf.f (f a)) (λy.λz.z y)`, in which the argument is copied twice. -/
def appliedTwice : Term Tagged :=
  .app
    (.abs ⟨"f", 1⟩
      (.app (.var ⟨"f", 1⟩) (.app (.var ⟨"f", 1⟩) (.var ⟨"a", 2⟩))))
    (.abs ⟨"y", 3⟩ (.abs ⟨"z", 4⟩ (.app (.var ⟨"z", 4⟩) (.var ⟨"y", 3⟩))))

/-- `λz.z (λz.z a)`, the normal form, with tags from two of the copies. -/
def nestedCopies : Term Tagged :=
  .abs ⟨"z", 6⟩ (.app (.var ⟨"z", 6⟩) (.abs ⟨"z", 9⟩ (.app (.var ⟨"z", 9⟩) (.var ⟨"a", 2⟩))))

/-- A step, a run that is cut off and a run to the normal form, in which the copies lie inside each
other. -/
theorem obtained_uniquelyTagged_appliedTwice :
    appliedTwice.UniquelyTagged ∧ Obtained appliedTwice nestedCopies ∧
      nestedCopies.UniquelyTagged ∧ ∀ y, nestedCopies.HasFree y → appliedTwice.HasFree y := by
  have unique : appliedTwice.UniquelyTagged := ⟨by decide, by decide, by decide⟩
  have obtained := Obtained.start (t := appliedTwice)
    |>.next (.step .normalOrder) (by decide_cbv)
    |>.next (.run .hybridApplicative 1) (by decide_cbv)
    |>.next (.run .normalOrder 100) (by decide_cbv)
  have result : (Call.run .normalOrder 100).result ((Call.run .hybridApplicative 1).result
      ((Call.step .normalOrder).result appliedTwice)) = nestedCopies := by cbv
  rw [result] at obtained
  exact ⟨unique, obtained, obtained_uniquelyTagged appliedTwice nestedCopies unique obtained⟩

end Redex
