import Redex.Prelude.Builtin
import Redex.Proofs.Prelude.Resolution
import Redex.Proofs.ReadBack

/-!
# Compiled preludes

A prelude is compiled from the texts of its definitions. They are read and resolved, and the
references of each definition are followed in an order that nobody should depend on. Whatever the
order, the definitions come out closed, and that is all it takes for expanding to be right: to put
definitions in as they stand is to substitute for free variables without capture
(`expand_substitutes`).

A term that was expanded has no free name left that the prelude defines. A run frees nothing, and
untagging its result frees nothing either, whatever names it picks for binders. So a printed result
may be expanded again without harm, also where a binder has got a name that the prelude defines
(`expand_untag_run`).
-/

set_option autoImplicit false

namespace Redex.Prelude

/-! ## Compiling -/

/-- The prelude is made from texts of definitions, with the references of each definition followed
in some order. -/
def Compiled (p : Prelude) : Prop :=
  ∃ texts raw, readAll texts = .ok raw ∧
    ∃ arrange : Name → List Name → List Name, (∀ name names, (arrange name names).Perm names) ∧
      resolveAllBy arrange raw = .ok p

theorem compiled_of_ofTexts {texts : List (Name × String)} {p : Prelude}
    (made : ofTexts texts = .ok p) : p.Compiled := by
  obtain ⟨raw, read, resolved⟩ := exists_ok_of_bind made
  exact ⟨texts, raw, read, fun _ => id, fun _ names => .refl names, resolved⟩

/-- **The definitions of a compiled prelude are closed.** -/
theorem Compiled.closed {p : Prelude} (compiled : p.Compiled) :
    ∀ x d, p.lookup? x = some d → d.Closed := by
  obtain ⟨_, raw, _, arrange, orders, resolved⟩ := compiled
  have outcome := outcome_resolveAllBy orders raw
  rw [resolved] at outcome
  exact outcome.1.closed

/-! ## Expanding -/

/-- **Expanding substitutes definitions without capture.** The expanded term is the term with each
free occurrence of a defined name replaced by the definition as it stands; an occurrence that a
binder of its name claims stays, where a product claims nothing in its domain. No variable changes
its binder: on nameless images this is the substitution that moves what it puts in past the binders
around it. What is free afterwards is what was free before and has no definition, and expanding once
more changes nothing. -/
theorem expand_substitutes (p : Prelude) (compiled : p.Compiled) (t : Term Name) :
    Replaces (fun x => some (p.meaning x)) [] t (p.expand t) ∧
    (p.expand t).nameless id = (t.nameless id).bindFree (fun x => (p.meaning x).nameless id) ∧
    (p.expand t).free = t.free.filter (fun x => (p.lookup? x).isNone) ∧
    p.expand (p.expand t) = p.expand t :=
  ⟨replaces_meaning p t, nameless_expand compiled.closed t, free_expand compiled.closed t,
    expand_expand compiled.closed t⟩

/-- The texts of two definitions. -/
def letterTexts : List (Name × String) := [("a", "λx.x"), ("b", "a a")]

/-- What the texts define. -/
def letterPrelude : Prelude :=
  ⟨[("b", .app (.abs "x" (.var "x")) (.abs "x" (.var "x"))), ("a", .abs "x" (.var "x"))]⟩

theorem readAll_letterTexts : readAll letterTexts =
    .ok [("a", .abs "x" (.var "x")), ("b", .app (.var "a") (.var "a"))] :=
  eq_ok_of_toOption (by decide +kernel)

theorem ofTexts_letterTexts : ofTexts letterTexts = .ok letterPrelude := by
  rw [ofTexts, readAll_letterTexts]
  cbv

/-- `λx.πa:a.b a (x y)`, where the product claims the second `a` of its body and not its domain. -/
def hiddenLetter : Term Name :=
  .abs "x" (.pi "a" (.var "a") (.app (.app (.var "b") (.var "a")) (.app (.var "x") (.var "y"))))

/-- The definitions end up under the binder of `x` and have binders of that name themselves. -/
theorem expand_substitutes_hiddenLetter :
    letterPrelude.Compiled ∧
      letterPrelude.expand hiddenLetter =
        .abs "x" (.pi "a" (.abs "x" (.var "x")) (.app
          (.app (.app (.abs "x" (.var "x")) (.abs "x" (.var "x"))) (.var "a"))
          (.app (.var "x") (.var "y")))) ∧
      (letterPrelude.expand hiddenLetter).free = ["y"] ∧
      letterPrelude.expand (letterPrelude.expand hiddenLetter) =
        letterPrelude.expand hiddenLetter := by
  have compiled := compiled_of_ofTexts ofTexts_letterTexts
  obtain ⟨_, _, free, again⟩ := expand_substitutes letterPrelude compiled hiddenLetter
  refine ⟨compiled, by decide, ?_, again⟩
  rw [free]
  decide

/-! ## Reading a result back -/

/-- **A printed result may be expanded again.** Let a term be expanded, tagged and run, and let no
tag wrap. Then the prelude defines no free name of the untagged result, and expanding leaves the
result as it is, also where untagging has given a binder a name that the prelude defines. -/
theorem expand_untag_run (p : Prelude) (compiled : p.Compiled) (t b : Term Name) (s : Strategy)
    (limit : Nat) (word : ((p.expand t).tagWith .start).2.count ≤ Tag.greatest)
    (suffice : TagsSuffice s limit (p.expand t).tag)
    (untagged : (run s limit (p.expand t).tag).term.untag = .ok b) :
    (∀ x, b.HasFree x → t.HasFree x ∧ p.lookup? x = none) ∧ p.expand b = b := by
  have undefined : ∀ x, b.HasFree x → t.HasFree x ∧ p.lookup? x = none := fun x occurs =>
    (hasFree_expand compiled.closed).1 (hasFree_of_untag_run word suffice untagged occurs)
  exact ⟨undefined, expand_eq_self fun x occurs => (undefined x occurs).2⟩

/-- `(λy.λx.y (a x)) x`, where the binder of `x` has to be renamed. -/
def renamedToDefined : Term Name :=
  .app (.abs "y" (.abs "x" (.app (.var "y") (.app (.var "a") (.var "x"))))) (.var "x")

/-- The result is `λa.x a`, and `a` is defined. -/
theorem expand_untag_run_renamedToDefined :
    (letterPrelude.Compiled ∧ (letterPrelude.lookup? "a").isSome = true) ∧
      (run .normalOrder 100 (letterPrelude.expand renamedToDefined).tag).term.untag =
        .ok (.abs "a" (.app (.var "x") (.var "a"))) ∧
      letterPrelude.expand (.abs "a" (.app (.var "x") (.var "a"))) =
        .abs "a" (.app (.var "x") (.var "a")) := by
  have result : (run .normalOrder 100 (letterPrelude.expand renamedToDefined).tag).term =
      .abs ⟨"x", 2⟩ (.app (.var ⟨"x", 4⟩) (.var ⟨"x", 2⟩)) := by cbv
  have untagged : (run .normalOrder 100 (letterPrelude.expand renamedToDefined).tag).term.untag =
      .ok (.abs "a" (.app (.var "x") (.var "a"))) := by
    rw [result]
    exact eq_ok_of_toOption (by decide +kernel)
  have suffice : TagsSuffice .normalOrder 100 (letterPrelude.expand renamedToDefined).tag := by
    decide_cbv
  have compiled := compiled_of_ofTexts ofTexts_letterTexts
  obtain ⟨_, same⟩ := expand_untag_run letterPrelude compiled _ _ .normalOrder 100 (by decide)
    suffice untagged
  exact ⟨⟨compiled, by decide⟩, untagged, same⟩

end Redex.Prelude
