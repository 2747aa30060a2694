import Redex.Proofs.Basic
import Redex.Proofs.FreshName
import Redex.Proofs.Term.Alpha
import Redex.Proofs.WellTagged
import Redex.Untagging

/-!
# Untagging keeps bindings

Untagging decides on the name of each binder on the way down. Whatever it decides, no binder gets a
name under which another variable of its scope is printed: a binder keeps its name only if there is
no such variable, and a new name is chosen outside the names the variables of the scope are printed
with. So an occurrence is never taken away from its binder by one further in, and an occurrence of
the binder itself is printed with the binder's name. The result is α-equivalent to the tagged term,
with free variables compared by name.

The binders around a place are kept as pairs of a tag and the name printed for it. What holds on the
way down is that the free occurrences of the part that is left, and the names they are printed with,
correspond under these pairs.
-/

set_option autoImplicit false

namespace Redex

/-! ## Choosing a name -/

namespace Renaming

variable {renamed inner : Renaming} {takenNames : List Name} {name new : Name} {x : Tagged}
variable {scope : Term Tagged}

/-- A new name is not taken. -/
theorem pick_not_mem (picked : renamed.pick takenNames name = .ok new) : new ∉ takenNames := by
  unfold pick at picked
  split at picked
  · cases picked
    exact Name.freshOutside_not_mem _ _
  · split at picked
    · next letter found =>
        cases picked
        have outside := List.find?_some found
        exact of_decide_eq_true outside
    · cases picked

theorem lookup_give_self (renamed : Renaming) (tag : Tag) (name : Name) :
    (renamed.give tag name).lookup tag = some name := by
  simp [give]

theorem lookup_give_of_ne (renamed : Renaming) {tag tag' : Tag} (name : Name)
    (other : tag' ≠ tag) : (renamed.give tag name).lookup tag' = renamed.lookup tag' := by
  rw [give, List.lookup_cons, beq_eq_false_iff_ne.2 other]
  exact lookup_filter_ne renamed other

/-- What a binder's choice of a name amounts to. -/
structure Entered (renamed : Renaming) (x : Tagged) (scope : Term Tagged) (name : Name)
    (inner : Renaming) : Prop where
  /-- Other variables are printed as before. -/
  others : ∀ tag, tag ≠ x.tag → inner.lookup tag = renamed.lookup tag
  /-- A variable of the binder's tag and name is printed with the binder's new name, if no binder
  around it has that tag. -/
  own : renamed.lookup x.tag = none → ∀ y : Tagged, y.tag = x.tag → y.name = x.name →
    inner.display y = name
  /-- No other variable of the scope is printed with that name. -/
  apart : ∀ y, scope.HasFree y → y.tag ≠ x.tag → renamed.display y ≠ name

theorem entered_of_enter (enters : renamed.enter x scope = .ok (name, inner)) :
    Entered renamed x scope name inner := by
  unfold enter at enters
  split at enters
  · obtain ⟨new, picked, chosen⟩ := exists_ok_of_bind enters
    cases chosen
    refine ⟨fun tag other => renamed.lookup_give_of_ne name other, ?_, ?_⟩
    · intro _ y same _
      rw [display, same, lookup_give_self]
      rfl
    · -- the names the scope is printed with are taken
      rintro y free _ rfl
      refine pick_not_mem picked (List.mem_append_right _ (List.mem_flatMap.2 ⟨y, ?_, ?_⟩))
      · exact Term.mem_identifiers_of_hasFree free
      · exact List.mem_cons_of_mem _ (List.mem_singleton.2 rfl)
  · next noCollision =>
      cases enters
      refine ⟨fun _ _ => rfl, ?_, ?_⟩
      · intro unnamed y same sameName
        rw [display, same, unnamed, ← sameName]
        rfl
      · intro y free other sameName
        refine noCollision (List.any_eq_true.2 ⟨y, Term.mem_occurrences_of_hasFree free, ?_⟩)
        rw [sameName, decide_eq_true other, beq_self_eq_true]
        rfl

end Renaming

/-! ## Untagging a term -/

namespace Term

/-- Below a binder, occurrences and the names they are printed with still correspond. -/
theorem corresponds_below {renamed inner : Renaming} {x : Tagged} {body : Term Tagged} {name : Name}
    {pairs : List (Tag × Name)} (entered : Renaming.Entered renamed x body name inner)
    (unnamed : renamed.lookup x.tag = none)
    (coherent : ∀ y, body.HasFree y → y.tag = x.tag → y.name = x.name)
    (agree : ∀ y, (abs x body).HasFree y →
      Corresponds Tagged.name id pairs y (renamed.display y))
    (y : Tagged) (free : body.HasFree y) :
    Corresponds Tagged.name id ((x.tag, name) :: pairs) y (inner.display y) := by
  by_cases same : y.tag = x.tag
  · exact .here pairs same (entered.own unnamed y same (coherent y free same))
  · have before : inner.display y = renamed.display y := by
      rw [Renaming.display, entered.others y.tag same]
      rfl
    rw [before]
    exact .there same (entered.apart y free same) (agree y (hasFree_abs.2 ⟨free, same⟩))

/-- The binders in the scope of a binder have no name yet. -/
theorem unnamed_below {renamed inner : Renaming} {x : Tagged} {body : Term Tagged} {name : Name}
    (entered : Renaming.Entered renamed x body name inner)
    (unshadowed : ∀ z ∈ body.binders, z.tag ≠ x.tag)
    (unnamed : ∀ z ∈ body.binders, renamed.lookup z.tag = none) :
    ∀ z ∈ body.binders, inner.lookup z.tag = none := by
  intro z member
  rw [entered.others z.tag (unshadowed z member)]
  exact unnamed z member

theorem alike_of_untagIn (t : Term Tagged) :
    ∀ {renamed : Renaming} {pairs : List (Tag × Name)} {b : Term Name},
      t.Unshadowed → t.Coherent → (∀ z ∈ t.binders, renamed.lookup z.tag = none) →
      (∀ y, t.HasFree y → Corresponds Tagged.name id pairs y (renamed.display y)) →
      t.untagIn renamed = .ok b → Alike Tagged.name id pairs t b := by
  induction t with
  | var x =>
      intro renamed pairs b _ _ _ agree untagged
      cases untagged
      exact .var (agree x (hasFree_var.2 rfl))
  | app fn arg ihFn ihArg =>
      intro renamed pairs b unshadowed coherent unnamed agree untagged
      obtain ⟨fn', inFn, rest⟩ := exists_ok_of_bind untagged
      obtain ⟨arg', inArg, whole⟩ := exists_ok_of_bind rest
      cases whole
      exact .app
        (ihFn unshadowed.1 coherent.1 (fun z member => unnamed z (mem_binders_app.2 (.inl member)))
          (fun y free => agree y (hasFree_app.2 (.inl free))) inFn)
        (ihArg unshadowed.2 coherent.2 (fun z member => unnamed z (mem_binders_app.2 (.inr member)))
          (fun y free => agree y (hasFree_app.2 (.inr free))) inArg)
  | abs x body ih =>
      intro renamed pairs b unshadowed coherent unnamed agree untagged
      obtain ⟨⟨name, inner⟩, enters, rest⟩ := exists_ok_of_bind untagged
      obtain ⟨body', inBody, whole⟩ := exists_ok_of_bind rest
      cases whole
      have entered := Renaming.entered_of_enter enters
      exact .abs (ih unshadowed.2 coherent.2
        (unnamed_below entered unshadowed.1 fun z member =>
          unnamed z (mem_binders_abs.2 (.inr member)))
        (corresponds_below entered (unnamed x (mem_binders_abs.2 (.inl rfl))) coherent.1 agree)
        inBody)
  | pi x dom cod ihDom ihCod =>
      intro renamed pairs b unshadowed coherent unnamed agree untagged
      obtain ⟨dom', inDom, rest⟩ := exists_ok_of_bind untagged
      obtain ⟨⟨name, inner⟩, enters, rest⟩ := exists_ok_of_bind rest
      obtain ⟨cod', inCod, whole⟩ := exists_ok_of_bind rest
      cases whole
      have entered := Renaming.entered_of_enter enters
      exact .pi
        (ihDom unshadowed.1 coherent.1
          (fun z member => unnamed z (mem_binders_pi.2 (.inr (.inl member))))
          (fun y free => agree y (hasFree_pi_iff_abs.2 (.inl free))) inDom)
        (ihCod unshadowed.2.2 coherent.2.2
          (unnamed_below entered unshadowed.2.1 fun z member =>
            unnamed z (mem_binders_pi.2 (.inr (.inr member))))
          (corresponds_below entered (unnamed x (mem_binders_pi.2 (.inl rfl))) coherent.2.1
            fun y free => agree y (hasFree_pi_iff_abs.2 (.inr free)))
          inCod)
  | sort u =>
      intro renamed pairs b _ _ _ _ untagged
      cases untagged
      exact .sort u

end Term

/-- **Untagging never changes which binder an occurrence belongs to.** If no binder lies in the
scope of another one with the same tag and every bound occurrence carries its binder's name, the
result has the shape of the term, each of its occurrences belongs to the binder at the place of the
binder it belonged to, and free occurrences stay free and keep their names. -/
theorem untag_alphaEquivalent (t : Term Tagged) (b : Term Name) (unshadowed : t.Unshadowed)
    (coherent : t.Coherent) (untagged : t.untag = .ok b) :
    AlphaEquivalent Tagged.name id t b :=
  t.alike_of_untagIn unshadowed coherent (fun _ _ => rfl) (fun _ _ => .free rfl) untagged

/-- `λx.λx.x x a`, where the first `x` of the body belongs to the outer binder. -/
def usedShadow : Term Tagged :=
  .abs ⟨"x", 1⟩ (.abs ⟨"x", 2⟩
    (.app (.app (.var ⟨"x", 1⟩) (.var ⟨"x", 2⟩)) (.var ⟨"a", 3⟩)))

/-- The outer binder is renamed, and not to the first letter, which is the name of a free
variable. -/
theorem untag_usedShadow :
    (usedShadow.Unshadowed ∧ usedShadow.Coherent) ∧
      AlphaEquivalent Tagged.name id usedShadow
        (.abs "b" (.abs "x" (.app (.app (.var "b") (.var "x")) (.var "a")))) := by
  have unshadowed : usedShadow.Unshadowed := by decide
  have coherent : usedShadow.Coherent := by decide
  have untagged : usedShadow.untag =
      .ok (.abs "b" (.abs "x" (.app (.app (.var "b") (.var "x")) (.var "a")))) := by decide
  exact ⟨⟨unshadowed, coherent⟩, untag_alphaEquivalent _ _ unshadowed coherent untagged⟩

end Redex
