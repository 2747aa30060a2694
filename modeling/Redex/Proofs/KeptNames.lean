import Redex.Proofs.Shadowing
import Redex.Proofs.Tagging

/-!
# Names that are kept

A term is tagged and untagged again, and the question is whether its names come back. A binder loses
its name when its scope mentions another variable of that name. In a term as it is written such a
variable can only belong to a binder further in, because a name stands for the innermost binder that
has it. So the names come back exactly if no binder has a rival in its scope: a binder of the same
name that claims an occurrence (`Unrivalled`). A binder of the same name that claims nothing does no
harm.

That names come back is a matter of the tagged term alone: it is so if in the scope of each binder
the binder's name has the binder's tag (`untagIn_nil_eq_iff`). Up to the first binder for which this
fails no binder has been renamed, and that one is given another name, whatever happens below. For a
tagged term whose occurrences follow the binders of their names, this is the same as having no
rivals, provided that the tags of nested binders differ.

A term whose names do not come back is untagged with other names and with the same bindings, or not
at all.
-/

set_option autoImplicit false

namespace Redex

/-! ## Untagging without renaming -/

namespace Renaming

variable {renamed inner : Renaming} {x : Tagged} {scope : Term Tagged}

/-- A binder keeps its name if it does not collide. -/
theorem enter_eq_keep_iff :
    renamed.enter x scope = .ok (x.name, inner) ↔
      renamed.collides x scope = false ∧ inner = renamed := by
  unfold enter
  cases collision : renamed.collides x scope with
  | true =>
      rw [if_pos rfl]
      refine iff_of_false (fun enters => ?_) fun both => Bool.noConfusion both.1
      obtain ⟨new, picked, chosen⟩ := exists_ok_of_bind enters
      obtain ⟨rfl, _⟩ := Prod.mk.inj (Except.ok.inj chosen)
      exact pick_not_mem picked (name_mem_taken collision)
  | false =>
      rw [if_neg Bool.false_ne_true]
      constructor
      · intro enters
        cases enters
        exact ⟨rfl, rfl⟩
      · rintro ⟨_, rfl⟩
        rfl

theorem collides_nil_eq_false_iff :
    collides [] x scope = false ↔ ∀ y ∈ scope.occurrences, y.name = x.name → y.tag = x.tag := by
  have shown : ∀ y : Tagged, display [] y = y.name := fun _ => rfl
  simp only [collides, List.any_eq_false, Bool.and_eq_true, decide_eq_true_eq, beq_iff_eq, shown,
    not_and]
  refine forall₂_congr fun y _ => ?_
  rw [not_imp_not]

end Renaming

namespace Term

/-- In the scope of each binder, the binder's name has the binder's tag. -/
def NamesSuffice : Term Tagged → Prop
  | var _ => True
  | app fn arg => fn.NamesSuffice ∧ arg.NamesSuffice
  | abs x body =>
      (∀ y ∈ body.occurrences, y.name = x.name → y.tag = x.tag) ∧ body.NamesSuffice
  | pi x dom cod =>
      dom.NamesSuffice ∧
        (∀ y ∈ cod.occurrences, y.name = x.name → y.tag = x.tag) ∧ cod.NamesSuffice
  | sort _ => True

/-- **Names come back exactly if they suffice**, whatever the tags are. -/
theorem untagIn_nil_eq_iff (u : Term Tagged) :
    u.untagIn [] = .ok (u.map Tagged.name) ↔ u.NamesSuffice := by
  induction u with
  | var x => exact iff_of_true rfl trivial
  | app fn arg ihFn ihArg =>
      constructor
      · intro untagged
        obtain ⟨fn', inFn, rest⟩ := exists_ok_of_bind untagged
        obtain ⟨arg', inArg, whole⟩ := exists_ok_of_bind rest
        obtain ⟨rfl, rfl⟩ := app.inj (Except.ok.inj whole)
        exact ⟨ihFn.1 inFn, ihArg.1 inArg⟩
      · rintro ⟨inFn, inArg⟩
        rw [untagIn, ihFn.2 inFn, ihArg.2 inArg]
        rfl
  | abs x body ih =>
      rw [NamesSuffice, ← Renaming.collides_nil_eq_false_iff]
      constructor
      · intro untagged
        obtain ⟨⟨name, inner⟩, enters, rest⟩ := exists_ok_of_bind untagged
        obtain ⟨body', inBody, whole⟩ := exists_ok_of_bind rest
        obtain ⟨rfl, rfl⟩ := abs.inj (Except.ok.inj whole)
        obtain ⟨apart, rfl⟩ := Renaming.enter_eq_keep_iff.1 enters
        exact ⟨apart, ih.1 inBody⟩
      · rintro ⟨apart, inBody⟩
        rw [untagIn, Renaming.enter_eq_keep_iff.2 ⟨apart, rfl⟩]
        simp only [bind, Except.bind, ih.2 inBody]
        rfl
  | pi x dom cod ihDom ihCod =>
      rw [NamesSuffice, ← Renaming.collides_nil_eq_false_iff]
      constructor
      · intro untagged
        obtain ⟨dom', inDom, rest⟩ := exists_ok_of_bind untagged
        obtain ⟨⟨name, inner⟩, enters, rest⟩ := exists_ok_of_bind rest
        obtain ⟨cod', inCod, whole⟩ := exists_ok_of_bind rest
        obtain ⟨rfl, rfl, rfl⟩ := pi.inj (Except.ok.inj whole)
        obtain ⟨apart, rfl⟩ := Renaming.enter_eq_keep_iff.1 enters
        exact ⟨ihDom.1 inDom, apart, ihCod.1 inCod⟩
      · rintro ⟨inDom, apart, inCod⟩
        rw [untagIn, ihDom.2 inDom, Renaming.enter_eq_keep_iff.2 ⟨apart, rfl⟩]
        simp only [bind, Except.bind, ihCod.2 inCod]
        rfl
  | sort u => exact iff_of_true rfl trivial

/-! ## Rivals -/

/-- No binder of the term claims an occurrence of the name: wherever the name occurs in the term, it
is free. -/
def Unclaimed (x : Name) : Term Name → Prop
  | var _ => True
  | app fn arg => fn.Unclaimed x ∧ arg.Unclaimed x
  | abs y body => (y = x → ¬ body.HasFree x) ∧ body.Unclaimed x
  | pi y dom cod => dom.Unclaimed x ∧ (y = x → ¬ cod.HasFree x) ∧ cod.Unclaimed x
  | sort _ => True

/-- Every occurrence of a binder's name in the binder's scope belongs to this binder, and to no
binder further in. -/
def Unrivalled : Term Name → Prop
  | var _ => True
  | app fn arg => fn.Unrivalled ∧ arg.Unrivalled
  | abs x body => body.Unclaimed x ∧ body.Unrivalled
  | pi x dom cod => dom.Unrivalled ∧ cod.Unclaimed x ∧ cod.Unrivalled
  | sort _ => True

instance (t : Term Name) (x : Name) : Decidable (t.HasFree x) :=
  inferInstanceAs (Decidable (x ∈ t.freeOccurrences []))

instance decidableUnclaimed (x : Name) : (t : Term Name) → Decidable (t.Unclaimed x)
  | var _ => .isTrue trivial
  | app fn arg =>
      have := decidableUnclaimed x fn
      have := decidableUnclaimed x arg
      inferInstanceAs (Decidable (fn.Unclaimed x ∧ arg.Unclaimed x))
  | abs y body =>
      have := decidableUnclaimed x body
      inferInstanceAs (Decidable ((y = x → ¬ body.HasFree x) ∧ body.Unclaimed x))
  | pi y dom cod =>
      have := decidableUnclaimed x dom
      have := decidableUnclaimed x cod
      inferInstanceAs
        (Decidable (dom.Unclaimed x ∧ (y = x → ¬ cod.HasFree x) ∧ cod.Unclaimed x))
  | sort _ => .isTrue trivial

instance decidableUnrivalled : (t : Term Name) → Decidable t.Unrivalled
  | var _ => .isTrue trivial
  | app fn arg =>
      have := decidableUnrivalled fn
      have := decidableUnrivalled arg
      inferInstanceAs (Decidable (fn.Unrivalled ∧ arg.Unrivalled))
  | abs x body =>
      have := decidableUnrivalled body
      inferInstanceAs (Decidable (body.Unclaimed x ∧ body.Unrivalled))
  | pi x dom cod =>
      have := decidableUnrivalled dom
      have := decidableUnrivalled cod
      inferInstanceAs (Decidable (dom.Unrivalled ∧ cod.Unclaimed x ∧ cod.Unrivalled))
  | sort _ => .isTrue trivial

/-- A name that no binder of a term claims is free in it if it occurs at all. -/
theorem Unclaimed.hasFree {x : Name} {t : Term Name} (unclaimed : t.Unclaimed x)
    (occurs : x ∈ t.occurrences) : t.HasFree x := by
  induction t with
  | var y => exact hasFree_var.2 (List.mem_singleton.1 occurs)
  | app fn arg ihFn ihArg =>
      rw [hasFree_app]
      exact (List.mem_append.1 occurs).imp (ihFn unclaimed.1) (ihArg unclaimed.2)
  | abs y body ih =>
      have inBody := ih unclaimed.2 occurs
      exact hasFree_abs.2 ⟨inBody, fun same => unclaimed.1 same.symm inBody⟩
  | pi y dom cod ihDom ihCod =>
      rw [hasFree_pi_iff_abs, hasFree_abs]
      refine (List.mem_append.1 occurs).imp (ihDom unclaimed.1) fun inside => ?_
      have inCod := ihCod unclaimed.2.2 inside
      exact ⟨inCod, fun same => unclaimed.2.1 same.symm inCod⟩
  | sort u => exact absurd occurs List.not_mem_nil

/-! ## Names and tags -/

section Resolved

variable {free : Name → Tag}

theorem occurrences_map {ι ι' : Type} (f : ι → ι') (t : Term ι) :
    (t.map f).occurrences = t.occurrences.map f := by
  induction t with
  | var x => rfl
  | app fn arg ihFn ihArg => simp only [map, occurrences, ihFn, ihArg, List.map_append]
  | abs x body ih => simp only [map, occurrences, ih]
  | pi x dom cod ihDom ihCod => simp only [map, occurrences, ihDom, ihCod, List.map_append]
  | sort u => rfl

/-- An occurrence that only a binder around can claim has the tag of the first binder around that
has its name. -/
theorem Resolves.tag_eq {u : Term Tagged} {x : Name} {z : Tagged} :
    ∀ {around : List Tagged}, u.Resolves free around → around.find? (·.name = x) = some z →
      (u.map Tagged.name).Unclaimed x → ∀ y ∈ u.occurrences, y.name = x → y.tag = z.tag := by
  -- a binder of the name claims nothing, and another binder changes nothing
  have below : ∀ {around : List Tagged} {w : Tagged} {body : Term Tagged},
      (∀ {around : List Tagged}, body.Resolves free around →
        around.find? (·.name = x) = some z → (body.map Tagged.name).Unclaimed x →
          ∀ y ∈ body.occurrences, y.name = x → y.tag = z.tag) →
      body.Resolves free (w :: around) → around.find? (·.name = x) = some z →
      (w.name = x → ¬ (body.map Tagged.name).HasFree x) → (body.map Tagged.name).Unclaimed x →
        ∀ y ∈ body.occurrences, y.name = x → y.tag = z.tag := by
    intro around w body ih resolves first noRival unclaimed y occurs name
    by_cases same : w.name = x
    · have inNames : x ∈ (body.map Tagged.name).occurrences := by
        rw [occurrences_map, ← name]
        exact List.mem_map_of_mem occurs
      exact absurd (unclaimed.hasFree inNames) (noRival same)
    · refine ih resolves ?_ unclaimed y occurs name
      rwa [List.find?_cons_of_neg (by simpa using same)]
  induction u with
  | var w =>
      intro around resolves first _ y occurs name
      have isVar := List.mem_singleton.1 occurs
      subst isVar name
      simpa only [Resolves, first] using resolves
  | app fn arg ihFn ihArg =>
      intro around resolves first unclaimed y occurs
      rcases List.mem_append.1 occurs with inFn | inArg
      · exact ihFn resolves.1 first unclaimed.1 y inFn
      · exact ihArg resolves.2 first unclaimed.2 y inArg
  | abs w body ih =>
      intro around resolves first unclaimed y occurs
      have inBody : body.Resolves free (w :: around) := resolves
      exact below ih inBody first unclaimed.1 unclaimed.2 y occurs
  | pi w dom cod ihDom ihCod =>
      intro around resolves first unclaimed y occurs
      rcases List.mem_append.1 occurs with inDom | inCod
      · exact ihDom resolves.1 first unclaimed.1 y inDom
      · exact below ihCod resolves.2 first unclaimed.2.1 unclaimed.2.2 y inCod
  | sort v => exact fun _ _ _ y none => absurd none List.not_mem_nil

/-- Binders without rivals are the only ones that are meant by their names. -/
theorem Resolves.namesSuffice {u : Term Tagged} :
    ∀ {around : List Tagged}, u.Resolves free around → (u.map Tagged.name).Unrivalled →
      u.NamesSuffice := by
  induction u with
  | var x => exact fun _ _ => trivial
  | app fn arg ihFn ihArg =>
      exact fun resolves unrivalled =>
        ⟨ihFn resolves.1 unrivalled.1, ihArg resolves.2 unrivalled.2⟩
  | abs x body ih =>
      intro around resolves unrivalled
      have inBody : body.Resolves free (x :: around) := resolves
      exact ⟨inBody.tag_eq (by simp) unrivalled.1, ih inBody unrivalled.2⟩
  | pi x dom cod ihDom ihCod =>
      intro around resolves unrivalled
      exact ⟨ihDom resolves.1 unrivalled.1, resolves.2.tag_eq (by simp) unrivalled.2.1,
        ihCod resolves.2 unrivalled.2.2⟩
  | sort v => exact fun _ _ => trivial

/-- A name that is free in the term as written occurs with the tag of the first binder around that
has it. -/
theorem Resolves.exists_of_hasFree {u : Term Tagged} {x : Name} {z : Tagged} :
    ∀ {around : List Tagged}, u.Resolves free around → around.find? (·.name = x) = some z →
      (u.map Tagged.name).HasFree x → ∃ y ∈ u.occurrences, y.name = x ∧ y.tag = z.tag := by
  induction u with
  | var w =>
      intro around resolves first occurs
      have name : x = w.name := hasFree_var.1 occurs
      subst name
      refine ⟨w, List.mem_singleton.2 rfl, rfl, ?_⟩
      simpa only [Resolves, first] using resolves
  | app fn arg ihFn ihArg =>
      intro around resolves first occurs
      rcases hasFree_app.1 occurs with inFn | inArg
      · obtain ⟨y, member, found⟩ := ihFn resolves.1 first inFn
        exact ⟨y, List.mem_append_left _ member, found⟩
      · obtain ⟨y, member, found⟩ := ihArg resolves.2 first inArg
        exact ⟨y, List.mem_append_right _ member, found⟩
  | abs w body ih =>
      intro around resolves first occurs
      obtain ⟨inBody, other⟩ := hasFree_abs.1 occurs
      refine ih resolves ?_ inBody
      rwa [List.find?_cons_of_neg (by simpa using fun same => other same.symm)]
  | pi w dom cod ihDom ihCod =>
      intro around resolves first occurs
      rcases hasFree_pi.1 occurs with inDom | ⟨inCod, other⟩
      · obtain ⟨y, member, found⟩ := ihDom resolves.1 first inDom
        exact ⟨y, List.mem_append_left _ member, found⟩
      · have first' : (w :: around).find? (·.name = x) = some z := by
          rwa [List.find?_cons_of_neg (by simpa using fun same => other same.symm)]
        obtain ⟨y, member, found⟩ := ihCod resolves.2 first' inCod
        exact ⟨y, List.mem_append_right _ member, found⟩
  | sort v => exact fun _ _ occurs => absurd occurs not_hasFree_sort

/-- If a name has one tag throughout a term, and no binder of the term has this tag, then none of
them claims the name. -/
theorem Resolves.unclaimed {u : Term Tagged} {x : Name} {tag : Tag} :
    ∀ {around : List Tagged}, u.Resolves free around → (∀ z ∈ u.binders, z.tag ≠ tag) →
      (∀ y ∈ u.occurrences, y.name = x → y.tag = tag) → (u.map Tagged.name).Unclaimed x := by
  have noRival : ∀ {around : List Tagged} {w : Tagged} {body : Term Tagged},
      body.Resolves free (w :: around) → w.tag ≠ tag →
      (∀ y ∈ body.occurrences, y.name = x → y.tag = tag) →
        w.name = x → ¬ (body.map Tagged.name).HasFree x := by
    intro around w body resolves other one same occurs
    obtain ⟨y, member, name, claimed⟩ := resolves.exists_of_hasFree (z := w) (by simp [same]) occurs
    exact other (claimed.symm.trans (one y member name))
  induction u with
  | var w => exact fun _ _ _ => trivial
  | app fn arg ihFn ihArg =>
      intro around resolves others one
      exact ⟨ihFn resolves.1 (fun z member => others z (mem_binders_app.2 (.inl member)))
          fun y member => one y (List.mem_append_left _ member),
        ihArg resolves.2 (fun z member => others z (mem_binders_app.2 (.inr member)))
          fun y member => one y (List.mem_append_right _ member)⟩
  | abs w body ih =>
      intro around resolves others one
      exact ⟨noRival resolves (others w (mem_binders_abs.2 (.inl rfl))) one,
        ih resolves (fun z member => others z (mem_binders_abs.2 (.inr member))) one⟩
  | pi w dom cod ihDom ihCod =>
      intro around resolves others one
      have inCod : ∀ y ∈ cod.occurrences, y.name = x → y.tag = tag :=
        fun y member => one y (List.mem_append_right _ member)
      exact ⟨ihDom resolves.1 (fun z member => others z (mem_binders_pi.2 (.inr (.inl member))))
          fun y member => one y (List.mem_append_left _ member),
        noRival resolves.2 (others w (mem_binders_pi.2 (.inl rfl))) inCod,
        ihCod resolves.2 (fun z member => others z (mem_binders_pi.2 (.inr (.inr member)))) inCod⟩
  | sort v => exact fun _ _ _ => trivial

/-- Binders that are the only ones meant by their names have no rivals. -/
theorem Resolves.unrivalled {u : Term Tagged} :
    ∀ {around : List Tagged}, u.Resolves free around → u.Unshadowed → u.NamesSuffice →
      (u.map Tagged.name).Unrivalled := by
  induction u with
  | var x => exact fun _ _ _ => trivial
  | app fn arg ihFn ihArg =>
      exact fun resolves unshadowed suffice =>
        ⟨ihFn resolves.1 unshadowed.1 suffice.1, ihArg resolves.2 unshadowed.2 suffice.2⟩
  | abs x body ih =>
      intro around resolves unshadowed suffice
      have inBody : body.Resolves free (x :: around) := resolves
      exact ⟨inBody.unclaimed unshadowed.1 suffice.1, ih inBody unshadowed.2 suffice.2⟩
  | pi x dom cod ihDom ihCod =>
      intro around resolves unshadowed suffice
      exact ⟨ihDom resolves.1 unshadowed.1 suffice.1,
        resolves.2.unclaimed unshadowed.2.1 suffice.2.1,
        ihCod resolves.2 unshadowed.2.2 suffice.2.2⟩
  | sort v => exact fun _ _ _ => trivial

/-! ## A tagged term and its names -/

/-- The binders around, as pairs of a tag and a name. -/
def pairsOf (around : List Tagged) : List (Tag × Name) := around.map fun z => (z.tag, z.name)

/-- An occurrence and its name belong to the same binder around, if the binders around have tags of
their own and none of them has the tag of a free name. -/
theorem corresponds_name {y : Tagged} {around : List Tagged}
    (distinct : (around.map Tagged.tag).Nodup)
    (tag : y.tag = match around.find? (·.name = y.name) with
      | some binder => binder.tag
      | none => free y.name)
    (apart : (∀ z ∈ around, z.name ≠ y.name) → ∀ z ∈ around, free y.name ≠ z.tag) :
    Corresponds Tagged.name id (pairsOf around) y y.name := by
  induction around with
  | nil => exact .free rfl
  | cons z around ih =>
      rw [List.map_cons, List.nodup_cons] at distinct
      by_cases same : z.name = y.name
      · rw [List.find?_cons_of_pos (by simpa using same)] at tag
        exact .here _ tag same.symm
      · rw [List.find?_cons_of_neg (by simpa using same)] at tag
        have other : y.tag ≠ z.tag := by
          rw [tag]
          split
          · next binder found =>
              intro equal
              rw [← equal] at distinct
              exact distinct.1 (List.mem_map_of_mem (List.mem_of_find?_eq_some found))
          · next none =>
              have others : ∀ w ∈ around, w.name ≠ y.name := by simpa using none
              exact apart (List.forall_mem_cons.2 ⟨same, others⟩) z List.mem_cons_self
        refine .there other (Ne.symm same) (ih distinct.2 tag fun none w member => ?_)
        exact apart (List.forall_mem_cons.2 ⟨same, none⟩) w (List.mem_cons_of_mem _ member)

/-- **A tagged term is α-equivalent to the term that is left when its tags are taken away**, if its
occurrences follow the binders of their names and no tag serves two of them. -/
theorem Resolves.alike {u : Term Tagged} :
    ∀ {around : List Tagged}, u.Resolves free around → u.Unshadowed → Clear free around u →
      (around.map Tagged.tag).Nodup →
      (∀ x, Meets around (u.map Tagged.name) x → ∀ z ∈ around, free x ≠ z.tag) →
        Alike Tagged.name id (pairsOf around) u (u.map Tagged.name) := by
  -- one more binder around
  have distinct : ∀ {around : List Tagged} {x : Tagged} {body : Term Tagged},
      Clear free around (abs x body) → (around.map Tagged.tag).Nodup →
        ((x :: around).map Tagged.tag).Nodup := by
    intro around x body clear nodup
    rw [List.map_cons, List.nodup_cons]
    refine ⟨fun member => ?_, nodup⟩
    obtain ⟨w, inAround, same⟩ := List.mem_map.1 member
    exact (clear x (mem_binders_abs.2 (.inl rfl))).1 w inAround same
  have apart : ∀ {around : List Tagged} {x : Tagged} {body : Term Tagged},
      Clear free around (abs x body) →
      (∀ y, Meets around ((abs x body).map Tagged.name) y → ∀ z ∈ around, free y ≠ z.tag) →
        ∀ y, Meets (x :: around) (body.map Tagged.name) y → ∀ z ∈ x :: around, free y ≠ z.tag := by
    intro around x body clear outside y meets
    have meets := (TaggedAs.meets_below y).1 meets
    exact List.forall_mem_cons.2
      ⟨(clear x (mem_binders_abs.2 (.inl rfl))).2 y meets, outside y meets⟩
  induction u with
  | var y =>
      intro around resolves _ _ nodup outside
      refine .var (corresponds_name nodup resolves fun none => ?_)
      exact outside y.name ⟨hasFree_var.2 rfl, none⟩
  | app fn arg ihFn ihArg =>
      intro around resolves unshadowed clear nodup outside
      exact .app
        (ihFn resolves.1 unshadowed.1 clear.appFn nodup fun x meets =>
          outside x ⟨hasFree_app.2 (.inl meets.1), meets.2⟩)
        (ihArg resolves.2 unshadowed.2 clear.appArg nodup fun x meets =>
          outside x ⟨hasFree_app.2 (.inr meets.1), meets.2⟩)
  | abs x body ih =>
      intro around resolves unshadowed clear nodup outside
      exact .abs (ih resolves unshadowed.2 (clear.absBody unshadowed.1) (distinct clear nodup)
        (apart clear outside))
  | pi x dom cod ihDom ihCod =>
      intro around resolves unshadowed clear nodup outside
      have inScope : ∀ y, Meets around ((abs x cod).map Tagged.name) y →
          ∀ z ∈ around, free y ≠ z.tag := fun y meets =>
        outside y ⟨hasFree_pi_iff_abs.2 (.inr meets.1), meets.2⟩
      exact .pi
        (ihDom resolves.1 unshadowed.1 clear.piDom nodup fun y meets =>
          outside y ⟨hasFree_pi_iff_abs.2 (.inl meets.1), meets.2⟩)
        (ihCod resolves.2 unshadowed.2.2 (clear.piAbs.absBody unshadowed.2.1)
          (distinct clear.piAbs nodup) (apart clear.piAbs inScope))
  | sort v => exact fun _ _ _ _ _ => .sort v

/-- A term is α-equivalent to its tagged form. -/
theorem Identifies.nameless_eq {t : Term Name} {u : Term Tagged} (identifies : Identifies t free u) :
    u.nameless Tagged.name = t.nameless id := by
  have none : ∀ z : Tagged, z ∉ ([] : List Tagged) := fun _ => List.not_mem_nil
  have alike := identifies.resolves.alike identifies.wellTagged.unshadowed identifies.clear
    List.nodup_nil fun _ _ z member => absurd member (none z)
  rw [identifies.names] at alike
  exact alphaEquivalent_iff_nameless_eq.1 alike

end Resolved

end Term

/-! ## Other names for binders -/

section Bare

variable {pairs : List (Name × Name)} {t b : Term Name} {x y : Name}

theorem Corresponds.eq_of_pairs (corresponds : Corresponds id id pairs x y) :
    (∀ pair ∈ pairs, pair.1 = pair.2) → x = y := by
  induction corresponds with
  | free same => exact fun _ => same
  | here pairs same same' =>
      intro equal
      exact same.trans ((equal _ List.mem_cons_self).trans same'.symm)
  | there _ _ _ ih =>
      intro equal
      exact ih fun pair member => equal pair (List.mem_cons_of_mem _ member)

theorem Alike.length_binders (alike : Alike id id pairs t b) :
    t.binders.length = b.binders.length := by
  induction alike with
  | var _ => rfl
  | app _ _ ihFn ihArg => simp only [Term.binders, List.length_append, ihFn, ihArg]
  | abs _ ih => simp only [Term.binders, List.length_cons, ih]
  | pi _ _ ihDom ihCod =>
      simp only [Term.binders, List.length_cons, List.length_append, ihDom, ihCod]
  | sort u => rfl

/-- Terms that are α-equivalent and have the same names for their binders are the same. -/
theorem Alike.eq_of_binders (alike : Alike id id pairs t b) :
    (∀ pair ∈ pairs, pair.1 = pair.2) → t.binders = b.binders → t = b := by
  induction alike with
  | var corresponds => exact fun equal _ => congrArg Term.var (corresponds.eq_of_pairs equal)
  | app inFn inArg ihFn ihArg =>
      intro equal names
      obtain ⟨fnNames, argNames⟩ := List.append_inj names inFn.length_binders
      rw [ihFn equal fnNames, ihArg equal argNames]
  | abs inBody ih =>
      intro equal names
      obtain ⟨rfl, bodyNames⟩ := List.cons.inj names
      rw [ih (List.forall_mem_cons.2 ⟨rfl, equal⟩) bodyNames]
  | pi inDom inCod ihDom ihCod =>
      intro equal names
      obtain ⟨rfl, inside⟩ := List.cons.inj names
      obtain ⟨domNames, codNames⟩ := List.append_inj inside inDom.length_binders
      rw [ihDom equal domNames, ihCod (List.forall_mem_cons.2 ⟨rfl, equal⟩) codNames]
  | sort u => exact fun _ _ => rfl

end Bare

/-! ## Tagging and untagging -/

open Term

/-- **The names of a term come back exactly if no binder has a rival.** Let there be a tag for each
binder and each free name, of which there are as many as words. Tagging and untagging give back the
very term if and only if every occurrence of a binder's name in its scope belongs to this binder. In
all other cases untagging runs out of names, or gives an α-equivalent term in which some binder has
another name. -/
theorem untag_tag_eq_iff (t : Term Name) (enough : t.binders.length + t.free.length ≤ Int64.size) :
    (t.tag.untag = .ok t ↔ t.Unrivalled) ∧
      (¬ t.Unrivalled →
        (∃ failure : NamesExhausted, t.tag.untag = .error failure) ∨
          ∃ b, t.tag.untag = .ok b ∧ AlphaEquivalent id id t b ∧ b.binders ≠ t.binders) := by
  have identifies := (taggedAs_tagWith t .start).identifies_of_nodup
    (Generator.nodup_minted_of_le .start enough)
  have unshadowed := identifies.wellTagged.unshadowed
  have exact : t.tag.untag = .ok t ↔ t.Unrivalled := by
    have suffice := untagIn_nil_eq_iff t.tag
    have names : t.tag.map Tagged.name = t := identifies.names
    rw [names] at suffice
    refine suffice.trans ⟨fun suffice => ?_, fun unrivalled => ?_⟩
    · have unrivalled := identifies.resolves.unrivalled unshadowed suffice
      rwa [identifies.names] at unrivalled
    · exact identifies.resolves.namesSuffice (identifies.names.symm ▸ unrivalled)
  refine ⟨exact, fun rivalled => ?_⟩
  cases untagged : t.tag.untag with
  | error failure => exact .inl ⟨failure, rfl⟩
  | ok b =>
      have alike : AlphaEquivalent Tagged.name id t.tag b :=
        t.tag.alike_of_untagIn unshadowed identifies.coherent (fun _ _ => rfl)
          (fun _ _ => .free rfl) untagged
      have same : AlphaEquivalent id id t b := by
        rw [alphaEquivalent_iff_nameless_eq, ← identifies.nameless_eq]
        exact alphaEquivalent_iff_nameless_eq.1 alike
      refine .inr ⟨b, rfl, same, fun names => rivalled (exact.1 ?_)⟩
      rw [untagged, same.eq_of_binders (fun _ none => absurd none List.not_mem_nil) names.symm]

/-- `λx.x (λx.y)`, where the inner binder claims nothing. -/
def idleShadow : Term Name := .abs "x" (.app (.var "x") (.abs "x" (.var "y")))

/-- `λx.x (πx:x.x)`, where the product claims an occurrence in its codomain. -/
def rivalShadow : Term Name := .abs "x" (.app (.var "x") (.pi "x" (.var "x") (.var "x")))

/-- The first term comes back as it is, and in the second one the outer binder is renamed. -/
theorem untag_tag_shadows :
    (idleShadow.binders.length + idleShadow.free.length ≤ Int64.size ∧
        rivalShadow.binders.length + rivalShadow.free.length ≤ Int64.size) ∧
      (idleShadow.Unrivalled ∧ idleShadow.tag.untag = .ok idleShadow) ∧
      (¬ rivalShadow.Unrivalled ∧ rivalShadow.tag.untag ≠ .ok rivalShadow) ∧
      rivalShadow.tag.untag = .ok (.abs "a" (.app (.var "a") (.pi "x" (.var "a") (.var "x")))) ∧
      AlphaEquivalent id id rivalShadow
        (.abs "a" (.app (.var "a") (.pi "x" (.var "a") (.var "x")))) := by
  have idle : idleShadow.binders.length + idleShadow.free.length ≤ Int64.size := by decide
  have rival : rivalShadow.binders.length + rivalShadow.free.length ≤ Int64.size := by decide
  have unrivalled : idleShadow.Unrivalled := by decide
  have rivalled : ¬ rivalShadow.Unrivalled := by decide
  have untagged : rivalShadow.tag.untag =
      .ok (.abs "a" (.app (.var "a") (.pi "x" (.var "a") (.var "x")))) := by decide
  obtain ⟨back, other⟩ := untag_tag_eq_iff rivalShadow rival
  obtain ⟨failure, fails⟩ | ⟨b, result, alike, _⟩ := other rivalled
  · rw [untagged] at fails
    cases fails
  · obtain rfl := Except.ok.inj (result.symm.trans untagged)
    exact ⟨⟨idle, rival⟩, ⟨unrivalled, (untag_tag_eq_iff idleShadow idle).1.2 unrivalled⟩,
      ⟨rivalled, fun same => rivalled (back.1 same)⟩, untagged, alike⟩

end Redex
