import Redex.Name
import Redex.Proofs.Nameless.Substitution
import Redex.Term.Occurrence

/-!
# Binders, free occurrences and nameless images

The binders of a term are listed in the order in which they are written. An occurrence is free in a
term when no binder of the term claims it (`HasFree`), and what is free in a term follows from what
is free in its parts.

The nameless image of a term under some binders depends on its free occurrences only: an image
turns into another one by a renaming of indices as soon as the images of the free occurrences do
(`rename_namelessIn`). The case used most is a binder that claims nothing, which shifts the image
(`namelessIn_cons_of_not_free`).
-/

set_option autoImplicit false

namespace Redex.Term

variable {ι κ φ : Type}

/-! ## Binders -/

/-- The binders, from left to right. -/
def binders : Term ι → List ι
  | var _ => []
  | app fn arg => fn.binders ++ arg.binders
  | abs x body => x :: body.binders
  | pi x dom cod => x :: (dom.binders ++ cod.binders)
  | sort _ => []

@[simp] theorem not_mem_binders_var {x z : ι} : z ∉ (var x).binders := List.not_mem_nil

@[simp] theorem mem_binders_app {fn arg : Term ι} {z : ι} :
    z ∈ (app fn arg).binders ↔ z ∈ fn.binders ∨ z ∈ arg.binders :=
  List.mem_append

@[simp] theorem mem_binders_abs {x z : ι} {body : Term ι} :
    z ∈ (abs x body).binders ↔ z = x ∨ z ∈ body.binders :=
  List.mem_cons

@[simp] theorem mem_binders_pi {x z : ι} {dom cod : Term ι} :
    z ∈ (pi x dom cod).binders ↔ z = x ∨ z ∈ dom.binders ∨ z ∈ cod.binders := by
  rw [binders, List.mem_cons, List.mem_append]

@[simp] theorem not_mem_binders_sort {u : Universe} {z : ι} : z ∉ (sort u : Term ι).binders :=
  List.not_mem_nil

theorem mem_identifiers_of_mem_binders {t : Term ι} {x : ι} (member : x ∈ t.binders) :
    x ∈ t.identifiers := by
  induction t with
  | var y => exact absurd member not_mem_binders_var
  | app fn arg ihFn ihArg =>
      rcases mem_binders_app.1 member with inFn | inArg
      · exact List.mem_append_left _ (ihFn inFn)
      · exact List.mem_append_right _ (ihArg inArg)
  | abs y body ih =>
      rcases mem_binders_abs.1 member with rfl | inBody
      · exact List.mem_cons_self
      · exact List.mem_cons_of_mem y (ih inBody)
  | pi y dom cod ihDom ihCod =>
      rcases mem_binders_pi.1 member with rfl | inDom | inCod
      · exact List.mem_cons_self
      · exact List.mem_cons_of_mem y (List.mem_append_left _ (ihDom inDom))
      · exact List.mem_cons_of_mem y (List.mem_append_right _ (ihCod inCod))
  | sort u => exact absurd member not_mem_binders_sort

theorem mem_identifiers_of_mem_occurrences {t : Term ι} {x : ι} (member : x ∈ t.occurrences) :
    x ∈ t.identifiers := by
  induction t with
  | var y => exact member
  | app fn arg ihFn ihArg =>
      rcases List.mem_append.1 member with inFn | inArg
      · exact List.mem_append_left _ (ihFn inFn)
      · exact List.mem_append_right _ (ihArg inArg)
  | abs y body ih => exact List.mem_cons_of_mem y (ih member)
  | pi y dom cod ihDom ihCod =>
      refine List.mem_cons_of_mem y ?_
      rcases List.mem_append.1 member with inDom | inCod
      · exact List.mem_append_left _ (ihDom inDom)
      · exact List.mem_append_right _ (ihCod inCod)
  | sort u => exact member

theorem binders_map {ι' : Type} (f : ι → ι') (t : Term ι) :
    (t.map f).binders = t.binders.map f := by
  induction t with
  | var x => rfl
  | app fn arg ihFn ihArg => simp only [map, binders, ihFn, ihArg, List.map_append]
  | abs x body ih => simp only [map, binders, ih, List.map_cons]
  | pi x dom cod ihDom ihCod =>
      simp only [map, binders, ihDom, ihCod, List.map_cons, List.map_append]
  | sort u => rfl

theorem identifiers_map {ι' : Type} (f : ι → ι') (t : Term ι) :
    (t.map f).identifiers = t.identifiers.map f := by
  induction t with
  | var x => rfl
  | app fn arg ihFn ihArg => simp only [map, identifiers, ihFn, ihArg, List.map_append]
  | abs x body ih => simp only [map, identifiers, ih, List.map_cons]
  | pi x dom cod ihDom ihCod =>
      simp only [map, identifiers, ihDom, ihCod, List.map_cons, List.map_append]
  | sort u => rfl

/-! ## Free occurrences -/

section Free

variable [Identifier ι κ] [DecidableEq κ]

/-- The identifier occurs in the term, and no binder of the term claims it there. -/
def HasFree (t : Term ι) (y : ι) : Prop := y ∈ t.freeOccurrences []

/-- A binder around a term takes away the occurrences of its key and no others. -/
theorem mem_freeOccurrences {t : Term ι} {y : ι} :
    ∀ bound : List κ,
      y ∈ t.freeOccurrences bound ↔ t.HasFree y ∧ Identifier.key y ∉ bound := by
  unfold HasFree
  induction t with
  | var x =>
      intro bound
      by_cases member : Identifier.key x ∈ bound
      · simp only [freeOccurrences, member, if_true]
        constructor
        · intro inNone
          cases inNone
        · rintro ⟨same, outside⟩
          rw [if_neg (List.not_mem_nil)] at same
          rw [List.mem_singleton.1 same] at outside
          exact absurd member outside
      · simp only [freeOccurrences, member, if_false, List.not_mem_nil, List.mem_singleton]
        constructor
        · rintro rfl
          exact ⟨rfl, member⟩
        · exact And.left
  | app fn arg ihFn ihArg =>
      intro bound
      simp only [freeOccurrences, List.mem_append]
      rw [ihFn bound, ihArg bound, or_and_right]
  | abs x body ih =>
      intro bound
      simp only [freeOccurrences]
      rw [ih (Identifier.key x :: bound), ih [Identifier.key x], List.mem_cons, not_or,
        List.mem_singleton, and_assoc]
  | pi x dom cod ihDom ihCod =>
      intro bound
      simp only [freeOccurrences, List.mem_append]
      rw [ihDom bound, ihCod (Identifier.key x :: bound), ihCod [Identifier.key x], List.mem_cons,
        not_or, List.mem_singleton, or_and_right, and_assoc]
  | sort u =>
      intro bound
      simp only [freeOccurrences, List.not_mem_nil, false_and]

@[simp] theorem hasFree_var {x y : ι} : (var x).HasFree y ↔ y = x := by
  simp [HasFree, freeOccurrences]

@[simp] theorem hasFree_app {fn arg : Term ι} {y : ι} :
    (app fn arg).HasFree y ↔ fn.HasFree y ∨ arg.HasFree y :=
  List.mem_append

@[simp] theorem hasFree_abs {x y : ι} {body : Term ι} :
    (abs x body).HasFree y ↔ body.HasFree y ∧ Identifier.key y ≠ Identifier.key x := by
  rw [HasFree, freeOccurrences, mem_freeOccurrences, List.mem_singleton]

@[simp] theorem hasFree_pi {x y : ι} {dom cod : Term ι} :
    (pi x dom cod).HasFree y ↔
      dom.HasFree y ∨ (cod.HasFree y ∧ Identifier.key y ≠ Identifier.key x) := by
  rw [HasFree, freeOccurrences, List.mem_append, mem_freeOccurrences [Identifier.key x],
    List.mem_singleton]
  exact Iff.rfl

/-- The occurrences free in a product are those of its domain and those of the abstraction of its
codomain. -/
theorem hasFree_pi_iff_abs {x y : ι} {dom cod : Term ι} :
    (pi x dom cod).HasFree y ↔ dom.HasFree y ∨ (abs x cod).HasFree y := by
  rw [hasFree_pi, hasFree_abs]

@[simp] theorem not_hasFree_sort {u : Universe} {y : ι} : ¬ (sort u : Term ι).HasFree y :=
  List.not_mem_nil

theorem mem_occurrences_of_hasFree {t : Term ι} {y : ι} (free : t.HasFree y) :
    y ∈ t.occurrences := by
  induction t with
  | var x => exact List.mem_singleton.2 (hasFree_var.1 free)
  | app fn arg ihFn ihArg =>
      rcases hasFree_app.1 free with inFn | inArg
      · exact List.mem_append_left _ (ihFn inFn)
      · exact List.mem_append_right _ (ihArg inArg)
  | abs x body ih => exact ih (hasFree_abs.1 free).1
  | pi x dom cod ihDom ihCod =>
      rcases hasFree_pi.1 free with inDom | ⟨inCod, _⟩
      · exact List.mem_append_left _ (ihDom inDom)
      · exact List.mem_append_right _ (ihCod inCod)
  | sort u => exact absurd free not_hasFree_sort

theorem mem_identifiers_of_hasFree {t : Term ι} {y : ι} (free : t.HasFree y) :
    y ∈ t.identifiers :=
  mem_identifiers_of_mem_occurrences (mem_occurrences_of_hasFree free)

/-- An identifier of a term occurs free in it or has the key of one of its binders. -/
theorem hasFree_or_of_mem_identifiers {t : Term ι} {y : ι} (member : y ∈ t.identifiers) :
    t.HasFree y ∨ ∃ z ∈ t.binders, Identifier.key z = Identifier.key y := by
  -- what the scope of a binder adds to the free occurrences is claimed by the binder
  have below : ∀ {x : ι} {body : Term ι},
      (body.HasFree y ∨ ∃ z ∈ body.binders, Identifier.key z = Identifier.key y) →
      (abs x body).HasFree y ∨ ∃ z ∈ (abs x body).binders, Identifier.key z = Identifier.key y := by
    rintro x body (free | ⟨z, inBody, same⟩)
    · by_cases claimed : Identifier.key y = Identifier.key x
      · exact .inr ⟨x, mem_binders_abs.2 (.inl rfl), claimed.symm⟩
      · exact .inl (hasFree_abs.2 ⟨free, claimed⟩)
    · exact .inr ⟨z, mem_binders_abs.2 (.inr inBody), same⟩
  induction t with
  | var x => exact .inl (hasFree_var.2 (List.mem_singleton.1 member))
  | app fn arg ihFn ihArg =>
      rcases List.mem_append.1 member with inFn | inArg
      · refine (ihFn inFn).imp (fun free => hasFree_app.2 (.inl free)) ?_
        rintro ⟨z, binds, same⟩
        exact ⟨z, mem_binders_app.2 (.inl binds), same⟩
      · refine (ihArg inArg).imp (fun free => hasFree_app.2 (.inr free)) ?_
        rintro ⟨z, binds, same⟩
        exact ⟨z, mem_binders_app.2 (.inr binds), same⟩
  | abs x body ih =>
      rcases List.mem_cons.1 member with rfl | inBody
      · exact .inr ⟨y, mem_binders_abs.2 (.inl rfl), rfl⟩
      · exact below (ih inBody)
  | pi x dom cod ihDom ihCod =>
      rcases List.mem_cons.1 member with rfl | inside
      · exact .inr ⟨y, mem_binders_pi.2 (.inl rfl), rfl⟩
      · rcases List.mem_append.1 inside with inDom | inCod
        · refine (ihDom inDom).imp (fun free => hasFree_pi.2 (.inl free)) ?_
          rintro ⟨z, binds, same⟩
          exact ⟨z, mem_binders_pi.2 (.inr (.inl binds)), same⟩
        · refine (below (x := x) (ihCod inCod)).imp
            (fun free => hasFree_pi_iff_abs.2 (.inr free)) ?_
          rintro ⟨z, binds, same⟩
          exact ⟨z, mem_binders_pi.2 ((mem_binders_abs.1 binds).imp_right .inr), same⟩
  | sort u => cases member

/-! ## Free variables -/

theorem mem_of_mem_firstOfEach {x : ι} {xs : List ι} (member : x ∈ firstOfEach xs) :
    x ∈ xs := by
  induction xs with
  | nil => exact member
  | cons first rest ih =>
      rcases List.mem_cons.1 member with rfl | inRest
      · exact List.mem_cons_self
      · exact List.mem_cons_of_mem _ (ih (List.mem_filter.1 inRest).1)

theorem exists_mem_firstOfEach {x : ι} {xs : List ι} (member : x ∈ xs) :
    ∃ y ∈ firstOfEach xs, Identifier.key y = Identifier.key x := by
  induction xs with
  | nil => exact absurd member List.not_mem_nil
  | cons first rest ih =>
      by_cases same : Identifier.key x = Identifier.key first
      · exact ⟨first, List.mem_cons_self, same.symm⟩
      · have inRest : x ∈ rest := by
          rcases List.mem_cons.1 member with rfl | inRest
          · exact absurd rfl same
          · exact inRest
        obtain ⟨y, found, key⟩ := ih inRest
        refine ⟨y, List.mem_cons_of_mem _ (List.mem_filter.2 ⟨found, decide_eq_true ?_⟩), key⟩
        rw [key]
        exact same

theorem nodup_firstOfEach (xs : List ι) : (firstOfEach xs).Nodup := by
  induction xs with
  | nil => exact List.nodup_nil
  | cons first rest ih =>
      refine List.nodup_cons.2 ⟨?_, ih.sublist List.filter_sublist⟩
      intro member
      exact of_decide_eq_true (List.mem_filter.1 member).2 rfl

/-- A name is a free variable of a term if it occurs free in it. -/
theorem mem_free {t : Term Name} {x : Name} : x ∈ t.free ↔ t.HasFree x := by
  refine ⟨mem_of_mem_firstOfEach, fun free => ?_⟩
  obtain ⟨y, found, same⟩ := exists_mem_firstOfEach free
  have same : y = x := same
  exact same ▸ found

end Free

/-! ## Nameless images -/

section Image

variable [Identifier ι κ] [DecidableEq κ] (reading : ι → φ)

theorem namelessIn_var_cons_self {y : ι} {key : κ} (same : Identifier.key y = key)
    (scope : List κ) : (var y).namelessIn reading (key :: scope) = .bound 0 := by
  simp [namelessIn, List.idxOf?, List.findIdx?_cons, same]

theorem namelessIn_var_cons_of_ne {y : ι} {key : κ} (other : Identifier.key y ≠ key)
    (scope : List κ) :
    (var y).namelessIn reading (key :: scope) = ((var y).namelessIn reading scope).shift := by
  have notEqual : ¬ key = Identifier.key y := fun same => other same.symm
  simp only [namelessIn, List.idxOf?, List.findIdx?_cons, beq_iff_eq, notEqual, if_false]
  cases List.findIdx? (fun k => k == Identifier.key y) scope with
  | none => rfl
  | some index => rfl

/-- **Images change by a renaming as soon as those of the free occurrences do.** -/
theorem rename_namelessIn (t : Term ι) :
    ∀ {ρ : Nat → Nat} {scope scope' : List κ},
      (∀ y, t.HasFree y → ((var y).namelessIn reading scope).rename ρ =
        (var y).namelessIn reading scope') →
      (t.namelessIn reading scope).rename ρ = t.namelessIn reading scope' := by
  -- below a binder, its own occurrences have index zero on both sides
  have below : ∀ (x : ι) (body : Term ι) {ρ : Nat → Nat} {scope scope' : List κ},
      (∀ y, body.HasFree y → Identifier.key y ≠ Identifier.key x →
        ((var y).namelessIn reading scope).rename ρ = (var y).namelessIn reading scope') →
      ∀ y, body.HasFree y →
        ((var y).namelessIn reading (Identifier.key x :: scope)).rename (Nameless.liftRenaming ρ) =
          (var y).namelessIn reading (Identifier.key x :: scope') := by
    intro x body ρ scope scope' agree y free
    by_cases same : Identifier.key y = Identifier.key x
    · rw [namelessIn_var_cons_self reading same, namelessIn_var_cons_self reading same]
      rfl
    · rw [namelessIn_var_cons_of_ne reading same, namelessIn_var_cons_of_ne reading same,
        Nameless.rename_liftRenaming_shift, agree y free same]
  induction t with
  | var x =>
      intro ρ scope scope' agree
      exact agree x (hasFree_var.2 rfl)
  | app fn arg ihFn ihArg =>
      intro ρ scope scope' agree
      have inFn := ihFn fun y free => agree y (hasFree_app.2 (.inl free))
      have inArg := ihArg fun y free => agree y (hasFree_app.2 (.inr free))
      simp only [namelessIn, Nameless.rename, inFn, inArg]
  | abs x body ih =>
      intro ρ scope scope' agree
      have inBody := ih (below x body fun y free other => agree y (hasFree_abs.2 ⟨free, other⟩))
      simp only [namelessIn, Nameless.rename, inBody]
  | pi x dom cod ihDom ihCod =>
      intro ρ scope scope' agree
      have inDom := ihDom fun y free => agree y (hasFree_pi.2 (.inl free))
      have inCod := ihCod
        (below x cod fun y free other => agree y (hasFree_pi.2 (.inr ⟨free, other⟩)))
      simp only [namelessIn, Nameless.rename, inDom, inCod]
  | sort u =>
      intro ρ scope scope' _
      rfl

/-- A binder that claims no occurrence of a term shifts its image. -/
theorem namelessIn_cons_of_not_free {t : Term ι} {key : κ}
    (unclaimed : ∀ y, t.HasFree y → Identifier.key y ≠ key) (scope : List κ) :
    t.namelessIn reading (key :: scope) = (t.namelessIn reading scope).shift := by
  refine (rename_namelessIn reading t fun y free => ?_).symm
  exact (namelessIn_var_cons_of_ne reading (unclaimed y free) scope).symm

end Image

end Redex.Term
