import Redex.Prelude.Basic
import Redex.Proofs.Nameless.Extensionality
import Redex.Proofs.Term.Scope

/-!
# Expansion by closed definitions

Expanding a term puts definitions in place of its free occurrences. This is said without the
function by `Replaces`: an occurrence that a binder around it claims stays, any other one turns into
what its name stands for, and everything else is kept. A name stands for its definition, or for
itself if it has none (`meaning`). If all free names are defined, only the definitions matter
(`replaces_expand`).

As definitions are closed, they bring in no free occurrence, whatever binders they end up under. So
what is free in an expanded term is what was free before and has no definition (`free_expand`), and
expanding once more changes nothing (`expand_expand`). No binder claims anything it did not claim
before: on nameless images, expanding is substitution for free variables, which moves what it puts in
past the binders on the way (`nameless_expand`).
-/

set_option autoImplicit false

namespace Redex

/-- Nothing occurs free in the term. -/
def Term.Closed (t : Term Name) : Prop := ∀ x, ¬ t.HasFree x

theorem Term.Closed.freeOccurrences {t : Term Name} (closed : t.Closed) (bound : List Name) :
    t.freeOccurrences bound = [] :=
  List.eq_nil_iff_forall_not_mem.2 fun x member =>
    closed x ((Term.mem_freeOccurrences bound).1 member).1

/-- The image of a closed term has no index for a binder around it, so no renaming changes it. -/
theorem Term.Closed.rename_nameless {φ : Type} {t : Term Name} (closed : t.Closed)
    (reading : Name → φ) (ρ : Nat → Nat) (scope : List Name) :
    (t.nameless reading).rename ρ = t.namelessIn reading scope :=
  rename_namelessIn reading t fun x occurs => absurd occurs (closed x)

theorem Term.Closed.shift_nameless {φ : Type} {t : Term Name} (closed : t.Closed)
    (reading : Name → φ) : (t.nameless reading).shift = t.nameless reading :=
  closed.rename_nameless reading Nat.succ []

/-- The image of a closed term is the same under all binders. -/
theorem Term.Closed.namelessIn_eq {φ : Type} {t : Term Name} (closed : t.Closed)
    (reading : Name → φ) (scope : List Name) :
    t.namelessIn reading scope = t.nameless reading := by
  rw [← closed.rename_nameless reading Nat.succ scope]
  exact closed.shift_nameless reading

theorem Term.mem_freeOccurrences_var {x : Name} {bound : List Name} (unclaimed : x ∉ bound) :
    x ∈ (Term.var x).freeOccurrences bound :=
  (Term.mem_freeOccurrences bound).2 ⟨Term.hasFree_var.2 rfl, unclaimed⟩

/-- The first names that satisfy a property are those of all first names that do. -/
theorem Term.firstOfEach_filter (property : Name → Bool) (xs : List Name) :
    firstOfEach (xs.filter property) = (firstOfEach xs).filter property := by
  induction xs with
  | nil => rfl
  | cons x rest ih =>
      cases holds : property x with
      | true =>
          rw [List.filter_cons_of_pos holds, firstOfEach, firstOfEach, ih,
            List.filter_cons_of_pos holds, List.filter_filter, List.filter_filter]
          simp only [Bool.and_comm]
      | false =>
          rw [List.filter_cons_of_neg (by simp [holds]), firstOfEach,
            List.filter_cons_of_neg (by simp [holds]), List.filter_filter, ih]
          -- names that satisfy the property are other names
          refine List.filter_congr fun y _ => ?_
          by_cases same : y = x
          · simp [same, holds]
          · simp [Identifier.key, same]

namespace Prelude

/-! ## Replacing free occurrences -/

/-- Under binders of the names `around`, `t'` is `t` with each free occurrence of a name replaced by
the definition of the name. -/
inductive Replaces (defs : Name → Option (Term Name)) :
    List Name → Term Name → Term Name → Prop where
  | bound {around : List Name} {x : Name} :
      x ∈ around → Replaces defs around (.var x) (.var x)
  | free {around : List Name} {x : Name} {d : Term Name} :
      x ∉ around → defs x = some d → Replaces defs around (.var x) d
  | app {around : List Name} {fn fn' arg arg' : Term Name} :
      Replaces defs around fn fn' → Replaces defs around arg arg' →
        Replaces defs around (.app fn arg) (.app fn' arg')
  | abs {around : List Name} {x : Name} {body body' : Term Name} :
      Replaces defs (x :: around) body body' → Replaces defs around (.abs x body) (.abs x body')
  | pi {around : List Name} {x : Name} {dom dom' cod cod' : Term Name} :
      Replaces defs around dom dom' → Replaces defs (x :: around) cod cod' →
        Replaces defs around (.pi x dom cod) (.pi x dom' cod')
  | sort (around : List Name) (u : Universe) : Replaces defs around (.sort u) (.sort u)

namespace Replaces

variable {defs defs' : Name → Option (Term Name)} {around : List Name} {t t' : Term Name}

/-- Only the definitions of free names matter. -/
theorem imp (replaces : Replaces defs around t t') :
    (∀ x ∈ t.freeOccurrences around, ∀ d, defs x = some d → defs' x = some d) →
      Replaces defs' around t t' := by
  induction replaces with
  | bound member => exact fun _ => .bound member
  | @free around x d unclaimed found =>
      intro kept
      have occurs := Term.mem_freeOccurrences_var unclaimed
      exact .free unclaimed (kept x occurs d found)
  | app _ _ ihFn ihArg =>
      intro kept
      obtain ⟨inFn, inArg⟩ := List.forall_mem_append.1 kept
      exact .app (ihFn inFn) (ihArg inArg)
  | abs _ ih => exact fun kept => .abs (ih kept)
  | pi _ _ ihDom ihCod =>
      intro kept
      obtain ⟨inDom, inCod⟩ := List.forall_mem_append.1 kept
      exact .pi (ihDom inDom) (ihCod inCod)
  | sort around u => exact fun _ => .sort around u

/-- More definitions change nothing. -/
theorem mono (kept : ∀ x d, defs x = some d → defs' x = some d)
    (replaces : Replaces defs around t t') : Replaces defs' around t t' :=
  replaces.imp fun x _ => kept x

/-- A term whose free names stand for themselves stays as it is. -/
theorem eq_self (replaces : Replaces defs around t t') :
    (∀ x ∈ t.freeOccurrences around, defs x = some (.var x)) → t' = t := by
  induction replaces with
  | bound _ => exact fun _ => rfl
  | @free around x d unclaimed found =>
      intro stays
      have occurs := Term.mem_freeOccurrences_var unclaimed
      have itself := stays x occurs
      rw [found] at itself
      exact Option.some.inj itself
  | app _ _ ihFn ihArg =>
      intro stays
      obtain ⟨inFn, inArg⟩ := List.forall_mem_append.1 stays
      rw [ihFn inFn, ihArg inArg]
  | abs _ ih =>
      intro stays
      rw [ih stays]
  | pi _ _ ihDom ihCod =>
      intro stays
      obtain ⟨inDom, inCod⟩ := List.forall_mem_append.1 stays
      rw [ihDom inDom, ihCod inCod]
  | sort => exact fun _ => rfl

/-- Free names are defined. -/
theorem isSome_of_hasFree (replaces : Replaces defs around t t') {x : Name} :
    t.HasFree x → x ∉ around → (defs x).isSome = true := by
  induction replaces with
  | bound member =>
      intro occurs outside
      exact absurd (Term.hasFree_var.1 occurs ▸ member) outside
  | free _ found =>
      intro occurs _
      rw [Term.hasFree_var.1 occurs, found]
      rfl
  | app _ _ ihFn ihArg =>
      intro occurs outside
      rcases Term.hasFree_app.1 occurs with inFn | inArg
      · exact ihFn inFn outside
      · exact ihArg inArg outside
  | abs _ ih =>
      intro occurs outside
      obtain ⟨inBody, other⟩ := Term.hasFree_abs.1 occurs
      exact ih inBody (List.not_mem_cons_of_ne_of_not_mem other outside)
  | pi _ _ ihDom ihCod =>
      intro occurs outside
      rcases Term.hasFree_pi.1 occurs with inDom | ⟨inCod, other⟩
      · exact ihDom inDom outside
      · exact ihCod inCod (List.not_mem_cons_of_ne_of_not_mem other outside)
  | sort => exact fun occurs => absurd occurs Term.not_hasFree_sort

end Replaces

variable {p : Prelude}

/-- What a name stands for: its definition, or the variable of that name. -/
def meaning (p : Prelude) (x : Name) : Term Name := (p.lookup? x).getD (.var x)

theorem meaning_of_some {x : Name} {d : Term Name} (found : p.lookup? x = some d) :
    p.meaning x = d := by
  rw [meaning, found, Option.getD_some]

theorem meaning_of_none {x : Name} (undefined : p.lookup? x = none) : p.meaning x = .var x := by
  rw [meaning, undefined, Option.getD_none]

theorem replaces_expandIn (p : Prelude) (t : Term Name) :
    ∀ around : List Name, Replaces (fun x => some (p.meaning x)) around t (p.expandIn around t) := by
  induction t with
  | var x =>
      intro around
      rw [expandIn]
      by_cases member : x ∈ around
      · rw [if_pos member]
        exact .bound member
      · rw [if_neg member]
        exact .free member rfl
  | app fn arg ihFn ihArg => exact fun around => .app (ihFn around) (ihArg around)
  | abs x body ih => exact fun around => .abs (ih (x :: around))
  | pi x dom cod ihDom ihCod => exact fun around => .pi (ihDom around) (ihCod (x :: around))
  | sort u => exact fun around => .sort around u

/-- **Expanding replaces each free occurrence by what its name stands for.** -/
theorem replaces_meaning (p : Prelude) (t : Term Name) :
    Replaces (fun x => some (p.meaning x)) [] t (p.expand t) :=
  replaces_expandIn p t []

/-- **Expanding replaces each free occurrence by the definition of its name**, if all of them are
defined. -/
theorem replaces_expand {t : Term Name} (defined : ∀ x, t.HasFree x → (p.lookup? x).isSome = true) :
    Replaces p.lookup? [] t (p.expand t) := by
  refine (replaces_meaning p t).imp fun x occurs d same => ?_
  obtain ⟨d', found⟩ := Option.isSome_iff_exists.1 (defined x occurs)
  rwa [found, ← meaning_of_some found]

/-- A term without defined names stays as it is. -/
theorem expand_eq_self {t : Term Name} (undefined : ∀ x, t.HasFree x → p.lookup? x = none) :
    p.expand t = t :=
  (replaces_meaning p t).eq_self fun x occurs => congrArg some (meaning_of_none (undefined x occurs))

/-! ## What is free afterwards -/

section Closed

variable (closed : ∀ x d, p.lookup? x = some d → d.Closed)

include closed

theorem freeOccurrences_expandIn (t : Term Name) :
    ∀ bound : List Name, (p.expandIn bound t).freeOccurrences bound =
      (t.freeOccurrences bound).filter fun x => (p.lookup? x).isNone := by
  induction t with
  | var x =>
      intro bound
      by_cases member : x ∈ bound
      · simp [expandIn, Term.freeOccurrences, Identifier.key, member]
      · cases found : p.lookup? x with
        | none => simp [expandIn, Term.freeOccurrences, Identifier.key, member, found]
        | some d =>
            have nothing := (closed x d found).freeOccurrences bound
            simp [expandIn, Term.freeOccurrences, Identifier.key, member, found, nothing]
  | app fn arg ihFn ihArg =>
      intro bound
      simp only [expandIn, Term.freeOccurrences, ihFn, ihArg, List.filter_append]
  | abs x body ih =>
      intro bound
      exact ih (x :: bound)
  | pi x dom cod ihDom ihCod =>
      intro bound
      have inCod := ihCod (x :: bound)
      simp only [expandIn, Term.freeOccurrences, ihDom, List.filter_append]
      exact congrArg _ inCod
  | sort u => exact fun _ => rfl

/-- **The free variables of an expanded term are those without a definition.** -/
theorem free_expand (t : Term Name) :
    (p.expand t).free = t.free.filter fun x => (p.lookup? x).isNone := by
  rw [Term.free, expand, freeOccurrences_expandIn closed, Term.firstOfEach_filter, Term.free]

/-- A name that is free in an expanded term was free before and has no definition. -/
theorem hasFree_expand {t : Term Name} {x : Name} :
    (p.expand t).HasFree x ↔ t.HasFree x ∧ p.lookup? x = none := by
  rw [← Term.mem_free, free_expand closed, List.mem_filter, Term.mem_free,
    Option.isNone_iff_eq_none]

/-- A term all of whose names are defined is closed by expanding it. -/
theorem closed_expand {t : Term Name} (defined : ∀ x, t.HasFree x → (p.lookup? x).isSome = true) :
    (p.expand t).Closed := by
  intro x occurs
  obtain ⟨inTerm, undefined⟩ := (hasFree_expand closed).1 occurs
  have found := defined x inTerm
  rw [undefined] at found
  cases found

/-- **Expanding once more changes nothing.** -/
theorem expand_expand (t : Term Name) : p.expand (p.expand t) = p.expand t :=
  expand_eq_self fun _ occurs => ((hasFree_expand closed).1 occurs).2

/-! ## Bindings -/

theorem shift_meaning (x : Name) :
    ((p.meaning x).nameless id).shift = (p.meaning x).nameless id := by
  cases found : p.lookup? x with
  | none =>
      rw [meaning_of_none found]
      rfl
  | some d =>
      rw [meaning_of_some found]
      exact (closed x d found).shift_nameless id

/-- What a name stands for has one image under all binders that do not claim the name. -/
theorem namelessIn_meaning {x : Name} {scope : List Name} (unclaimed : x ∉ scope) :
    (p.meaning x).namelessIn id scope = (p.meaning x).nameless id := by
  cases found : p.lookup? x with
  | none =>
      have outside : scope.idxOf? x = none := List.idxOf?_eq_none_iff.2 unclaimed
      rw [meaning_of_none found, Term.namelessIn]
      simp only [Identifier.key, outside]
      rfl
  | some d =>
      rw [meaning_of_some found]
      exact (closed x d found).namelessIn_eq id scope

theorem nameless_expandIn (t : Term Name) :
    ∀ scope : List Name, (p.expandIn scope t).namelessIn id scope =
      (t.namelessIn id scope).bindFree fun x => (p.meaning x).nameless id := by
  induction t with
  | var x =>
      intro scope
      rw [expandIn, Term.namelessIn]
      by_cases member : x ∈ scope
      · obtain ⟨index, found⟩ := Option.isSome_iff_exists.1 (List.isSome_idxOf?.2 member)
        rw [if_pos member, Term.namelessIn]
        simp only [Identifier.key, found]
        rfl
      · have outside : scope.idxOf? x = none := List.idxOf?_eq_none_iff.2 member
        rw [if_neg member]
        simp only [Identifier.key, outside]
        exact namelessIn_meaning closed member
  | app fn arg ihFn ihArg =>
      intro scope
      rw [expandIn, Term.namelessIn, Term.namelessIn, Nameless.bindFree, ihFn, ihArg]
  | abs x body ih =>
      intro scope
      rw [expandIn, Term.namelessIn, Term.namelessIn, Nameless.bindFree]
      simp only [shift_meaning closed]
      exact congrArg Nameless.abs (ih (x :: scope))
  | pi x dom cod ihDom ihCod =>
      intro scope
      rw [expandIn, Term.namelessIn, Term.namelessIn, Nameless.bindFree]
      simp only [shift_meaning closed]
      exact congrArg₂ Nameless.pi (ihDom scope) (ihCod (x :: scope))
  | sort u => exact fun _ => rfl

/-- **No variable changes its binder**: the nameless image of an expanded term is that of the term
with the images of what names stand for in place of its free variables. -/
theorem nameless_expand (t : Term Name) :
    (p.expand t).nameless id = (t.nameless id).bindFree fun x => (p.meaning x).nameless id :=
  nameless_expandIn closed t []

end Closed

end Prelude

end Redex
