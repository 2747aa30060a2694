import Redex.Proofs.Reduction.NormalForms

/-!
# Addresses of redexes

The address of a part is the list of turns that lead to it from the root. Addresses are listed in
two orders, that of a node before those inside its parts or after them, and those of the parts from
left to right in both. In the first order the redex met first is the leftmost of the outermost ones,
in the second the leftmost of the innermost ones.

A search may be confined to the addresses made of some turns only. Each normal form does so, and its
search finds nothing exactly when the normal form holds (`firstRedex_eq_none_iff`). For that, the
first redex of a term is told in terms of the first redexes of its parts.
-/

set_option autoImplicit false

namespace Redex

/-- One step down in a term. -/
inductive Turn where
  | fn
  | arg
  | body
  | dom
  | cod
deriving DecidableEq, Repr

/-- The turns that lead from the root of a term to one of its parts. -/
abbrev Address := List Turn

/-- Whether a node is visited before its parts or after them. -/
inductive WalkOrder where
  | before
  | after
deriving DecidableEq, Repr

/-- The addresses for a node, from those inside its parts. -/
def WalkOrder.visit (order : WalkOrder) (parts : List Address) : List Address :=
  match order with
  | before => [] :: parts
  | after => parts ++ [[]]

theorem WalkOrder.mem_visit {order : WalkOrder} {parts : List Address} {p : Address} :
    p ∈ order.visit parts ↔ p = [] ∨ p ∈ parts := by
  cases order with
  | before => exact List.mem_cons
  | after =>
      rw [WalkOrder.visit, List.mem_append, List.mem_singleton]
      exact or_comm

namespace Term

variable {ι : Type}

/-- The part at an address. -/
def at? : Term ι → Address → Option (Term ι)
  | t, [] => some t
  | app fn _, .fn :: p => fn.at? p
  | app _ arg, .arg :: p => arg.at? p
  | abs _ body, .body :: p => body.at? p
  | pi _ dom _, .dom :: p => dom.at? p
  | pi _ _ cod, .cod :: p => cod.at? p
  | _, _ :: _ => none

/-- The term with the part at an address replaced by another one. -/
def put : Term ι → Address → Term ι → Term ι
  | _, [], new => new
  | app fn arg, .fn :: p, new => app (fn.put p new) arg
  | app fn arg, .arg :: p, new => app fn (arg.put p new)
  | abs x body, .body :: p, new => abs x (body.put p new)
  | pi x dom cod, .dom :: p, new => pi x (dom.put p new) cod
  | pi x dom cod, .cod :: p, new => pi x dom (cod.put p new)
  | t, _ :: _, _ => t

/-- The addresses of all parts of a term. -/
def addresses (order : WalkOrder) : Term ι → List Address
  | var _ => order.visit []
  | app fn arg =>
    order.visit ((fn.addresses order).map (.fn :: ·) ++ (arg.addresses order).map (.arg :: ·))
  | abs _ body => order.visit ((body.addresses order).map (.body :: ·))
  | pi _ dom cod =>
    order.visit ((dom.addresses order).map (.dom :: ·) ++ (cod.addresses order).map (.cod :: ·))
  | sort _ => order.visit []

instance decidableIsRedex : (t : Term ι) → Decidable t.IsRedex
  | app (abs x body) arg => .isTrue ⟨x, body, arg, rfl⟩
  | app (var _) _ | app (app _ _) _ | app (pi _ _ _) _ | app (sort _) _ | var _ | abs _ _
  | pi _ _ _ | sort _ => .isFalse (by rintro ⟨x, body, arg, equal⟩; cases equal)

/-- A redex stands at the address. -/
def RedexAt (t : Term ι) (p : Address) : Prop := ∃ redex ∈ t.at? p, redex.IsRedex

instance (t : Term ι) (p : Address) : Decidable (t.RedexAt p) :=
  inferInstanceAs (Decidable (∃ redex ∈ t.at? p, redex.IsRedex))

/-- The first redex in the given order, among those at addresses made of the turns. -/
def firstRedex (order : WalkOrder) (enters : Turn → Bool) (t : Term ι) : Option Address :=
  (t.addresses order).find? fun p => (∀ turn ∈ p, enters turn = true) ∧ t.RedexAt p

@[simp] theorem at?_nil (t : Term ι) : t.at? [] = some t := by
  cases t <;> rfl

@[simp] theorem put_nil (t new : Term ι) : t.put [] new = new := by
  cases t <;> rfl

/-! ## Listed addresses -/

/-- **The address of every part is listed.** -/
theorem mem_addresses {order : WalkOrder} (t : Term ι) :
    ∀ {p : Address}, (t.at? p).isSome = true → p ∈ t.addresses order := by
  induction t with
  | var x =>
      intro p found
      match p, found with
      | [], _ => exact WalkOrder.mem_visit.2 (.inl rfl)
  | app fn arg ihFn ihArg =>
      intro p found
      refine WalkOrder.mem_visit.2 ?_
      rw [List.mem_append, List.mem_map, List.mem_map]
      match p, found with
      | [], _ => exact .inl rfl
      | .fn :: p, found => exact .inr (.inl ⟨p, ihFn found, rfl⟩)
      | .arg :: p, found => exact .inr (.inr ⟨p, ihArg found, rfl⟩)
  | abs x body ih =>
      intro p found
      refine WalkOrder.mem_visit.2 ?_
      rw [List.mem_map]
      match p, found with
      | [], _ => exact .inl rfl
      | .body :: p, found => exact .inr ⟨p, ih found, rfl⟩
  | pi x dom cod ihDom ihCod =>
      intro p found
      refine WalkOrder.mem_visit.2 ?_
      rw [List.mem_append, List.mem_map, List.mem_map]
      match p, found with
      | [], _ => exact .inl rfl
      | .dom :: p, found => exact .inr (.inl ⟨p, ihDom found, rfl⟩)
      | .cod :: p, found => exact .inr (.inr ⟨p, ihCod found, rfl⟩)
  | sort u =>
      intro p found
      match p, found with
      | [], _ => exact WalkOrder.mem_visit.2 (.inl rfl)

variable {order : WalkOrder} {enters : Turn → Bool} {t : Term ι} {p : Address}

/-- If there is a redex at all, a first one is found. -/
theorem exists_firstRedex (order : WalkOrder)
    (some : ∃ p : Address, (∀ turn ∈ p, enters turn = true) ∧ t.RedexAt p) :
    ∃ p, t.firstRedex order enters = .some p := by
  obtain ⟨p, entered, part, found, isRedex⟩ := some
  have listed : p ∈ t.addresses order := t.mem_addresses (Option.isSome_of_mem found)
  refine Option.isSome_iff_exists.1 (List.find?_isSome.2 ⟨p, listed, ?_⟩)
  exact decide_eq_true ⟨entered, part, found, isRedex⟩

theorem of_firstRedex (found : t.firstRedex order enters = some p) :
    (∀ turn ∈ p, enters turn = true) ∧ t.RedexAt p := by
  have sought := List.find?_some found
  exact of_decide_eq_true sought

theorem redexAt_nil : t.RedexAt [] ↔ t.IsRedex := by simp [RedexAt]

/-! ## The first redex in terms of the parts -/

/-- The first redex of a part, by its address in the whole. -/
def firstWithin (order : WalkOrder) (enters : Turn → Bool) (turn : Turn) (part : Term ι) :
    Option Address :=
  if enters turn = true then (part.firstRedex order enters).map (turn :: ·) else none

/-- What a search looks for. -/
abbrev Sought (enters : Turn → Bool) (t : Term ι) (p : Address) : Bool :=
  decide ((∀ turn ∈ p, enters turn = true) ∧ t.RedexAt p)

theorem sought_nil : t.Sought enters [] = decide t.IsRedex :=
  decide_eq_decide.2 (by simp [redexAt_nil])

theorem find?_part {turn : Turn} {whole part : Term ι}
    (below : ∀ p, whole.RedexAt (turn :: p) ↔ part.RedexAt p) :
    ((part.addresses order).map (turn :: ·)).find? (whole.Sought enters) =
      part.firstWithin order enters turn := by
  rw [List.find?_map, firstWithin]
  have pulled : whole.Sought enters ∘ (turn :: ·) =
      fun p => decide (enters turn = true) && part.Sought enters p := by
    funext p
    simp only [Function.comp, Sought, List.forall_mem_cons, below, ← Bool.decide_and, and_assoc]
  rw [pulled]
  by_cases entered : enters turn = true
  · simp only [entered, decide_true, Bool.true_and, if_true]
    rfl
  · simp [entered]

theorem find?_visit_of_not_isRedex {parts : List Address} (noRedex : ¬ t.IsRedex) :
    (order.visit parts).find? (t.Sought enters) = parts.find? (t.Sought enters) := by
  have skipped : ¬ t.Sought enters [] = true := by
    rw [sought_nil, decide_eq_true_iff]
    exact noRedex
  cases order with
  | before => rw [WalkOrder.visit, List.find?_cons_of_neg skipped]
  | after => rw [WalkOrder.visit, List.find?_append, List.find?_cons_of_neg skipped, List.find?_nil,
      Option.or_none]

section Equations

variable {x : ι} {fn arg body dom cod : Term ι} {u : Universe}

theorem firstRedex_var : (var x).firstRedex order enters = none := by
  have noRedex : ¬ (var x).IsRedex := by
    rintro ⟨y, body, arg, equal⟩
    cases equal
  exact find?_visit_of_not_isRedex noRedex

theorem firstRedex_sort : (sort u : Term ι).firstRedex order enters = none := by
  have noRedex : ¬ (sort u : Term ι).IsRedex := by
    rintro ⟨y, body, arg, equal⟩
    cases equal
  exact find?_visit_of_not_isRedex noRedex

theorem firstRedex_abs :
    (abs x body).firstRedex order enters = body.firstWithin order enters .body := by
  have noRedex : ¬ (abs x body).IsRedex := by
    rintro ⟨y, body, arg, equal⟩
    cases equal
  exact (find?_visit_of_not_isRedex noRedex).trans (find?_part fun _ => Iff.rfl)

theorem firstRedex_pi :
    (pi x dom cod).firstRedex order enters =
      (dom.firstWithin order enters .dom).or (cod.firstWithin order enters .cod) := by
  have noRedex : ¬ (pi x dom cod).IsRedex := by
    rintro ⟨y, body, arg, equal⟩
    cases equal
  refine (find?_visit_of_not_isRedex noRedex).trans ?_
  rw [List.find?_append]
  exact congrArg₂ Option.or (find?_part fun _ => Iff.rfl) (find?_part fun _ => Iff.rfl)

/-- The parts of an application that is no redex are searched from left to right. -/
theorem firstRedex_app_of_not_isAbs (notAbs : ¬ fn.IsAbs) :
    (app fn arg).firstRedex order enters =
      (fn.firstWithin order enters .fn).or (arg.firstWithin order enters .arg) := by
  have noRedex : ¬ (app fn arg).IsRedex := by
    rintro ⟨y, body, arg', equal⟩
    exact notAbs ⟨y, body, (app.inj equal).1⟩
  refine (find?_visit_of_not_isRedex noRedex).trans ?_
  rw [List.find?_append]
  exact congrArg₂ Option.or (find?_part fun _ => Iff.rfl) (find?_part fun _ => Iff.rfl)

theorem firstRedex_redex_before : (app (abs x body) arg).firstRedex .before enters = some [] := by
  have isRedex : (app (abs x body) arg).Sought enters [] = true := by
    rw [sought_nil, decide_eq_true_iff]
    exact ⟨x, body, arg, rfl⟩
  exact List.find?_cons_of_pos isRedex

theorem firstRedex_redex_after :
    (app (abs x body) arg).firstRedex .after enters =
      (((abs x body).firstWithin .after enters .fn).or (arg.firstWithin .after enters .arg)).or
        (some []) := by
  have isRedex : (app (abs x body) arg).Sought enters [] = true := by
    rw [sought_nil, decide_eq_true_iff]
    exact ⟨x, body, arg, rfl⟩
  refine List.find?_append.trans (congrArg₂ Option.or ?_ (List.find?_cons_of_pos isRedex))
  rw [List.find?_append]
  exact congrArg₂ Option.or (find?_part fun _ => Iff.rfl) (find?_part fun _ => Iff.rfl)

end Equations

end Term

/-! ## Normal forms -/

/-- Whether the places behind a turn count for the normal form. -/
def NormalForm.enters (form : NormalForm) : Turn → Bool
  | .fn => true
  | .arg => form.entersArguments
  | .body | .dom | .cod => form.entersBinders

open Term

variable {ι : Type} {order : WalkOrder} {form : NormalForm} {enters : Turn → Bool} {turn : Turn}
  {part : Term ι}

theorem Term.firstWithin_eq_none_iff :
    part.firstWithin order enters turn = none ↔
      (enters turn = true → part.firstRedex order enters = none) := by
  rw [firstWithin]
  split
  · next entered => simp [entered]
  · next skipped => simp [skipped]

theorem Term.firstWithin_eq_some_iff {p : Address} :
    part.firstWithin order enters turn = some p ↔
      enters turn = true ∧ ∃ q, part.firstRedex order enters = some q ∧ turn :: q = p := by
  rw [firstWithin]
  split
  · next entered => simp [entered]
  · next skipped => simp [skipped]

/-- **A search finds nothing exactly when the normal form holds.** -/
theorem Term.firstRedex_eq_none_iff (t : Term ι) :
    t.firstRedex order form.enters = none ↔ form.Holds t := by
  induction t with
  | var x => simp only [firstRedex_var, NormalForm.holds_var]
  | app fn arg ihFn ihArg =>
      by_cases isAbs : fn.IsAbs
      · have fails : ¬ form.Holds (app fn arg) := fun holds => (NormalForm.holds_app.1 holds).1 isAbs
        obtain ⟨x, body, rfl⟩ := isAbs
        refine iff_of_false ?_ fails
        cases order with
        | before => simp [firstRedex_redex_before]
        | after => simp [firstRedex_redex_after]
      · rw [firstRedex_app_of_not_isAbs isAbs, Option.or_eq_none_iff, firstWithin_eq_none_iff,
          firstWithin_eq_none_iff, ihFn, ihArg, NormalForm.holds_app]
        simp [isAbs, NormalForm.enters]
  | abs x body ih => rw [firstRedex_abs, firstWithin_eq_none_iff, ih, NormalForm.holds_abs]; rfl
  | pi x dom cod ihDom ihCod =>
      rw [firstRedex_pi, Option.or_eq_none_iff, firstWithin_eq_none_iff, firstWithin_eq_none_iff,
        ihDom, ihCod, NormalForm.holds_pi]
      exact forall_and.symm
  | sort u => simp only [firstRedex_sort, NormalForm.holds_sort]

end Redex
