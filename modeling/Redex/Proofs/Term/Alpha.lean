import Redex.Proofs.Term.Scope

/-!
# α-equivalence

Two terms are α-equivalent when they have the same shape, and occurrences at the same place belong
to binders at the same place; occurrences that belong to no binder must be read alike. The terms may
be over different identifiers, as a tagged term and a term with names are, so what decides identity
and how free occurrences are read is given for each side.

The binders around a place are kept as a list of pairs of keys, the innermost first. The definition
compares the terms themselves. It agrees with equality of nameless images
(`alike_iff_namelessIn_eq`), which is how it is compared with β-reduction.
-/

set_option autoImplicit false

namespace Redex

variable {ι κ ι' κ' φ : Type} [Identifier ι κ] [Identifier ι' κ']

/-- Two occurrences belong to binders of one pair, or to no binder of either side and are read
alike. -/
inductive Corresponds (reading : ι → φ) (reading' : ι' → φ) : List (κ × κ') → ι → ι' → Prop where
  | free {x : ι} {y : ι'} : reading x = reading' y → Corresponds reading reading' [] x y
  | here {x : ι} {y : ι'} {key : κ} {key' : κ'} (pairs : List (κ × κ')) :
      Identifier.key x = key → Identifier.key y = key' →
        Corresponds reading reading' ((key, key') :: pairs) x y
  | there {x : ι} {y : ι'} {key : κ} {key' : κ'} {pairs : List (κ × κ')} :
      Identifier.key x ≠ key → Identifier.key y ≠ key' →
        Corresponds reading reading' pairs x y →
          Corresponds reading reading' ((key, key') :: pairs) x y

/-- Two terms have the same shape and corresponding occurrences, where the binders of the pairs lie
around them. A product binds in its codomain only. -/
inductive Alike (reading : ι → φ) (reading' : ι' → φ) :
    List (κ × κ') → Term ι → Term ι' → Prop where
  | var {pairs : List (κ × κ')} {x : ι} {y : ι'} :
      Corresponds reading reading' pairs x y → Alike reading reading' pairs (.var x) (.var y)
  | app {pairs : List (κ × κ')} {fn arg : Term ι} {fn' arg' : Term ι'} :
      Alike reading reading' pairs fn fn' → Alike reading reading' pairs arg arg' →
        Alike reading reading' pairs (.app fn arg) (.app fn' arg')
  | abs {pairs : List (κ × κ')} {x : ι} {y : ι'} {body : Term ι} {body' : Term ι'} :
      Alike reading reading' ((Identifier.key x, Identifier.key y) :: pairs) body body' →
        Alike reading reading' pairs (.abs x body) (.abs y body')
  | pi {pairs : List (κ × κ')} {x : ι} {y : ι'} {dom cod : Term ι} {dom' cod' : Term ι'} :
      Alike reading reading' pairs dom dom' →
      Alike reading reading' ((Identifier.key x, Identifier.key y) :: pairs) cod cod' →
        Alike reading reading' pairs (.pi x dom cod) (.pi y dom' cod')
  | sort {pairs : List (κ × κ')} (u : Universe) :
      Alike reading reading' pairs (.sort u) (.sort u)

/-- The terms are α-equivalent, free occurrences being compared as they are read. -/
def AlphaEquivalent (reading : ι → φ) (reading' : ι' → φ) (t : Term ι) (t' : Term ι') : Prop :=
  Alike reading reading' [] t t'

/-! ## Parts of terms that are alike -/

section Parts

variable {reading : ι → φ} {reading' : ι' → φ} {pairs : List (κ × κ')} {x : ι} {y : ι'}

theorem alike_app_iff {fn arg : Term ι} {fn' arg' : Term ι'} :
    Alike reading reading' pairs (.app fn arg) (.app fn' arg') ↔
      Alike reading reading' pairs fn fn' ∧ Alike reading reading' pairs arg arg' := by
  refine ⟨fun alike => ?_, fun parts => .app parts.1 parts.2⟩
  cases alike with
  | app inFn inArg => exact ⟨inFn, inArg⟩

theorem alike_abs_iff {body : Term ι} {body' : Term ι'} :
    Alike reading reading' pairs (.abs x body) (.abs y body') ↔
      Alike reading reading' ((Identifier.key x, Identifier.key y) :: pairs) body body' := by
  refine ⟨fun alike => ?_, .abs⟩
  cases alike with
  | abs inBody => exact inBody

theorem alike_pi_iff {dom cod : Term ι} {dom' cod' : Term ι'} :
    Alike reading reading' pairs (.pi x dom cod) (.pi y dom' cod') ↔
      Alike reading reading' pairs dom dom' ∧
        Alike reading reading' ((Identifier.key x, Identifier.key y) :: pairs) cod cod' := by
  refine ⟨fun alike => ?_, fun parts => .pi parts.1 parts.2⟩
  cases alike with
  | pi inDom inCod => exact ⟨inDom, inCod⟩

end Parts

/-! ## α-equivalence and nameless images -/

variable [DecidableEq κ] [DecidableEq κ'] {reading : ι → φ} {reading' : ι' → φ}

/-- The image of an occurrence is an index or a free variable. -/
theorem namelessIn_var_cases (x : ι) (scope : List κ) :
    (∃ index, (Term.var x).namelessIn reading scope = .bound index) ∨
      ∃ y, (Term.var x).namelessIn reading scope = .free y := by
  simp only [Term.namelessIn]
  cases scope.idxOf? (Identifier.key x) with
  | none => exact .inr ⟨_, rfl⟩
  | some index => exact .inl ⟨index, rfl⟩

/-- An index or a free variable, as against a node with parts or a sort. -/
def Nameless.isLeaf : Nameless φ → Bool
  | bound _ | free _ => true
  | app _ _ | abs _ | pi _ _ | sort _ => false

theorem namelessIn_var_ne (x : ι) (scope : List κ) {t : Nameless φ} (node : t.isLeaf = false) :
    (Term.var x).namelessIn reading scope ≠ t := by
  rintro rfl
  rcases namelessIn_var_cases x scope with ⟨index, image⟩ | ⟨y, image⟩
  · rw [image] at node
    cases node
  · rw [image] at node
    cases node

theorem shift_namelessIn_var_ne_zero (x : ι) (scope : List κ) :
    ((Term.var x).namelessIn reading scope).shift ≠ .bound 0 := by
  rcases namelessIn_var_cases x scope with ⟨index, image⟩ | ⟨y, image⟩
  · rw [image]
    intro equal
    cases equal
  · rw [image]
    intro equal
    cases equal

theorem shift_namelessIn_var_inj {x : ι} {y : ι'} {scope : List κ} {scope' : List κ'}
    (equal : ((Term.var x).namelessIn reading scope).shift =
      ((Term.var y).namelessIn reading' scope').shift) :
    (Term.var x).namelessIn reading scope = (Term.var y).namelessIn reading' scope' := by
  rcases namelessIn_var_cases x scope with ⟨index, image⟩ | ⟨z, image⟩ <;>
    rcases namelessIn_var_cases y scope' with ⟨index', image'⟩ | ⟨z', image'⟩ <;>
    rw [image, image'] at equal ⊢ <;> cases equal <;> rfl

theorem corresponds_iff_namelessIn_eq {x : ι} {y : ι'} (pairs : List (κ × κ')) :
    Corresponds reading reading' pairs x y ↔
      (Term.var x).namelessIn reading (pairs.map Prod.fst) =
        (Term.var y).namelessIn reading' (pairs.map Prod.snd) := by
  induction pairs with
  | nil =>
      constructor
      · intro corresponds
        cases corresponds with
        | free equal => exact congrArg Nameless.free equal
      · intro equal
        exact .free (Nameless.free.inj equal)
  | cons pair pairs ih =>
      obtain ⟨key, key'⟩ := pair
      by_cases left : Identifier.key x = key <;> by_cases right : Identifier.key y = key'
      · simp only [List.map_cons, Term.namelessIn_var_cons_self reading left,
          Term.namelessIn_var_cons_self reading' right, iff_true]
        exact .here pairs left right
      · simp only [List.map_cons, Term.namelessIn_var_cons_self reading left,
          Term.namelessIn_var_cons_of_ne reading' right]
        constructor
        · intro corresponds
          cases corresponds with
          | here _ _ same => exact absurd same right
          | there other _ _ => exact absurd left other
        · intro equal
          exact absurd equal.symm (shift_namelessIn_var_ne_zero y _)
      · simp only [List.map_cons, Term.namelessIn_var_cons_of_ne reading left,
          Term.namelessIn_var_cons_self reading' right]
        constructor
        · intro corresponds
          cases corresponds with
          | here _ same _ => exact absurd same left
          | there _ other _ => exact absurd right other
        · intro equal
          exact absurd equal (shift_namelessIn_var_ne_zero x _)
      · simp only [List.map_cons, Term.namelessIn_var_cons_of_ne reading left,
          Term.namelessIn_var_cons_of_ne reading' right]
        constructor
        · intro corresponds
          cases corresponds with
          | here _ same _ => exact absurd same left
          | there _ _ rest => rw [ih.1 rest]
        · intro equal
          exact .there left right (ih.2 (shift_namelessIn_var_inj equal))

/-- **Terms are α-equivalent when their nameless images are equal.** -/
theorem alike_iff_namelessIn_eq (t : Term ι) :
    ∀ {t' : Term ι'} {pairs : List (κ × κ')},
      Alike reading reading' pairs t t' ↔
        t.namelessIn reading (pairs.map Prod.fst) =
          t'.namelessIn reading' (pairs.map Prod.snd) := by
  intro t' pairs
  constructor
  · intro alike
    induction alike with
    | var corresponds => exact (corresponds_iff_namelessIn_eq _).1 corresponds
    | app _ _ ihFn ihArg => simp only [Term.namelessIn, ihFn, ihArg]
    | abs _ ih => exact congrArg Nameless.abs ih
    | pi _ _ ihDom ihCod =>
        simp only [Term.namelessIn, ihDom]
        exact congrArg (Nameless.pi _) ihCod
    | sort u => rfl
  · induction t generalizing t' pairs with
    | var x =>
        intro equal
        cases t' with
        | var y => exact .var ((corresponds_iff_namelessIn_eq pairs).2 equal)
        | app fn' arg' => exact absurd equal (namelessIn_var_ne x _ rfl)
        | abs y body' => exact absurd equal (namelessIn_var_ne x _ rfl)
        | pi y dom' cod' => exact absurd equal (namelessIn_var_ne x _ rfl)
        | sort u => exact absurd equal (namelessIn_var_ne x _ rfl)
    | app fn arg ihFn ihArg =>
        intro equal
        cases t' with
        | var y => exact absurd equal.symm (namelessIn_var_ne y _ rfl)
        | app fn' arg' =>
            obtain ⟨inFn, inArg⟩ := Nameless.app.inj equal
            exact .app (ihFn inFn) (ihArg inArg)
        | abs y body' => cases equal
        | pi y dom' cod' => cases equal
        | sort u => cases equal
    | abs x body ih =>
        intro equal
        cases t' with
        | var y => exact absurd equal.symm (namelessIn_var_ne y _ rfl)
        | app fn' arg' => cases equal
        | abs y body' => exact .abs (ih (Nameless.abs.inj equal))
        | pi y dom' cod' => cases equal
        | sort u => cases equal
    | pi x dom cod ihDom ihCod =>
        intro equal
        cases t' with
        | var y => exact absurd equal.symm (namelessIn_var_ne y _ rfl)
        | app fn' arg' => cases equal
        | abs y body' => cases equal
        | pi y dom' cod' =>
            obtain ⟨inDom, inCod⟩ := Nameless.pi.inj equal
            exact .pi (ihDom inDom) (ihCod inCod)
        | sort u => cases equal
    | sort u =>
        intro equal
        cases t' with
        | var y => exact absurd equal.symm (namelessIn_var_ne y _ rfl)
        | app fn' arg' => cases equal
        | abs y body' => cases equal
        | pi y dom' cod' => cases equal
        | sort u' =>
            cases equal
            exact .sort u

theorem alphaEquivalent_iff_nameless_eq {t : Term ι} {t' : Term ι'} :
    AlphaEquivalent reading reading' t t' ↔ t.nameless reading = t'.nameless reading' :=
  alike_iff_namelessIn_eq t

end Redex
