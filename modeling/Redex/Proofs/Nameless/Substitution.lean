import Redex.Term.Nameless

/-!
# Substitution in nameless terms

A renaming sends indices to indices and a substitution sends them to terms. Both are moved below a
binder before they act there: index zero belongs to the binder and stays, the others are shifted
past it. Contraction is the substitution that puts an argument in place of index zero and lowers
every other index by one.

The laws of this module say how renamings and substitutions compose. The two that contraction
needs are at the end: it commutes with renaming (`rename_contract`) and with substitution
(`subst_contract`).
-/

set_option autoImplicit false

namespace Redex.Nameless

variable {φ : Type}

/-! ## Renaming -/

/-- A renaming moved below a binder. -/
def liftRenaming (ρ : Nat → Nat) : Nat → Nat
  | 0 => 0
  | index + 1 => ρ index + 1

/-- The term with its indices renamed. -/
def rename (ρ : Nat → Nat) : Nameless φ → Nameless φ
  | bound index => bound (ρ index)
  | free x => free x
  | app fn arg => app (fn.rename ρ) (arg.rename ρ)
  | abs body => abs (body.rename (liftRenaming ρ))
  | pi dom cod => pi (dom.rename ρ) (cod.rename (liftRenaming ρ))
  | sort u => sort u

theorem liftRenaming_comp (ρ ρ' : Nat → Nat) (index : Nat) :
    liftRenaming ρ' (liftRenaming ρ index) = liftRenaming (fun i => ρ' (ρ i)) index := by
  cases index with
  | zero => rfl
  | succ index => rfl

theorem rename_rename (t : Nameless φ) :
    ∀ ρ ρ' : Nat → Nat, (t.rename ρ).rename ρ' = t.rename fun i => ρ' (ρ i) := by
  induction t with
  | bound index => intro ρ ρ'; rfl
  | free x => intro ρ ρ'; rfl
  | app fn arg ihFn ihArg => intro ρ ρ'; simp only [rename, ihFn, ihArg]
  | abs body ih => intro ρ ρ'; simp only [rename, ih, liftRenaming_comp]
  | pi dom cod ihDom ihCod =>
      intro ρ ρ'
      simp only [rename, ihDom, ihCod, liftRenaming_comp]
  | sort u => intro ρ ρ'; rfl

/-- The term below one more binder that it does not mention. -/
def shift (t : Nameless φ) : Nameless φ := t.rename Nat.succ

theorem rename_liftRenaming_shift (t : Nameless φ) (ρ : Nat → Nat) :
    t.shift.rename (liftRenaming ρ) = (t.rename ρ).shift := by
  unfold shift
  rw [rename_rename, rename_rename]
  rfl

/-! ## Substitution -/

/-- A substitution moved below a binder. -/
def liftSubstitution (σ : Nat → Nameless φ) : Nat → Nameless φ
  | 0 => bound 0
  | index + 1 => (σ index).shift

/-- The term with terms in place of its indices. -/
def subst (σ : Nat → Nameless φ) : Nameless φ → Nameless φ
  | bound index => σ index
  | free x => free x
  | app fn arg => app (fn.subst σ) (arg.subst σ)
  | abs body => abs (body.subst (liftSubstitution σ))
  | pi dom cod => pi (dom.subst σ) (cod.subst (liftSubstitution σ))
  | sort u => sort u

theorem liftSubstitution_bound : liftSubstitution (bound : Nat → Nameless φ) = bound := by
  funext index
  cases index with
  | zero => rfl
  | succ index => rfl

/-- Putting every index in place of itself changes nothing. -/
theorem subst_bound (t : Nameless φ) : t.subst bound = t := by
  induction t with
  | bound index => rfl
  | free x => rfl
  | app fn arg ihFn ihArg => rw [subst, ihFn, ihArg]
  | abs body ih => rw [subst, liftSubstitution_bound, ih]
  | pi dom cod ihDom ihCod => rw [subst, liftSubstitution_bound, ihDom, ihCod]
  | sort u => rfl

theorem liftSubstitution_liftRenaming (ρ : Nat → Nat) (σ : Nat → Nameless φ) :
    (fun index => liftSubstitution σ (liftRenaming ρ index)) =
      liftSubstitution fun index => σ (ρ index) := by
  funext index
  cases index with
  | zero => rfl
  | succ index => rfl

theorem subst_rename (t : Nameless φ) :
    ∀ (ρ : Nat → Nat) (σ : Nat → Nameless φ),
      (t.rename ρ).subst σ = t.subst fun index => σ (ρ index) := by
  induction t with
  | bound index => intro ρ σ; rfl
  | free x => intro ρ σ; rfl
  | app fn arg ihFn ihArg => intro ρ σ; simp only [rename, subst, ihFn, ihArg]
  | abs body ih => intro ρ σ; simp only [rename, subst, ih, liftSubstitution_liftRenaming]
  | pi dom cod ihDom ihCod =>
      intro ρ σ
      simp only [rename, subst, ihDom, ihCod, liftSubstitution_liftRenaming]
  | sort u => intro ρ σ; rfl

theorem rename_liftSubstitution (ρ : Nat → Nat) (σ : Nat → Nameless φ) :
    (fun index => (liftSubstitution σ index).rename (liftRenaming ρ)) =
      liftSubstitution fun index => (σ index).rename ρ := by
  funext index
  cases index with
  | zero => rfl
  | succ index => exact rename_liftRenaming_shift (σ index) ρ

theorem rename_subst (t : Nameless φ) :
    ∀ (ρ : Nat → Nat) (σ : Nat → Nameless φ),
      (t.subst σ).rename ρ = t.subst fun index => (σ index).rename ρ := by
  induction t with
  | bound index => intro ρ σ; rfl
  | free x => intro ρ σ; rfl
  | app fn arg ihFn ihArg => intro ρ σ; simp only [rename, subst, ihFn, ihArg]
  | abs body ih => intro ρ σ; simp only [rename, subst, ih, rename_liftSubstitution]
  | pi dom cod ihDom ihCod =>
      intro ρ σ
      simp only [rename, subst, ihDom, ihCod, rename_liftSubstitution]
  | sort u => intro ρ σ; rfl

/-- A shifted term does not see what a lifted substitution does with index zero. -/
theorem subst_liftSubstitution_shift (t : Nameless φ) (σ : Nat → Nameless φ) :
    t.shift.subst (liftSubstitution σ) = (t.subst σ).shift := by
  unfold shift
  rw [subst_rename, rename_subst]
  rfl

theorem subst_liftSubstitution (σ τ : Nat → Nameless φ) :
    (fun index => (liftSubstitution σ index).subst (liftSubstitution τ)) =
      liftSubstitution fun index => (σ index).subst τ := by
  funext index
  cases index with
  | zero => rfl
  | succ index => exact subst_liftSubstitution_shift (σ index) τ

theorem subst_subst (t : Nameless φ) :
    ∀ σ τ : Nat → Nameless φ, (t.subst σ).subst τ = t.subst fun index => (σ index).subst τ := by
  induction t with
  | bound index => intro σ τ; rfl
  | free x => intro σ τ; rfl
  | app fn arg ihFn ihArg => intro σ τ; simp only [subst, ihFn, ihArg]
  | abs body ih => intro σ τ; simp only [subst, ih, subst_liftSubstitution]
  | pi dom cod ihDom ihCod =>
      intro σ τ
      simp only [subst, ihDom, ihCod, subst_liftSubstitution]
  | sort u => intro σ τ; rfl

/-! ## Contraction -/

/-- The substitution that puts `arg` in place of index zero and lowers the other indices. -/
def putFirst (arg : Nameless φ) : Nat → Nameless φ
  | 0 => arg
  | index + 1 => bound index

/-- What the application of an abstraction with this body contracts to. -/
def contract (body arg : Nameless φ) : Nameless φ := body.subst (putFirst arg)

/-- The argument does not reach a term that is shifted past its place. -/
theorem subst_putFirst_shift (t arg : Nameless φ) : t.shift.subst (putFirst arg) = t := by
  unfold shift
  rw [subst_rename]
  exact subst_bound t

theorem rename_contract (body arg : Nameless φ) (ρ : Nat → Nat) :
    (body.contract arg).rename ρ = (body.rename (liftRenaming ρ)).contract (arg.rename ρ) := by
  unfold contract
  rw [rename_subst, subst_rename]
  congr 1
  funext index
  cases index with
  | zero => rfl
  | succ index => rfl

theorem subst_contract (body arg : Nameless φ) (σ : Nat → Nameless φ) :
    (body.contract arg).subst σ =
      (body.subst (liftSubstitution σ)).contract (arg.subst σ) := by
  unfold contract
  rw [subst_subst, subst_subst]
  congr 1
  funext index
  cases index with
  | zero => rfl
  | succ index => exact (subst_putFirst_shift (σ index) (arg.subst σ)).symm

end Redex.Nameless
