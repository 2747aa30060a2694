import Redex.Proofs.Reduction.Addresses
import Redex.Proofs.Reduction.Counterpart
import Redex.Proofs.Reduction.Uniqueness

/-!
# Bindings of a copy

An occurrence belongs to the innermost binder of its key around it. Here this is told by addresses:
the occurrence at an address is free in a term (`freeAt?`), or the term has a binder for it at
another address (`binder?`). Both follow the way down to the occurrence, and the domain of a product
is not in the scope of its binder.

α-equivalent terms bind at the same addresses (`Alike.binder?_eq`). A copy with new tags is
α-equivalent to the term it was made from, whose binders may shadow each other or have one tag side
by side; so its binders stand where those of the term do and claim the same occurrences, while their
tags are distinct and new (`freshCopy_retag`).
-/

set_option autoImplicit false

namespace Redex

namespace Term

/-! ## Binders by their addresses -/

section Addresses

variable {ι κ : Type} [Identifier ι κ] [DecidableEq κ]

/-- Whether a binder claims an occurrence that is free in its scope. -/
def claims (x y : ι) : Bool := decide (Identifier.key y = Identifier.key x)

/-- The occurrence at an address, if no binder of the term claims it. -/
def freeAt? : Term ι → Address → Option ι
  | var x, [] => some x
  | app fn _, .fn :: p => fn.freeAt? p
  | app _ arg, .arg :: p => arg.freeAt? p
  | abs x body, .body :: p => (body.freeAt? p).filter fun y => !claims x y
  | pi _ dom _, .dom :: p => dom.freeAt? p
  | pi x _ cod, .cod :: p => (cod.freeAt? p).filter fun y => !claims x y
  | _, _ => none

/-- The address of the binder that claims the occurrence at an address. A binder gets only what is
still free in its scope, so of several binders of one key it is the innermost. -/
def binder? : Term ι → Address → Option Address
  | app fn _, .fn :: p => (fn.binder? p).map (.fn :: ·)
  | app _ arg, .arg :: p => (arg.binder? p).map (.arg :: ·)
  | abs x body, .body :: p =>
    if (body.freeAt? p).any (claims x) then some [] else (body.binder? p).map (.body :: ·)
  | pi _ dom _, .dom :: p => (dom.binder? p).map (.dom :: ·)
  | pi x _ cod, .cod :: p =>
    if (cod.freeAt? p).any (claims x) then some [] else (cod.binder? p).map (.cod :: ·)
  | _, _ => none

end Addresses

end Term

open Term

/-! ## α-equivalent terms -/

section Alpha

variable {ι κ ι' κ' φ : Type} [Identifier ι κ] [Identifier ι' κ'] [DecidableEq κ] [DecidableEq κ']
variable {reading : ι → φ} {reading' : ι' → φ} {pairs : List (κ × κ')} {x : ι} {x' : ι'}

/-- Two binders of a pair claim corresponding occurrences, and leave corresponding ones. -/
theorem Corresponds.claims_eq {y : ι} {y' : ι'}
    (corresponds :
      Corresponds reading reading' ((Identifier.key x, Identifier.key x') :: pairs) y y') :
    (claims x y = true ∧ claims x' y' = true) ∨
      (claims x y = false ∧ claims x' y' = false ∧ Corresponds reading reading' pairs y y') := by
  cases corresponds with
  | here _ same same' => exact .inl ⟨decide_eq_true same, decide_eq_true same'⟩
  | there other other' further =>
      exact .inr ⟨decide_eq_false other, decide_eq_false other', further⟩

/-- What two scopes have at one address is claimed by both binders or by none. -/
theorem any_claims_eq {found : Option ι} {found' : Option ι'}
    (inScope : Option.Rel
      (Corresponds reading reading' ((Identifier.key x, Identifier.key x') :: pairs))
      found found') :
    found.any (claims x) = found'.any (claims x') := by
  cases inScope with
  | none => rfl
  | some corresponds =>
      rcases corresponds.claims_eq with ⟨claimed, claimed'⟩ | ⟨left, left', _⟩
      · exact claimed.trans claimed'.symm
      · exact left.trans left'.symm

theorem rel_filter_claims {found : Option ι} {found' : Option ι'}
    (inScope : Option.Rel
      (Corresponds reading reading' ((Identifier.key x, Identifier.key x') :: pairs))
      found found') :
    Option.Rel (Corresponds reading reading' pairs) (found.filter fun y => !claims x y)
      (found'.filter fun y => !claims x' y) := by
  cases inScope with
  | none => exact .none
  | some corresponds =>
      rcases corresponds.claims_eq with ⟨claimed, claimed'⟩ | ⟨left, left', further⟩
      · simp only [Option.filter_some, claimed, claimed']
        exact .none
      · simp only [Option.filter_some, left, left']
        exact .some further

namespace Alike

variable {t : Term ι} {t' : Term ι'}

/-- Terms that are alike have corresponding occurrences free at the same addresses. -/
theorem freeAt?_rel (alike : Alike reading reading' pairs t t') :
    ∀ p : Address,
      Option.Rel (Corresponds reading reading' pairs) (t.freeAt? p) (t'.freeAt? p) := by
  induction alike with
  | var corresponds =>
      intro p
      match p with
      | [] => exact .some corresponds
      | _ :: _ => exact .none
  | app _ _ ihFn ihArg =>
      intro p
      match p with
      | .fn :: p => exact ihFn p
      | .arg :: p => exact ihArg p
      -- no occurrence stands at the node itself, and the other turns lead nowhere
      | [] | .body :: _ | .dom :: _ | .cod :: _ => exact .none
  | abs _ ih =>
      intro p
      match p with
      | .body :: p => exact rel_filter_claims (ih p)
      | [] | .fn :: _ | .arg :: _ | .dom :: _ | .cod :: _ => exact .none
  | pi _ _ ihDom ihCod =>
      intro p
      match p with
      | .dom :: p => exact ihDom p
      | .cod :: p => exact rel_filter_claims (ihCod p)
      | [] | .fn :: _ | .arg :: _ | .body :: _ => exact .none
  | sort u =>
      intro p
      exact .none

/-- **Terms that are alike have their binders, and what these claim, at the same addresses.** -/
theorem binder?_eq (alike : Alike reading reading' pairs t t') :
    ∀ p : Address, t.binder? p = t'.binder? p := by
  induction alike with
  | var _ =>
      intro p
      rfl
  | app _ _ ihFn ihArg =>
      intro p
      match p with
      | .fn :: p => exact congrArg _ (ihFn p)
      | .arg :: p => exact congrArg _ (ihArg p)
      | [] | .body :: _ | .dom :: _ | .cod :: _ => rfl
  | abs inBody ih =>
      intro p
      match p with
      | .body :: p => simp only [binder?, any_claims_eq (inBody.freeAt?_rel p), ih p]
      | [] | .fn :: _ | .arg :: _ | .dom :: _ | .cod :: _ => rfl
  | pi _ inCod ihDom ihCod =>
      intro p
      match p with
      | .dom :: p => exact congrArg _ (ihDom p)
      | .cod :: p => simp only [binder?, any_claims_eq (inCod.freeAt?_rel p), ihCod p]
      | [] | .fn :: _ | .arg :: _ | .body :: _ => rfl
  | sort u =>
      intro p
      rfl

end Alike

/-- What is free in α-equivalent terms is read alike. -/
theorem AlphaEquivalent.freeAt?_map_eq {t : Term ι} {t' : Term ι'}
    (equivalent : AlphaEquivalent reading reading' t t') (p : Address) :
    (t.freeAt? p).map reading = (t'.freeAt? p).map reading' := by
  have related := Alike.freeAt?_rel equivalent p
  generalize t.freeAt? p = found at related ⊢
  generalize t'.freeAt? p = found' at related ⊢
  cases related with
  | none => rfl
  | some corresponds =>
      cases corresponds with
      | free equal => exact congrArg some equal

end Alpha

/-! ## Copies -/

namespace Term

variable {t : Term Tagged} {gen : Generator}

/-- The copy is the term but for the tags of its binders, and of the occurrences they claim; its
binders have tags of their own, which were handed out from the one generator on to the other. -/
structure FreshCopy (first last : Generator) (t copy : Term Tagged) : Prop where
  /-- The shape is the same, and so is every name. -/
  names : copy.map Tagged.name = t.map Tagged.name
  distinct : copy.Distinct
  new : ∀ z ∈ copy.binders, first.count < z.tag.toInt ∧ z.tag.toInt ≤ last.count
  /-- No binder has a tag that is in the term. -/
  disjoint : ∀ z ∈ copy.binders, ∀ x ∈ t.identifiers, z.tag ≠ x.tag
  /-- An occurrence belongs to the binder that stands where its binder in the term does. -/
  binder : ∀ p, copy.binder? p = t.binder? p
  /-- What is free in the term stays as it is, tag and all, and nothing else is free. -/
  free : ∀ p, copy.freeAt? p = t.freeAt? p

/-- A term without binders is copied as it is. -/
theorem retag_of_binders_eq_nil (t : Term Tagged) :
    ∀ gen : Generator, t.binders = [] → t.retag [] gen = (t, gen) := by
  induction t with
  | var x =>
      intro gen _
      rw [retag_var, renew_nil]
  | app fn arg ihFn ihArg =>
      intro gen none
      obtain ⟨inFn, inArg⟩ := List.append_eq_nil_iff.1 none
      rw [retag_app, ihFn gen inFn, ihArg gen inArg]
  | abs x body _ =>
      intro gen none
      cases none
  | pi x dom cod _ _ =>
      intro gen none
      cases none
  | sort u =>
      intro gen _
      rfl

theorem freshCopy_self (first last : Generator) (none : t.binders = []) :
    FreshCopy first last t t where
  names := rfl
  distinct := by
    rw [Distinct, none]
    exact List.nodup_nil
  new z member := by
    rw [none] at member
    cases member
  disjoint z member := by
    rw [none] at member
    cases member
  binder _ := rfl
  free _ := rfl

theorem freshCopy_of_leads (leads : gen.Leads (t.retag [] gen).2)
    (old : ∀ x ∈ t.identifiers, x.tag.toInt ≤ gen.count) :
    FreshCopy gen (t.retag [] gen).2 t (t.retag [] gen).1 := by
  have upTo := TagsUpTo.ofIdentifiers old
  have new := fun z => tag_of_mem_binders_retag (z := z) t leads
  have equivalent : AlphaEquivalent id id (t.retag [] gen).1 t :=
    alphaEquivalent_iff_nameless_eq.2 (namelessIn_retag_nil id leads upTo [])
  refine ⟨map_name_retag t [] gen, distinct_retag t leads, new, ?_, equivalent.binder?_eq, ?_⟩
  · intro z member x inTerm same
    have above := (new z member).1
    rw [same] at above
    exact absurd (old x inTerm) (Int.not_le.2 above)
  · intro p
    have equal := equivalent.freeAt?_map_eq p
    rwa [Option.map_id, id, id] at equal

/-- **Retagging makes a disjoint α-copy of any term**, however the tags of its binders repeat or
shadow each other: the binders of the copy have distinct tags greater than the count, and thus than
all tags of the term; each occurrence is claimed by the binder at the address where it was, and what
was free is unchanged. The count grows by the number of binders. All this holds as long as the new
count is that of a tag. -/
theorem freshCopy_retag (t : Term Tagged) (gen : Generator)
    (old : ∀ x ∈ t.identifiers, x.tag.toInt ≤ gen.count)
    (suffice : gen.count + t.binders.length ≤ Tag.greatest) :
    FreshCopy gen (t.retag [] gen).2 t (t.retag [] gen).1 ∧
      (t.retag [] gen).2.count = gen.count + t.binders.length := by
  refine ⟨?_, count_retag t [] gen⟩
  by_cases none : t.binders = []
  · rw [retag_of_binders_eq_nil t gen none]
    exact freshCopy_self gen gen none
  · -- a binder keeps the count from lying below all words
    obtain ⟨z, member⟩ := List.exists_mem_of_ne_nil _ none
    have least : Tag.least ≤ gen.count :=
      Int.le_trans (Int64.minValue_le_toInt z.tag) (old z (mem_identifiers_of_mem_binders member))
    refine freshCopy_of_leads ⟨least, count_le_retag [] gen t, ?_⟩ old
    rw [count_retag]
    exact suffice

/-- `λx.(πx:x.x y) (λz.x)`, where all binders have one tag: the domain belongs to the outer `x`, the
codomain to that of the product, and the last occurrence to `z`. -/
def oneTag : Term Tagged :=
  abs ⟨"x", 1⟩
    (app (pi ⟨"x", 1⟩ (var ⟨"x", 1⟩) (app (var ⟨"x", 1⟩) (var ⟨"y", 2⟩)))
      (abs ⟨"z", 1⟩ (var ⟨"x", 1⟩)))

/-- The same with a tag for each binder. -/
def oneTagCopy : Term Tagged :=
  abs ⟨"x", 3⟩
    (app (pi ⟨"x", 4⟩ (var ⟨"x", 3⟩) (app (var ⟨"x", 4⟩) (var ⟨"y", 2⟩)))
      (abs ⟨"z", 5⟩ (var ⟨"x", 5⟩)))

/-- A copy with the least count that is allowed. -/
theorem freshCopy_retag_oneTag :
    (∀ x ∈ oneTag.identifiers, x.tag.toInt ≤ 2) ∧
      2 + (oneTag.binders.length : Int) ≤ Tag.greatest ∧
      oneTag.retag [] ⟨2⟩ = (oneTagCopy, ⟨5⟩) ∧
      FreshCopy ⟨2⟩ ⟨5⟩ oneTag oneTagCopy ∧
      oneTagCopy.binder? [.body, .fn, .dom] = some [] ∧
      oneTagCopy.binder? [.body, .fn, .cod, .fn] = some [.body, .fn] ∧
      oneTagCopy.freeAt? [.body, .fn, .cod, .arg] = some ⟨"y", 2⟩ ∧
      oneTagCopy.binder? [.body, .arg, .body] = some [.body, .arg] := by
  have old : ∀ x ∈ oneTag.identifiers, x.tag.toInt ≤ 2 := by decide
  have suffice : 2 + (oneTag.binders.length : Int) ≤ Tag.greatest := by decide
  have copied : oneTag.retag [] ⟨2⟩ = (oneTagCopy, ⟨5⟩) := by rfl
  have copy := (freshCopy_retag oneTag ⟨2⟩ old suffice).1
  rw [copied] at copy
  -- where the occurrences of the copy belong is read off the term
  refine ⟨old, suffice, copied, copy, ?_, ?_, ?_, ?_⟩
  · rw [copy.binder]
    decide
  · rw [copy.binder]
    decide
  · rw [copy.free]
    decide
  · rw [copy.binder]
    decide

end Term

end Redex
