import Redex.Proofs.WellTagged
import Redex.Reduction.Substitution

/-!
# Retagged copies

A retagged copy has new tags on its binders and is otherwise the term it was made from. While the
generator's count is that of a tag, the new tags are distinct and greater than all tags of the term,
so no binder of the copy claims an occurrence that was free in the term: the free occurrences stay
(`hasFree_retag_nil`), and so does the nameless image (`namelessIn_retag_nil`).

Both are proved for a copy made under binders that have new tags already. There an occurrence
follows the list of renewed tags (`renew`), and what has to be known of the list is that it only
leads to tags given so far (`Known`).
-/

set_option autoImplicit false

namespace Redex.Term

/-! ## What a copy is made of -/

/-- The identifier an occurrence turns into. -/
def renew (renewed : List (Tag × Tag)) (y : Tagged) : Tagged :=
  ⟨y.name, (renewed.lookup y.tag).getD y.tag⟩

@[simp] theorem renew_nil (y : Tagged) : renew [] y = y := rfl

theorem renew_cons_self {x : Tag} {y : Tagged} (same : y.tag = x) (tag : Tag)
    (renewed : List (Tag × Tag)) : renew ((x, tag) :: renewed) y = ⟨y.name, tag⟩ := by
  simp [renew, same]

theorem renew_cons_of_ne {x : Tag} {y : Tagged} (other : y.tag ≠ x) (tag : Tag)
    (renewed : List (Tag × Tag)) : renew ((x, tag) :: renewed) y = renew renewed y := by
  simp [renew, List.lookup_cons, beq_eq_false_iff_ne.2 other]

variable (renewed : List (Tag × Tag)) (gen : Generator)

theorem retag_var (y : Tagged) : (var y).retag renewed gen = (var (renew renewed y), gen) := by
  simp only [retag, renew]
  cases renewed.lookup y.tag with
  | none => rfl
  | some tag => rfl

theorem retag_app (fn arg : Term Tagged) :
    (app fn arg).retag renewed gen =
      (app (fn.retag renewed gen).1 (arg.retag renewed (fn.retag renewed gen).2).1,
        (arg.retag renewed (fn.retag renewed gen).2).2) := rfl

theorem retag_abs (x : Tagged) (body : Term Tagged) :
    (abs x body).retag renewed gen =
      (abs ⟨x.name, gen.next.1⟩ (body.retag ((x.tag, gen.next.1) :: renewed) gen.next.2).1,
        (body.retag ((x.tag, gen.next.1) :: renewed) gen.next.2).2) := rfl

/-- The domain of a product is copied before its binder has a tag. -/
theorem retag_pi (x : Tagged) (dom cod : Term Tagged) :
    (pi x dom cod).retag renewed gen =
      (pi ⟨x.name, (dom.retag renewed gen).2.next.1⟩ (dom.retag renewed gen).1
        (cod.retag ((x.tag, (dom.retag renewed gen).2.next.1) :: renewed)
          (dom.retag renewed gen).2.next.2).1,
        (cod.retag ((x.tag, (dom.retag renewed gen).2.next.1) :: renewed)
          (dom.retag renewed gen).2.next.2).2) := rfl

/-- A copy takes one tag for each binder. -/
theorem count_retag (t : Term Tagged) :
    ∀ (renewed : List (Tag × Tag)) (gen : Generator),
      (t.retag renewed gen).2.count = gen.count + t.binders.length := by
  induction t with
  | var y =>
      intro renewed gen
      rw [retag_var]
      exact (Int.add_zero _).symm
  | app fn arg ihFn ihArg =>
      intro renewed gen
      rw [retag_app]
      simp only [ihArg, ihFn, binders, List.length_append]
      omega
  | abs x body ih =>
      intro renewed gen
      rw [retag_abs]
      simp only [ih, Generator.next, binders, List.length_cons]
      omega
  | pi x dom cod ihDom ihCod =>
      intro renewed gen
      rw [retag_pi]
      simp only [ihCod, Generator.next, ihDom, binders, List.length_cons, List.length_append]
      omega
  | sort u =>
      intro renewed gen
      exact (Int.add_zero _).symm

theorem count_le_retag (t : Term Tagged) : gen.count ≤ (t.retag renewed gen).2.count := by
  rw [count_retag]
  omega

section Way

variable {renewed gen} {x : Tagged} {fn arg body dom cod : Term Tagged}

theorem leads_retag_app (leads : gen.Leads ((app fn arg).retag renewed gen).2) :
    gen.Leads (fn.retag renewed gen).2 ∧
      (fn.retag renewed gen).2.Leads (arg.retag renewed (fn.retag renewed gen).2).2 :=
  leads.split (count_le_retag renewed gen fn) (count_le_retag renewed _ arg)

theorem leads_retag_abs (leads : gen.Leads ((abs x body).retag renewed gen).2) :
    gen.Leads gen.next.2 ∧
      gen.next.2.Leads (body.retag ((x.tag, gen.next.1) :: renewed) gen.next.2).2 :=
  leads.split (Int.le_of_lt gen.count_lt_next) (count_le_retag _ gen.next.2 body)

/-- From the end of the domain on, a product is copied like an abstraction. -/
theorem leads_retag_pi (leads : gen.Leads ((pi x dom cod).retag renewed gen).2) :
    gen.Leads (dom.retag renewed gen).2 ∧
      (dom.retag renewed gen).2.Leads ((abs x cod).retag renewed (dom.retag renewed gen).2).2 :=
  leads.split (count_le_retag renewed gen dom) (count_le_retag renewed _ (abs x cod))

end Way

/-! ## Binders of a copy -/

/-- The binders of a copy have the tags handed out for it. -/
theorem tag_of_mem_binders_retag {z : Tagged} (t : Term Tagged) :
    ∀ {renewed : List (Tag × Tag)} {gen : Generator},
      gen.Leads (t.retag renewed gen).2 → z ∈ (t.retag renewed gen).1.binders →
        gen.count < z.tag.toInt ∧ z.tag.toInt ≤ (t.retag renewed gen).2.count := by
  induction t with
  | var y =>
      intro renewed gen _ member
      rw [retag_var] at member
      exact absurd member not_mem_binders_var
  | app fn arg ihFn ihArg =>
      intro renewed gen leads member
      obtain ⟨toFn, toArg⟩ := leads_retag_app leads
      rw [retag_app] at member ⊢
      rcases mem_binders_app.1 member with inFn | inArg
      · have new := ihFn toFn inFn
        exact ⟨new.1, Int.le_trans new.2 toArg.le⟩
      · have new := ihArg toArg inArg
        exact ⟨Int.lt_of_le_of_lt toFn.le new.1, new.2⟩
  | abs x body ih =>
      intro renewed gen leads member
      obtain ⟨toNext, toBody⟩ := leads_retag_abs leads
      rw [retag_abs] at member ⊢
      rcases mem_binders_abs.1 member with rfl | inBody
      · rw [toNext.toInt_next]
        exact ⟨gen.count_lt_next, toBody.le⟩
      · have new := ih toBody inBody
        exact ⟨Int.lt_of_le_of_lt toNext.le new.1, new.2⟩
  | pi x dom cod ihDom ihCod =>
      intro renewed gen leads member
      obtain ⟨toDom, afterDom⟩ := leads_retag_pi leads
      obtain ⟨toNext, toCod⟩ := leads_retag_abs afterDom
      rw [retag_pi] at member ⊢
      rcases mem_binders_pi.1 member with rfl | inDom | inCod
      · rw [toNext.toInt_next]
        exact ⟨Int.lt_of_le_of_lt toDom.le (Generator.count_lt_next _), toCod.le⟩
      · have new := ihDom toDom inDom
        exact ⟨new.1, Int.le_trans new.2 afterDom.le⟩
      · have new := ihCod toCod inCod
        exact ⟨Int.lt_of_le_of_lt (Int.le_trans toDom.le toNext.le) new.1, new.2⟩
  | sort u =>
      intro renewed gen _ member
      exact absurd member not_mem_binders_sort

/-- No binder of a copy lies in the scope of one with its tag: the tag of a binder is handed out
before those in its scope. -/
theorem unshadowed_retag (t : Term Tagged) :
    ∀ {renewed : List (Tag × Tag)} {gen : Generator},
      gen.Leads (t.retag renewed gen).2 → (t.retag renewed gen).1.Unshadowed := by
  -- the binder has the last tag of `gen`, and those in the scope come after it
  have below : ∀ {body : Term Tagged} {renewed : List (Tag × Tag)} {gen : Generator},
      gen.Leads gen.next.2 → gen.next.2.Leads (body.retag renewed gen.next.2).2 →
      ∀ z ∈ (body.retag renewed gen.next.2).1.binders, z.tag ≠ gen.next.1 := by
    intro body renewed gen toNext toBody z member same
    have new := tag_of_mem_binders_retag body toBody member
    rw [same, toNext.toInt_next] at new
    exact absurd new.1 (Int.lt_irrefl _)
  induction t with
  | var y =>
      intro renewed gen _
      rw [retag_var]
      trivial
  | app fn arg ihFn ihArg =>
      intro renewed gen leads
      obtain ⟨toFn, toArg⟩ := leads_retag_app leads
      exact ⟨ihFn toFn, ihArg toArg⟩
  | abs x body ih =>
      intro renewed gen leads
      obtain ⟨toNext, toBody⟩ := leads_retag_abs leads
      exact ⟨below toNext toBody, ih toBody⟩
  | pi x dom cod ihDom ihCod =>
      intro renewed gen leads
      obtain ⟨toDom, afterDom⟩ := leads_retag_pi leads
      obtain ⟨toNext, toCod⟩ := leads_retag_abs afterDom
      exact ⟨ihDom toDom, below toNext toCod, ihCod toCod⟩
  | sort u =>
      intro renewed gen _
      trivial

/-! ## Occurrences of a copy -/

/-- The free occurrences of a term turn into occurrences with tags up to the bound. -/
def Known (renewed : List (Tag × Tag)) (bound : Int) (t : Term Tagged) : Prop :=
  ∀ y, t.HasFree y → (renew renewed y).tag.toInt ≤ bound

variable {renewed gen}

section Parts

variable {bound bound' : Int} {x : Tagged} {fn arg dom cod t : Term Tagged}

theorem Known.mono (known : Known renewed bound t) (le : bound ≤ bound') : Known renewed bound' t :=
  fun y free => Int.le_trans (known y free) le

theorem Known.appFn (known : Known renewed bound (app fn arg)) : Known renewed bound fn :=
  fun y free => known y (hasFree_app.2 (.inl free))

theorem Known.appArg (known : Known renewed bound (app fn arg)) : Known renewed bound arg :=
  fun y free => known y (hasFree_app.2 (.inr free))

theorem Known.piDom (known : Known renewed bound (pi x dom cod)) : Known renewed bound dom :=
  fun y free => known y (hasFree_pi_iff_abs.2 (.inl free))

theorem Known.piScope (known : Known renewed bound (pi x dom cod)) :
    Known renewed bound (abs x cod) :=
  fun y free => known y (hasFree_pi_iff_abs.2 (.inr free))

end Parts

/-- A new tag in front of the list is the last one known. -/
theorem Known.below {x : Tagged} {body : Term Tagged} (known : Known renewed gen.count (abs x body))
    (toNext : gen.Leads gen.next.2) :
    Known ((x.tag, gen.next.1) :: renewed) gen.next.2.count body := by
  intro y free
  by_cases same : y.tag = x.tag
  · rw [renew_cons_self same]
    exact Int.le_of_eq toNext.toInt_next
  · rw [renew_cons_of_ne same]
    exact Int.le_trans (known y (hasFree_abs.2 ⟨free, same⟩)) toNext.le

/-- A new tag is none that a free occurrence turns into. -/
theorem Known.tag_ne_next {y : Tagged} {t : Term Tagged} (known : Known renewed gen.count t)
    (free : t.HasFree y) (toNext : gen.Leads gen.next.2) : (renew renewed y).tag ≠ gen.next.1 := by
  intro same
  have bound := known y free
  rw [same, toNext.toInt_next] at bound
  exact absurd bound (Int.not_le.2 gen.count_lt_next)

/-- A binder with a new tag takes away from a copy what it takes away from the term. -/
theorem hasFree_copy_below (name : Name) {x y' : Tagged} {body copy : Term Tagged}
    (inBody : copy.HasFree y' ↔
      ∃ y, body.HasFree y ∧ renew ((x.tag, gen.next.1) :: renewed) y = y')
    (known : Known renewed gen.count (abs x body)) (toNext : gen.Leads gen.next.2) :
    (abs ⟨name, gen.next.1⟩ copy).HasFree y' ↔
      ∃ y, (abs x body).HasFree y ∧ renew renewed y = y' := by
  rw [hasFree_abs, inBody]
  constructor
  · rintro ⟨⟨y, free, rfl⟩, other⟩
    by_cases same : y.tag = x.tag
    · rw [renew_cons_self same] at other
      exact absurd rfl other
    · exact ⟨y, hasFree_abs.2 ⟨free, same⟩, (renew_cons_of_ne same _ _).symm⟩
  · rintro ⟨y, free, rfl⟩
    obtain ⟨inside, other⟩ := hasFree_abs.1 free
    exact ⟨⟨y, inside, renew_cons_of_ne other _ _⟩, known.tag_ne_next free toNext⟩

/-- The free occurrences of a copy are those of the term, renewed. -/
theorem hasFree_retag {y' : Tagged} (t : Term Tagged) :
    ∀ {renewed : List (Tag × Tag)} {gen : Generator},
      gen.Leads (t.retag renewed gen).2 → Known renewed gen.count t →
        ((t.retag renewed gen).1.HasFree y' ↔ ∃ y, t.HasFree y ∧ renew renewed y = y') := by
  induction t with
  | var x =>
      intro renewed gen _ _
      rw [retag_var, hasFree_var]
      constructor
      · rintro rfl
        exact ⟨x, hasFree_var.2 rfl, rfl⟩
      · rintro ⟨y, free, rfl⟩
        rw [hasFree_var.1 free]
  | app fn arg ihFn ihArg =>
      intro renewed gen leads known
      obtain ⟨toFn, toArg⟩ := leads_retag_app leads
      have inFn := ihFn toFn known.appFn
      have inArg := ihArg toArg (known.appArg.mono toFn.le)
      simp only [retag_app, hasFree_app, inFn, inArg, or_and_right, exists_or]
  | abs x body ih =>
      intro renewed gen leads known
      obtain ⟨toNext, toBody⟩ := leads_retag_abs leads
      exact hasFree_copy_below x.name (ih toBody (known.below toNext)) known toNext
  | pi x dom cod ihDom ihCod =>
      intro renewed gen leads known
      obtain ⟨toDom, afterDom⟩ := leads_retag_pi leads
      obtain ⟨toNext, toCod⟩ := leads_retag_abs afterDom
      have inDom := ihDom toDom known.piDom
      have knownCod := known.piScope.mono toDom.le
      have inScope := hasFree_copy_below x.name (ihCod toCod (knownCod.below toNext)) knownCod
        toNext
      rw [retag_pi, hasFree_pi_iff_abs, inDom, inScope]
      simp only [hasFree_pi_iff_abs, or_and_right, exists_or]
  | sort u =>
      intro renewed gen _ _
      constructor
      · intro free
        exact absurd free not_hasFree_sort
      · rintro ⟨y, free, _⟩
        exact absurd free not_hasFree_sort

section Image

variable {φ : Type} (reading : Tagged → φ)

/-- Below a binder with a new tag, the images of the occurrences agree if they agreed outside. -/
theorem namelessIn_renew_below {x : Tagged} {body : Term Tagged} {scope scope' : List Tag}
    (known : Known renewed gen.count (abs x body)) (toNext : gen.Leads gen.next.2)
    (agree : ∀ y, (abs x body).HasFree y →
      (var (renew renewed y)).namelessIn reading scope' = (var y).namelessIn reading scope)
    (y : Tagged) (free : body.HasFree y) :
    (var (renew ((x.tag, gen.next.1) :: renewed) y)).namelessIn reading (gen.next.1 :: scope') =
      (var y).namelessIn reading (x.tag :: scope) := by
  by_cases same : y.tag = x.tag
  · rw [renew_cons_self same, namelessIn_var_cons_self reading same]
    exact namelessIn_var_cons_self reading rfl scope'
  · have outside := hasFree_abs.2 ⟨free, same⟩
    rw [renew_cons_of_ne same, namelessIn_var_cons_of_ne reading same, ← agree y outside]
    exact namelessIn_var_cons_of_ne reading (known.tag_ne_next outside toNext) scope'

/-- The image of a copy is that of the term, where the images of their occurrences agree. -/
theorem namelessIn_retag (t : Term Tagged) :
    ∀ {renewed : List (Tag × Tag)} {gen : Generator} {scope scope' : List Tag},
      gen.Leads (t.retag renewed gen).2 → Known renewed gen.count t →
      (∀ y, t.HasFree y →
        (var (renew renewed y)).namelessIn reading scope' = (var y).namelessIn reading scope) →
        (t.retag renewed gen).1.namelessIn reading scope' = t.namelessIn reading scope := by
  induction t with
  | var x =>
      intro renewed gen scope scope' _ _ agree
      rw [retag_var]
      exact agree x (hasFree_var.2 rfl)
  | app fn arg ihFn ihArg =>
      intro renewed gen scope scope' leads known agree
      obtain ⟨toFn, toArg⟩ := leads_retag_app leads
      have inFn := ihFn toFn known.appFn fun y free => agree y (hasFree_app.2 (.inl free))
      have inArg := ihArg toArg (known.appArg.mono toFn.le) fun y free =>
        agree y (hasFree_app.2 (.inr free))
      simp only [retag_app, namelessIn, inFn, inArg]
  | abs x body ih =>
      intro renewed gen scope scope' leads known agree
      obtain ⟨toNext, toBody⟩ := leads_retag_abs leads
      have inBody := ih toBody (known.below toNext)
        (namelessIn_renew_below reading known toNext agree)
      exact congrArg Nameless.abs inBody
  | pi x dom cod ihDom ihCod =>
      intro renewed gen scope scope' leads known agree
      obtain ⟨toDom, afterDom⟩ := leads_retag_pi leads
      obtain ⟨toNext, toCod⟩ := leads_retag_abs afterDom
      have knownCod := known.piScope.mono toDom.le
      have inDom := ihDom toDom known.piDom fun y free =>
        agree y (hasFree_pi_iff_abs.2 (.inl free))
      have inCod := ihCod toCod (knownCod.below toNext)
        (namelessIn_renew_below reading knownCod toNext fun y free =>
          agree y (hasFree_pi_iff_abs.2 (.inr free)))
      rw [retag_pi]
      simp only [namelessIn]
      rw [inDom]
      exact congrArg (Nameless.pi _) inCod
  | sort u =>
      intro renewed gen scope scope' _ _ _
      rfl

end Image

/-! ## Copies of a whole term -/

section Whole

variable {t : Term Tagged}

theorem known_nil {bound : Int} (upTo : t.TagsUpTo bound) : Known [] bound t :=
  upTo.free

/-- **A copy has the free occurrences of the term.** -/
theorem hasFree_retag_nil (leads : gen.Leads (t.retag [] gen).2) (upTo : t.TagsUpTo gen.count)
    (y : Tagged) : (t.retag [] gen).1.HasFree y ↔ t.HasFree y := by
  rw [hasFree_retag t leads (known_nil upTo)]
  simp only [renew_nil, exists_eq_right]

/-- **A copy has the nameless image of the term.** -/
theorem namelessIn_retag_nil {φ : Type} (reading : Tagged → φ)
    (leads : gen.Leads (t.retag [] gen).2) (upTo : t.TagsUpTo gen.count) (scope : List Tag) :
    (t.retag [] gen).1.namelessIn reading scope = t.namelessIn reading scope :=
  namelessIn_retag reading t leads (known_nil upTo) fun _ _ => rfl

end Whole

end Redex.Term
