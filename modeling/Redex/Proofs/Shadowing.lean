import Redex.Proofs.Untagging

/-!
# Untagging where tags are shadowed

A binder may lie in the scope of another binder with the same tag. An occurrence of that tag then
belongs to the inner one. Untagging keeps the names it gives by tag and hands them down: the name
given to the outer binder holds for the inner one as well, unless the inner one is given a name of
its own.

So an inner binder can lose its occurrences. If it keeps its name while its tag has been given
another one further out, its occurrences are printed with that other name and fall to the outer
binder. Which occurrences go astray in this way can be read off the tagged term and the result
(`strays`), and nothing else can go wrong: the result is α-equivalent to the tagged term exactly if
there is no such occurrence (`untag_alphaEquivalent_iff`).

What holds on the way down is that the tags with a given name are those of the binders around that
are printed with other names than their own, and that no given name is a name in the part that is
left (`Renaming.Reflects`). The second is why an occurrence that is printed with a given name never
falls back to the binder that lost it.
-/

set_option autoImplicit false

namespace Redex

/-! ## Occurrences that go astray -/

/-- The tags that have been given a name, below one more binder that is printed as `name`. -/
def givenBelow (given : List Tag) (x : Tagged) (name : Name) : List Tag :=
  if name = x.name then given else x.tag :: given

/-- The occurrences that a binder loses: those it claims, if it keeps its name although its tag has
been given another one. -/
def lostBy (given : List Tag) (x : Tagged) (name : Name) (scope : Term Tagged) : List Tagged :=
  if name = x.name ∧ x.tag ∈ given then (scope.freeOccurrences []).filter (·.tag = x.tag) else []

/-- The occurrences of a term that go astray when it is printed as the second one, where the tags in
the list have been given a name by binders around. -/
def strays : List Tag → Term Tagged → Term Name → List Tagged
  | given, .app fn arg, .app fn' arg' => strays given fn fn' ++ strays given arg arg'
  | given, .abs x body, .abs name body' =>
      lostBy given x name body ++ strays (givenBelow given x name) body body'
  | given, .pi x dom cod, .pi name dom' cod' =>
      strays given dom dom' ++
        (lostBy given x name cod ++ strays (givenBelow given x name) cod cod')
  | _, _, _ => []

theorem lostBy_eq_nil_iff {given : List Tag} {x : Tagged} {name : Name} {scope : Term Tagged} :
    lostBy given x name scope = [] ↔
      (name = x.name → x.tag ∈ given → ∀ y, scope.HasFree y → y.tag ≠ x.tag) := by
  unfold lostBy
  split
  · next lost =>
      simp only [List.filter_eq_nil_iff, decide_eq_true_eq, lost.1, lost.2, true_implies]
      exact Iff.rfl
  · next kept => exact iff_of_true rfl fun keeps member => absurd ⟨keeps, member⟩ kept

/-! ## The renaming on the way down -/

namespace Renaming

variable {renamed inner : Renaming} {given : List Tag} {x : Tagged} {scope : Term Tagged}
variable {name : Name}

/-- The name of a binder that collides is taken, by the occurrence it collides with. -/
theorem name_mem_taken (collision : renamed.collides x scope = true) :
    x.name ∈ renamed.taken scope := by
  obtain ⟨y, occurs, clash⟩ := List.any_eq_true.1 collision
  have printed : renamed.display y = x.name := beq_iff_eq.1 (Bool.and_eq_true_iff.1 clash).2
  refine List.mem_append_right _ (List.mem_flatMap.2 ⟨y, ?_, ?_⟩)
  · exact Term.mem_identifiers_of_mem_occurrences occurs
  · rw [printed]
    exact List.mem_cons_of_mem _ (List.mem_singleton.2 rfl)

/-- A binder keeps its name and leaves the renaming as it is, or is given a name that is not
taken. -/
theorem enter_cases (enters : renamed.enter x scope = .ok (name, inner)) :
    (name = x.name ∧ inner = renamed) ∨
      (name ≠ x.name ∧ name ∉ renamed.taken scope ∧ inner = renamed.give x.tag name) := by
  unfold enter at enters
  split at enters
  · next collision =>
      obtain ⟨new, picked, chosen⟩ := exists_ok_of_bind enters
      cases chosen
      have outside := pick_not_mem picked
      refine .inr ⟨?_, outside, rfl⟩
      rintro rfl
      exact outside (name_mem_taken collision)
  · cases enters
    exact .inl ⟨rfl, rfl⟩

/-- The tags with a given name are those in the list, and no given name is a name in the term. -/
structure Reflects (renamed : Renaming) (given : List Tag) (t : Term Tagged) : Prop where
  given : ∀ tag, (renamed.lookup tag).isSome = true ↔ tag ∈ given
  new : ∀ tag name, renamed.lookup tag = some name → ∀ y ∈ t.identifiers, y.name ≠ name

namespace Reflects

variable {t u : Term Tagged}

theorem nil (t : Term Tagged) : Reflects [] [] t :=
  ⟨fun _ => iff_of_false nofun List.not_mem_nil, nofun⟩

/-- It holds of the parts of a term. -/
theorem part (reflects : Reflects renamed given t) (inside : u.identifiers ⊆ t.identifiers) :
    Reflects renamed given u :=
  ⟨reflects.given, fun tag name found y member => reflects.new tag name found y (inside member)⟩

/-- **It holds below a binder**, whether the binder keeps its name or not. -/
theorem below (reflects : Reflects renamed given scope)
    (enters : renamed.enter x scope = .ok (name, inner)) :
    Reflects inner (givenBelow given x name) scope := by
  rcases enter_cases enters with ⟨keeps, rfl⟩ | ⟨changes, outside, rfl⟩
  · rw [givenBelow, if_pos keeps]
    exact reflects
  · rw [givenBelow, if_neg changes]
    refine ⟨fun tag => ?_, fun tag other found y member same => ?_⟩
    · by_cases own : tag = x.tag
      · rw [own, lookup_give_self]
        exact iff_of_true rfl List.mem_cons_self
      · rw [lookup_give_of_ne renamed name own, reflects.given tag, List.mem_cons]
        exact (or_iff_right own).symm
    · by_cases own : tag = x.tag
      · rw [own, lookup_give_self] at found
        cases found
        refine outside (List.mem_append_right _ (List.mem_flatMap.2 ⟨y, member, ?_⟩))
        rw [same]
        exact List.mem_cons_self
      · rw [lookup_give_of_ne renamed name own] at found
        exact reflects.new tag other found y member same

end Reflects

end Renaming

/-! ## Bindings -/

namespace Term

variable {renamed inner : Renaming} {given : List Tag} {x : Tagged} {body : Term Tagged}
variable {name : Name} {pairs : List (Tag × Name)}

/-- An occurrence that its binder claims is printed with the name of the binder, if it is not
lost. -/
theorem display_of_claimed (reflects : Renaming.Reflects renamed given (abs x body))
    (enters : renamed.enter x body = .ok (name, inner))
    (none : lostBy given x name body = []) {y : Tagged} (free : body.HasFree y)
    (same : y.tag = x.tag) (sameName : y.name = x.name) : inner.display y = name := by
  rcases Renaming.enter_cases enters with ⟨keeps, rfl⟩ | ⟨_, _, rfl⟩
  · cases found : inner.lookup x.tag with
    | none => rw [Renaming.display, same, found, Option.getD_none, sameName, keeps]
    | some other =>
        have member : x.tag ∈ given := (reflects.given x.tag).1 (by rw [found]; rfl)
        exact absurd same (lostBy_eq_nil_iff.1 none keeps member y free)
  · rw [Renaming.display, same, Renaming.lookup_give_self, Option.getD_some]

/-- An occurrence that is lost is not printed with the name of its binder. -/
theorem lostBy_eq_nil_of_display (reflects : Renaming.Reflects renamed given (abs x body))
    (enters : renamed.enter x body = .ok (name, inner))
    (printed : ∀ y, body.HasFree y → y.tag = x.tag → inner.display y = name) :
    lostBy given x name body = [] := by
  refine lostBy_eq_nil_iff.2 fun keeps member y free same => ?_
  obtain ⟨other, found⟩ := Option.isSome_iff_exists.1 ((reflects.given x.tag).2 member)
  rcases Renaming.enter_cases enters with ⟨_, rfl⟩ | ⟨changes, _⟩
  · have shown := printed y free same
    rw [Renaming.display, same, found, Option.getD_some] at shown
    refine reflects.new x.tag other found x List.mem_cons_self ?_
    rw [shown, keeps]
  · exact changes keeps

/-- Below a binder, occurrences and the names they are printed with correspond if they did outside
and the binder loses none. -/
theorem corresponds_below_iff (reflects : Renaming.Reflects renamed given (abs x body))
    (enters : renamed.enter x body = .ok (name, inner))
    (coherent : ∀ y, body.HasFree y → y.tag = x.tag → y.name = x.name) :
    (∀ y, body.HasFree y →
        Corresponds Tagged.name id ((x.tag, name) :: pairs) y (inner.display y)) ↔
      (∀ y, (abs x body).HasFree y → Corresponds Tagged.name id pairs y (renamed.display y)) ∧
        lostBy given x name body = [] := by
  have entered := Renaming.entered_of_enter enters
  have before : ∀ y : Tagged, y.tag ≠ x.tag → inner.display y = renamed.display y := by
    intro y other
    rw [Renaming.display, entered.others y.tag other]
    rfl
  constructor
  · intro agree
    refine ⟨fun y free => ?_, lostBy_eq_nil_of_display reflects enters fun y free same => ?_⟩
    · obtain ⟨inBody, other⟩ := hasFree_abs.1 free
      have corresponds := agree y inBody
      rw [before y other] at corresponds
      cases corresponds with
      | here _ same _ => exact absurd same other
      | there _ _ further => exact further
    · cases agree y free with
      | here _ _ printed => exact printed
      | there other _ _ => exact absurd same other
  · rintro ⟨agree, none⟩ y free
    by_cases same : y.tag = x.tag
    · exact .here pairs same
        (display_of_claimed reflects enters none free same (coherent y free same))
    · rw [before y same]
      exact .there same (entered.apart y free same) (agree y (hasFree_abs.2 ⟨free, same⟩))

/-- **A part of a term is printed with its bindings** if its free occurrences and the names they are
printed with correspond under the binders around, and none of its occurrences goes astray. -/
theorem alike_untagIn_iff (t : Term Tagged) :
    ∀ {renamed : Renaming} {given : List Tag} {pairs : List (Tag × Name)} {b : Term Name},
      t.Coherent → renamed.Reflects given t → t.untagIn renamed = .ok b →
      (Alike Tagged.name id pairs t b ↔
        (∀ y, t.HasFree y → Corresponds Tagged.name id pairs y (renamed.display y)) ∧
          strays given t b = []) := by
  induction t with
  | var x =>
      intro renamed given pairs b _ _ untagged
      cases untagged
      constructor
      · intro alike
        cases alike with
        | var corresponds =>
            refine ⟨fun y free => ?_, rfl⟩
            rwa [hasFree_var.1 free]
      · rintro ⟨agree, _⟩
        exact .var (agree x (hasFree_var.2 rfl))
  | app fn arg ihFn ihArg =>
      intro renamed given pairs b coherent reflects untagged
      obtain ⟨fn', inFn, rest⟩ := exists_ok_of_bind untagged
      obtain ⟨arg', inArg, whole⟩ := exists_ok_of_bind rest
      cases whole
      rw [alike_app_iff, ihFn coherent.1 (reflects.part (List.subset_append_left _ _)) inFn,
        ihArg coherent.2 (reflects.part (List.subset_append_right _ _)) inArg, strays,
        List.append_eq_nil_iff, and_and_and_comm]
      simp only [hasFree_app, or_imp, forall_and]
  | abs x body ih =>
      intro renamed given pairs b coherent reflects untagged
      obtain ⟨⟨name, inner⟩, enters, rest⟩ := exists_ok_of_bind untagged
      obtain ⟨body', inBody, whole⟩ := exists_ok_of_bind rest
      cases whole
      have below := (reflects.part (List.subset_cons_self _ _)).below enters
      have inScope : Alike Tagged.name id ((x.tag, name) :: pairs) body body' ↔ _ :=
        ih coherent.2 below inBody
      rw [corresponds_below_iff reflects enters coherent.1, and_assoc] at inScope
      rw [strays, List.append_eq_nil_iff]
      exact alike_abs_iff.trans inScope
  | pi x dom cod ihDom ihCod =>
      intro renamed given pairs b coherent reflects untagged
      obtain ⟨dom', inDom, rest⟩ := exists_ok_of_bind untagged
      obtain ⟨⟨name, inner⟩, enters, rest⟩ := exists_ok_of_bind rest
      obtain ⟨cod', inCod, whole⟩ := exists_ok_of_bind rest
      cases whole
      have reflectsDom : renamed.Reflects given dom := reflects.part
        (List.subset_cons_of_subset _ (List.subset_append_left _ _))
      have reflectsAbs : renamed.Reflects given (abs x cod) := reflects.part
        (List.cons_subset_cons _ (List.subset_append_right _ _))
      have below := (reflectsAbs.part (List.subset_cons_self _ _)).below enters
      have inScope : Alike Tagged.name id ((x.tag, name) :: pairs) cod cod' ↔ _ :=
        ihCod coherent.2.2 below inCod
      rw [corresponds_below_iff reflectsAbs enters coherent.2.1, and_assoc] at inScope
      have parts := alike_pi_iff.trans (and_congr (ihDom coherent.1 reflectsDom inDom) inScope)
      rw [parts, strays, List.append_eq_nil_iff, List.append_eq_nil_iff, and_and_and_comm]
      simp only [hasFree_pi_iff_abs, or_imp, forall_and]
  | sort u =>
      intro renamed given pairs b _ _ untagged
      cases untagged
      exact iff_of_true (.sort u) ⟨fun y free => absurd free not_hasFree_sort, rfl⟩

end Term

/-! ## Equal names for equal tags -/

/-- Identifiers with one tag have one name. -/
def Term.NamedByTag (t : Term Tagged) : Prop :=
  ∀ y ∈ t.identifiers, ∀ z ∈ t.identifiers, y.tag = z.tag → y.name = z.name

instance (t : Term Tagged) : Decidable t.NamedByTag :=
  inferInstanceAs
    (Decidable (∀ y ∈ t.identifiers, ∀ z ∈ t.identifiers, y.tag = z.tag → y.name = z.name))

namespace Term.NamedByTag

variable {t u : Term Tagged}

theorem part (named : t.NamedByTag) (inside : u.identifiers ⊆ t.identifiers) : u.NamedByTag :=
  fun y inU z inU' => named y (inside inU) z (inside inU')

/-- What a binder claims has its name. -/
theorem claimed {x : Tagged} {body : Term Tagged} (named : (abs x body).NamedByTag) (y : Tagged)
    (free : body.HasFree y) (same : y.tag = x.tag) : y.name = x.name :=
  named y (List.mem_cons_of_mem _ (mem_identifiers_of_hasFree free)) x List.mem_cons_self same

theorem coherent (named : t.NamedByTag) : t.Coherent := by
  induction t with
  | var x => trivial
  | app fn arg ihFn ihArg =>
      exact ⟨ihFn (named.part (List.subset_append_left _ _)),
        ihArg (named.part (List.subset_append_right _ _))⟩
  | abs x body ih => exact ⟨named.claimed, ih (named.part (List.subset_cons_self _ _))⟩
  | pi x dom cod ihDom ihCod =>
      have inDom : dom.NamedByTag :=
        named.part (List.subset_cons_of_subset _ (List.subset_append_left _ _))
      have inAbs : (abs x cod).NamedByTag :=
        named.part (List.cons_subset_cons _ (List.subset_append_right _ _))
      exact ⟨ihDom inDom, inAbs.claimed, ihCod (inAbs.part (List.subset_cons_self _ _))⟩
  | sort u => trivial

end Term.NamedByTag

/-- **Untagging keeps bindings exactly if no occurrence goes astray.** Let identifiers with one tag
have one name, and let the term be untagged. The result is α-equivalent to the tagged term, free
occurrences being compared by name, if and only if no binder that claims an occurrence keeps its
name in the scope of a renamed binder with its tag. The two are then written alike without bound
names. -/
theorem untag_alphaEquivalent_iff (t : Term Tagged) (b : Term Name) (named : t.NamedByTag)
    (untagged : t.untag = .ok b) :
    (AlphaEquivalent Tagged.name id t b ↔ strays [] t b = []) ∧
      (strays [] t b = [] → b.printNameless = (t.nameless Tagged.name).print) := by
  have whole : AlphaEquivalent Tagged.name id t b ↔ strays [] t b = [] :=
    (t.alike_untagIn_iff named.coherent (.nil t) untagged).trans
      (and_iff_right fun _ _ => .free rfl)
  refine ⟨whole, fun none => ?_⟩
  have image := alphaEquivalent_iff_nameless_eq.1 (whole.2 none)
  exact congrArg Nameless.print image.symm

/-- `λx.x (λx.body)` with one tag for both binders, where the variable in front is another `x`. -/
def sharedTag (body : Term Tagged) : Term Tagged :=
  .abs ⟨"x", 1⟩ (.app (.var ⟨"x", 2⟩) (.abs ⟨"x", 1⟩ body))

/-- The body `x x`, where the first `x` belongs to the inner binder and the second is the other
one. -/
def bothVariables : Term Tagged := .app (.var ⟨"x", 1⟩) (.var ⟨"x", 2⟩)

/-- The inner binder has to be renamed as well, and keeps what it claims. -/
theorem untag_sharedTag :
    ((sharedTag bothVariables).NamedByTag ∧ ¬ (sharedTag bothVariables).Unshadowed) ∧
      AlphaEquivalent Tagged.name id (sharedTag bothVariables)
        (.abs "a" (.app (.var "x") (.abs "b" (.app (.var "b") (.var "x"))))) := by
  have named : (sharedTag bothVariables).NamedByTag := by decide
  have untagged : (sharedTag bothVariables).untag =
      .ok (.abs "a" (.app (.var "x") (.abs "b" (.app (.var "b") (.var "x"))))) := by decide
  exact ⟨⟨named, by decide⟩, (untag_alphaEquivalent_iff _ _ named untagged).1.2 (by decide)⟩

/-- `λa.x (λx.a)`, where the variable of the body belongs to the outer binder. -/
def strayed : Term Name := .abs "a" (.app (.var "x") (.abs "x" (.var "a")))

/-- **An occurrence goes astray.** Here the inner binder keeps its name, so what it claims is printed
with the name of the outer one and belongs to the outer one afterwards. -/
theorem untag_loses_occurrence :
    (sharedTag (.var ⟨"x", 1⟩)).NamedByTag ∧ (sharedTag (.var ⟨"x", 1⟩)).untag = .ok strayed ∧
      strayed.printNameless = "(λ.(x (λ.1)))" ∧
      ((sharedTag (.var ⟨"x", 1⟩)).nameless Tagged.name).print = "(λ.(x (λ.0)))" ∧
      strayed.printNameless ≠ ((sharedTag (.var ⟨"x", 1⟩)).nameless Tagged.name).print := by
  decide

end Redex
