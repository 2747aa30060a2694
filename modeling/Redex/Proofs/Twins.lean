import Redex.Proofs.Untagging

/-!
# Terms with other bound tags

Two runs that take their tags from different generators do not come to the same tagged term, but to
terms that differ in the tags of binders, and of the occurrences these claim, and in nothing else.
Such terms are twins (`Twins`): they have the same shape and the same names, their occurrences
belong to binders at the same places, and what is free in them is the same, tag and all.

Untagging cannot tell twins apart (`Twins.untagIn_eq`). It looks at tags only to see whether two
occurrences are one variable and to find the name that was given to a binder, and it makes its
choices from names. What holds on the way down is that the renamings made so far list the same
names, and print corresponding occurrences alike.
-/

set_option autoImplicit false

namespace Redex

open Term

/-- The terms differ at most in the tags of binders and of the occurrences they claim, where the
binders of the pairs lie around them. -/
structure Twins (pairs : List (Tag × Tag)) (t t' : Term Tagged) : Prop where
  /-- The shape is the same, and so is every name. -/
  names : t.map Tagged.name = t'.map Tagged.name
  /-- Occurrences belong to binders at the same places, or are free and the same identifier. -/
  bindings : Alike id id pairs t t'

namespace Twins

variable {pairs : List (Tag × Tag)} {x x' : Tagged}
variable {t t' u fn fn' arg arg' body body' dom dom' cod cod' : Term Tagged}

/-! ## Parts of twins -/

theorem refl (t : Term Tagged) : Twins [] t t :=
  ⟨rfl, alphaEquivalent_iff_nameless_eq.2 rfl⟩

theorem app (left : Twins pairs fn fn') (right : Twins pairs arg arg') :
    Twins pairs (app fn arg) (app fn' arg') where
  names := by simp only [map, left.names, right.names]
  bindings := .app left.bindings right.bindings

theorem abs (name : x.name = x'.name) (inside : Twins ((x.tag, x'.tag) :: pairs) body body') :
    Twins pairs (abs x body) (abs x' body') where
  names := by simp only [map, name, inside.names]
  bindings := .abs inside.bindings

theorem pi (name : x.name = x'.name) (left : Twins pairs dom dom')
    (right : Twins ((x.tag, x'.tag) :: pairs) cod cod') :
    Twins pairs (pi x dom cod) (pi x' dom' cod') where
  names := by simp only [map, name, left.names, right.names]
  bindings := .pi left.bindings right.bindings

theorem var_parts (twins : Twins pairs (var x) u) :
    ∃ y, u = var y ∧ x.name = y.name ∧ Corresponds id id pairs x y := by
  obtain ⟨names, bindings⟩ := twins
  cases bindings with
  | var corresponds => exact ⟨_, rfl, Term.var.inj names, corresponds⟩

theorem app_parts (twins : Twins pairs (Term.app fn arg) u) :
    ∃ fn' arg', u = Term.app fn' arg' ∧ Twins pairs fn fn' ∧ Twins pairs arg arg' := by
  obtain ⟨names, bindings⟩ := twins
  cases bindings with
  | app inFn inArg =>
      obtain ⟨fnNames, argNames⟩ := Term.app.inj names
      exact ⟨_, _, rfl, ⟨fnNames, inFn⟩, ⟨argNames, inArg⟩⟩

theorem abs_parts (twins : Twins pairs (Term.abs x body) u) :
    ∃ x' body', u = Term.abs x' body' ∧ x.name = x'.name ∧
      Twins ((x.tag, x'.tag) :: pairs) body body' := by
  obtain ⟨names, bindings⟩ := twins
  cases bindings with
  | abs inBody =>
      obtain ⟨name, bodyNames⟩ := Term.abs.inj names
      exact ⟨_, _, rfl, name, ⟨bodyNames, inBody⟩⟩

theorem pi_parts (twins : Twins pairs (Term.pi x dom cod) u) :
    ∃ x' dom' cod', u = Term.pi x' dom' cod' ∧ x.name = x'.name ∧ Twins pairs dom dom' ∧
      Twins ((x.tag, x'.tag) :: pairs) cod cod' := by
  obtain ⟨names, bindings⟩ := twins
  cases bindings with
  | pi inDom inCod =>
      obtain ⟨name, domNames, codNames⟩ := Term.pi.inj names
      exact ⟨_, _, _, rfl, name, ⟨domNames, inDom⟩, ⟨codNames, inCod⟩⟩

theorem sort_parts {v : Universe} (twins : Twins pairs (sort v) u) : u = sort v := by
  obtain ⟨names, bindings⟩ := twins
  cases bindings with
  | sort v => rfl

/-! ## What can be read off the identifiers -/

/-- Something read off identifiers is the same for twins, if it depends on the name only where a
binder of the term claims the identifier, and is the same for occurrences that correspond. -/
theorem map_identifiers {α : Type} (f f' : Tagged → α) (byName : Name → α)
    (twins : Twins pairs t t')
    (inside : ∀ z ∈ t.binders, ∀ y : Tagged, y.tag = z.tag → f y = byName y.name)
    (inside' : ∀ z ∈ t'.binders, ∀ y : Tagged, y.tag = z.tag → f' y = byName y.name)
    (outside : ∀ y y', Corresponds id id pairs y y' → y.name = y'.name → f y = f' y') :
    t.identifiers.map f = t'.identifiers.map f' ∧
      t.occurrences.map f = t'.occurrences.map f' := by
  -- below a binder, the occurrences it claims are read by name
  have below : ∀ {pairs : List (Tag × Tag)} {x x' : Tagged},
      (∀ y : Tagged, y.tag = x.tag → f y = byName y.name) →
      (∀ y : Tagged, y.tag = x'.tag → f' y = byName y.name) →
      (∀ y y', Corresponds id id pairs y y' → y.name = y'.name → f y = f' y') →
      ∀ y y', Corresponds id id ((x.tag, x'.tag) :: pairs) y y' → y.name = y'.name →
        f y = f' y' := by
    intro pairs x x' own own' outside y y' corresponds name
    cases corresponds with
    | here _ same same' => rw [own y same, own' y' same', name]
    | there _ _ further => exact outside y y' further name
  induction t generalizing pairs t' with
  | var x =>
      obtain ⟨y, rfl, name, corresponds⟩ := twins.var_parts
      have same := congrArg (fun value => [value]) (outside x y corresponds name)
      exact ⟨same, same⟩
  | app fn arg ihFn ihArg =>
      obtain ⟨fn', arg', rfl, inFn, inArg⟩ := twins.app_parts
      have left := ihFn inFn (fun z member => inside z (mem_binders_app.2 (.inl member)))
        (fun z member => inside' z (mem_binders_app.2 (.inl member))) outside
      have right := ihArg inArg (fun z member => inside z (mem_binders_app.2 (.inr member)))
        (fun z member => inside' z (mem_binders_app.2 (.inr member))) outside
      simp only [identifiers, occurrences, List.map_append, left, right, and_self]
  | abs x body ih =>
      obtain ⟨x', body', rfl, name, inBody⟩ := twins.abs_parts
      have own := inside x (mem_binders_abs.2 (.inl rfl))
      have own' := inside' x' (mem_binders_abs.2 (.inl rfl))
      have rest := ih inBody (fun z member => inside z (mem_binders_abs.2 (.inr member)))
        (fun z member => inside' z (mem_binders_abs.2 (.inr member))) (below own own' outside)
      simp only [identifiers, occurrences, List.map_cons, own x rfl, own' x' rfl, name, rest,
        and_self]
  | pi x dom cod ihDom ihCod =>
      obtain ⟨x', dom', cod', rfl, name, inDom, inCod⟩ := twins.pi_parts
      have own := inside x (mem_binders_pi.2 (.inl rfl))
      have own' := inside' x' (mem_binders_pi.2 (.inl rfl))
      have left := ihDom inDom (fun z member => inside z (mem_binders_pi.2 (.inr (.inl member))))
        (fun z member => inside' z (mem_binders_pi.2 (.inr (.inl member)))) outside
      have right := ihCod inCod (fun z member => inside z (mem_binders_pi.2 (.inr (.inr member))))
        (fun z member => inside' z (mem_binders_pi.2 (.inr (.inr member))))
        (below own own' outside)
      simp only [identifiers, occurrences, List.map_cons, List.map_append, own x rfl, own' x' rfl,
        name, left, right, and_self]
  | sort u =>
      rw [twins.sort_parts]
      exact ⟨rfl, rfl⟩

end Twins

/-! ## Untagging twins -/

namespace Renaming

variable {renamed renamed' : Renaming} {pairs : List (Tag × Tag)} {x x' : Tagged}
variable {scope scope' : Term Tagged}

/-- The renamings list the same names, and print corresponding occurrences of one name alike. -/
structure Agree (pairs : List (Tag × Tag)) (renamed renamed' : Renaming) : Prop where
  values : renamed.map (·.2) = renamed'.map (·.2)
  display : ∀ y y', Corresponds id id pairs y y' → y.name = y'.name →
    renamed.display y = renamed'.display y'

theorem agree_nil : Agree [] [] [] where
  values := rfl
  display y y' corresponds _ := by
    cases corresponds with
    | free equal => rw [show y = y' from equal]

theorem display_of_unnamed {y z : Tagged} (unnamed : renamed.lookup z.tag = none)
    (same : y.tag = z.tag) : renamed.display y = y.name := by
  rw [display, same, unnamed]
  rfl

theorem display_give_self {tag : Tag} {y : Tagged} (same : y.tag = tag) (name : Name) :
    (renamed.give tag name).display y = name := by
  rw [display, same, lookup_give_self]
  rfl

theorem display_give_of_ne {tag : Tag} {y : Tagged} (other : y.tag ≠ tag) (name : Name) :
    (renamed.give tag name).display y = renamed.display y := by
  rw [display, lookup_give_of_ne renamed name other]
  rfl

/-- Giving a name to a binder that has none puts it in front of the others. -/
theorem values_give {tag : Tag} (unnamed : renamed.lookup tag = none) (name : Name) :
    (renamed.give tag name).map (·.2) = name :: renamed.map (·.2) := by
  have others : renamed.filter (·.1 ≠ tag) = renamed := by
    refine List.filter_eq_self.2 fun entry member => decide_eq_true ?_
    exact (bne_iff_ne.1 (List.lookup_eq_none_iff.1 unnamed entry member)).symm
  rw [give, others, List.map_cons]

theorem lettersUsed_eq_of_values (values : renamed.map (·.2) = renamed'.map (·.2)) :
    renamed.lettersUsed = renamed'.lettersUsed := by
  have byValue : ∀ renamed : Renaming, renamed.lettersUsed =
      ((renamed.map (·.2)).filterMap alphabet.idxOf?).foldl (fun used i => max used (i + 1)) 0 := by
    intro renamed
    rw [List.filterMap_map]
    rfl
  rw [byValue renamed, byValue renamed', values]

/-- What a binder looks at in an identifier of its scope: whether it is another variable, its name,
and the name it is printed with. -/
def view (renamed : Renaming) (x y : Tagged) : Bool × Name × Name :=
  (decide (y.tag ≠ x.tag), y.name, renamed.display y)

theorem collides_eq_any_view (renamed : Renaming) (x : Tagged) (scope : Term Tagged) :
    renamed.collides x scope =
      (scope.occurrences.map (renamed.view x)).any fun seen => seen.1 && seen.2.2 == x.name := by
  rw [List.any_map]
  rfl

theorem taken_eq_flatMap_view (renamed : Renaming) (x : Tagged) (scope : Term Tagged) :
    renamed.taken scope = renamed.map (·.2) ++
      (scope.identifiers.map (renamed.view x)).flatMap fun seen => [seen.2.1, seen.2.2] := by
  rw [List.flatMap_map]
  rfl

theorem view_of_unnamed {y z : Tagged} (unnamed : renamed.lookup z.tag = none)
    (other : z.tag ≠ x.tag) (same : y.tag = z.tag) :
    renamed.view x y = (true, y.name, y.name) := by
  rw [view, display_of_unnamed unnamed same, same, decide_eq_true other]

/-- Binders look at the same in the identifiers of twins. -/
theorem Agree.view (agree : Agree pairs renamed renamed')
    (twins : Twins ((x.tag, x'.tag) :: pairs) scope scope')
    (unnamed : ∀ z ∈ (abs x scope).binders, renamed.lookup z.tag = none)
    (unnamed' : ∀ z ∈ (abs x' scope').binders, renamed'.lookup z.tag = none)
    (unshadowed : ∀ z ∈ scope.binders, z.tag ≠ x.tag)
    (unshadowed' : ∀ z ∈ scope'.binders, z.tag ≠ x'.tag) :
    scope.identifiers.map (renamed.view x) = scope'.identifiers.map (renamed'.view x') ∧
      scope.occurrences.map (renamed.view x) = scope'.occurrences.map (renamed'.view x') := by
  refine twins.map_identifiers (renamed.view x) (renamed'.view x') (fun name => (true, name, name))
    ?_ ?_ ?_
  · intro z member y same
    exact view_of_unnamed (unnamed z (mem_binders_abs.2 (.inr member))) (unshadowed z member) same
  · intro z member y same
    exact view_of_unnamed (unnamed' z (mem_binders_abs.2 (.inr member))) (unshadowed' z member) same
  · intro y y' corresponds name
    have own := unnamed x (mem_binders_abs.2 (.inl rfl))
    have own' := unnamed' x' (mem_binders_abs.2 (.inl rfl))
    simp only [Renaming.view]
    cases corresponds with
    | here _ same same' =>
        have same : y.tag = x.tag := same
        have same' : y'.tag = x'.tag := same'
        rw [display_of_unnamed own same, display_of_unnamed own' same', name, same, same']
        simp
    | there other other' further =>
        have other : y.tag ≠ x.tag := other
        have other' : y'.tag ≠ x'.tag := other'
        rw [agree.display y y' further name, name, decide_eq_true other, decide_eq_true other']

/-- Below a binder that keeps its name the renamings agree. -/
theorem Agree.keep (agree : Agree pairs renamed renamed') (unnamed : renamed.lookup x.tag = none)
    (unnamed' : renamed'.lookup x'.tag = none) :
    Agree ((x.tag, x'.tag) :: pairs) renamed renamed' where
  values := agree.values
  display y y' corresponds name := by
    cases corresponds with
    | here _ same same' =>
        rw [display_of_unnamed unnamed same, display_of_unnamed unnamed' same', name]
    | there _ _ further => exact agree.display y y' further name

/-- Below a binder that is given a name the renamings agree. -/
theorem Agree.give (agree : Agree pairs renamed renamed') (unnamed : renamed.lookup x.tag = none)
    (unnamed' : renamed'.lookup x'.tag = none) (new : Name) :
    Agree ((x.tag, x'.tag) :: pairs) (renamed.give x.tag new) (renamed'.give x'.tag new) where
  values := by rw [values_give unnamed, values_give unnamed', agree.values]
  display y y' corresponds name := by
    cases corresponds with
    | here _ same same' => rw [display_give_self same, display_give_self same']
    | there other other' further =>
        rw [display_give_of_ne other, display_give_of_ne other']
        exact agree.display y y' further name

/-- **Binders of twins make the same choice**: they fail alike, or get the same name and leave
renamings that agree in their scopes. -/
theorem Agree.enter (agree : Agree pairs renamed renamed') (name : x.name = x'.name)
    (twins : Twins ((x.tag, x'.tag) :: pairs) scope scope')
    (unnamed : ∀ z ∈ (abs x scope).binders, renamed.lookup z.tag = none)
    (unnamed' : ∀ z ∈ (abs x' scope').binders, renamed'.lookup z.tag = none)
    (unshadowed : ∀ z ∈ scope.binders, z.tag ≠ x.tag)
    (unshadowed' : ∀ z ∈ scope'.binders, z.tag ≠ x'.tag) :
    (∃ failure, renamed.enter x scope = .error failure ∧
        renamed'.enter x' scope' = .error failure) ∨
      ∃ new inner inner', renamed.enter x scope = .ok (new, inner) ∧
        renamed'.enter x' scope' = .ok (new, inner') ∧
        Agree ((x.tag, x'.tag) :: pairs) inner inner' := by
  obtain ⟨identifiers, occurrences⟩ := agree.view twins unnamed unnamed' unshadowed unshadowed'
  have own := unnamed x (mem_binders_abs.2 (.inl rfl))
  have own' := unnamed' x' (mem_binders_abs.2 (.inl rfl))
  have collides : renamed.collides x scope = renamed'.collides x' scope' := by
    rw [collides_eq_any_view, collides_eq_any_view, occurrences, name]
  have taken : renamed.taken scope = renamed'.taken scope' := by
    rw [taken_eq_flatMap_view renamed x, taken_eq_flatMap_view renamed' x', identifiers,
      agree.values]
  have picks : renamed.pick (renamed.taken scope) x.name =
      renamed'.pick (renamed'.taken scope') x'.name := by
    rw [pick, pick, lettersUsed_eq_of_values agree.values, taken, name]
  unfold Renaming.enter
  rw [collides]
  cases renamed'.collides x' scope' with
  | false =>
      refine .inr ⟨x.name, renamed, renamed', rfl, ?_, agree.keep own own'⟩
      rw [name]
      rfl
  | true =>
      rw [picks]
      cases renamed'.pick (renamed'.taken scope') x'.name with
      | error failure => exact .inl ⟨failure, rfl, rfl⟩
      | ok new => exact .inr ⟨new, _, _, rfl, rfl, agree.give own own' new⟩

end Renaming

theorem mem_binders_pi_of_abs {z x : Tagged} {dom cod : Term Tagged}
    (member : z ∈ (abs x cod).binders) : z ∈ (pi x dom cod).binders :=
  mem_binders_pi.2 ((mem_binders_abs.1 member).imp_right .inr)

/-- **Untagging cannot tell twins apart.** -/
theorem Twins.untagIn_eq {t : Term Tagged} :
    ∀ {t' : Term Tagged} {pairs : List (Tag × Tag)} {renamed renamed' : Renaming},
      Twins pairs t t' → Renaming.Agree pairs renamed renamed' → t.Unshadowed → t'.Unshadowed →
      (∀ z ∈ t.binders, renamed.lookup z.tag = none) →
      (∀ z ∈ t'.binders, renamed'.lookup z.tag = none) →
        t.untagIn renamed = t'.untagIn renamed' := by
  induction t with
  | var x =>
      intro t' pairs renamed renamed' twins agree _ _ _ _
      obtain ⟨y, rfl, name, corresponds⟩ := twins.var_parts
      rw [untagIn, untagIn, agree.display x y corresponds name]
  | app fn arg ihFn ihArg =>
      intro t' pairs renamed renamed' twins agree unshadowed unshadowed' unnamed unnamed'
      obtain ⟨fn', arg', rfl, inFn, inArg⟩ := twins.app_parts
      have left := ihFn inFn agree unshadowed.1 unshadowed'.1
        (fun z member => unnamed z (mem_binders_app.2 (.inl member)))
        (fun z member => unnamed' z (mem_binders_app.2 (.inl member)))
      have right := ihArg inArg agree unshadowed.2 unshadowed'.2
        (fun z member => unnamed z (mem_binders_app.2 (.inr member)))
        (fun z member => unnamed' z (mem_binders_app.2 (.inr member)))
      rw [untagIn, untagIn, left, right]
  | abs x body ih =>
      intro t' pairs renamed renamed' twins agree unshadowed unshadowed' unnamed unnamed'
      obtain ⟨x', body', rfl, name, inBody⟩ := twins.abs_parts
      rw [untagIn, untagIn]
      rcases agree.enter name inBody unnamed unnamed' unshadowed.1 unshadowed'.1 with
        ⟨failure, enters, enters'⟩ | ⟨new, inner, inner', enters, enters', below⟩
      · rw [enters, enters']
        rfl
      · have rest := ih inBody below unshadowed.2 unshadowed'.2
          (unnamed_below (Renaming.entered_of_enter enters) unshadowed.1
            fun z member => unnamed z (mem_binders_abs.2 (.inr member)))
          (unnamed_below (Renaming.entered_of_enter enters') unshadowed'.1
            fun z member => unnamed' z (mem_binders_abs.2 (.inr member)))
        rw [enters, enters']
        simp only [bind, Except.bind, rest]
  | pi x dom cod ihDom ihCod =>
      intro t' pairs renamed renamed' twins agree unshadowed unshadowed' unnamed unnamed'
      obtain ⟨x', dom', cod', rfl, name, inDom, inCod⟩ := twins.pi_parts
      have left := ihDom inDom agree unshadowed.1 unshadowed'.1
        (fun z member => unnamed z (mem_binders_pi.2 (.inr (.inl member))))
        (fun z member => unnamed' z (mem_binders_pi.2 (.inr (.inl member))))
      rw [untagIn, untagIn, left]
      rcases agree.enter name inCod (fun z member => unnamed z (mem_binders_pi_of_abs member))
          (fun z member => unnamed' z (mem_binders_pi_of_abs member)) unshadowed.2.1
          unshadowed'.2.1 with
        ⟨failure, enters, enters'⟩ | ⟨new, inner, inner', enters, enters', below⟩
      · rw [enters, enters']
        simp only [bind, Except.bind]
      · have rest := ihCod inCod below unshadowed.2.2 unshadowed'.2.2
          (unnamed_below (Renaming.entered_of_enter enters) unshadowed.2.1
            fun z member => unnamed z (mem_binders_pi.2 (.inr (.inr member))))
          (unnamed_below (Renaming.entered_of_enter enters') unshadowed'.2.1
            fun z member => unnamed' z (mem_binders_pi.2 (.inr (.inr member))))
        rw [enters, enters']
        simp only [bind, Except.bind, rest]
  | sort u =>
      intro t' pairs renamed renamed' twins _ _ _ _ _
      rw [twins.sort_parts]
      rfl

theorem Twins.untag_eq {t t' : Term Tagged} (twins : Twins [] t t') (unshadowed : t.Unshadowed)
    (unshadowed' : t'.Unshadowed) : t.untag = t'.untag :=
  twins.untagIn_eq Renaming.agree_nil unshadowed unshadowed' (fun _ _ => rfl) fun _ _ => rfl

end Redex
