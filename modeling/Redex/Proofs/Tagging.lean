import Mathlib.Data.List.Nodup
import Mathlib.Data.List.Perm.Basic
import Redex.Proofs.Basic
import Redex.Proofs.WellTagged
import Redex.Tagging

/-!
# Tagging gives every variable an identity of its own

Tagging walks over a term and hands out tags on the way, to binders and to the free names it meets
first. What it does to its state is said by `Tagging.Advances`: the tags handed out are the next
ones of the generator, each of them is the tag of one binder or of one new free name, and the names
that get a tag are those that occur free and had none. Such passages compose, so that this holds of
a whole term once it holds of a single tag.

An occurrence carries the tag of the innermost binder of its name around it or, if there is none,
the tag of the free name (`Term.Resolves`). As no two tags handed out are the same, the tagged term
is well-tagged and its bound occurrences carry the names of their binders.
-/

set_option autoImplicit false

namespace Redex

open scoped List

/-! ## The tags of a generator -/

/-- Numbers that are not as far apart as there are tags have tags of their own. -/
theorem Tag.eq_of_ofInt_eq {a b : Int} (notAbove : a < b + Int64.size)
    (notBelow : b < a + Int64.size) (same : Int64.ofInt a = Int64.ofInt b) : a = b := by
  have words : a % (Int64.size : Int) = b % (Int64.size : Int) := by
    rw [← Int.bmod_emod, ← Int.bmod_emod (x := b), ← Int64.toInt_ofInt, same, Int64.toInt_ofInt]
  simp only [Int64.size] at words notAbove notBelow
  omega

namespace Generator

/-- The next tags of a generator. -/
def minted (gen : Generator) (count : Nat) : List Tag :=
  (List.range count).map fun i : Nat => Int64.ofInt (gen.count + 1 + i)

theorem minted_add (gen : Generator) (n m : Nat) :
    gen.minted (n + m) = gen.minted n ++ (gen.skip n).minted m := by
  rw [minted, List.range_add, List.map_append, List.map_map]
  congr 1
  refine List.map_congr_left fun i _ => ?_
  simp only [Function.comp, skip]
  congr 1
  push_cast
  omega

theorem minted_one (gen : Generator) : gen.minted 1 = [gen.next.1] := by
  simp [minted, next]

theorem skip_zero (gen : Generator) : gen.skip 0 = gen := by
  simp [skip]

theorem skip_skip (gen : Generator) (n m : Nat) : (gen.skip n).skip m = gen.skip (n + m) := by
  simp only [skip, Generator.mk.injEq]
  push_cast
  omega

variable {gen : Generator} {count : Nat}

/-- As long as they are words of their own, the tags are the numbers after the count. -/
theorem Leads.toInt_minted (leads : gen.Leads (gen.skip count)) {i : Nat} (inside : i < count) :
    (Int64.ofInt (gen.count + 1 + i)).toInt = gen.count + 1 + i := by
  obtain ⟨low, _, high⟩ := leads
  simp only [skip, Tag.least, Tag.greatest, Int64.toInt_minValue, Int64.toInt_maxValue] at *
  exact Int64.toInt_ofInt_of_le (by omega) (by omega)

theorem Leads.nodup_minted (leads : gen.Leads (gen.skip count)) : (gen.minted count).Nodup := by
  refine List.Nodup.map_on ?_ List.nodup_range
  intro i inside j inside' same
  have same' := congrArg Int64.toInt same
  rw [leads.toInt_minted (List.mem_range.1 inside), leads.toInt_minted (List.mem_range.1 inside')]
    at same'
  omega

/-- No tag is handed out twice before all have been. -/
theorem nodup_minted_of_le (gen : Generator) (few : count ≤ Int64.size) :
    (gen.minted count).Nodup := by
  refine List.Nodup.map_on ?_ List.nodup_range
  intro i inside j inside' same
  rw [List.mem_range] at inside inside'
  have numbers := Tag.eq_of_ofInt_eq (by omega) (by omega) same
  omega

theorem Leads.mem_minted (leads : gen.Leads (gen.skip count)) {tag : Tag}
    (member : tag ∈ gen.minted count) :
    gen.count < tag.toInt ∧ tag.toInt ≤ (gen.skip count).count := by
  obtain ⟨i, inside, rfl⟩ := List.mem_map.1 member
  have below := List.mem_range.1 inside
  rw [leads.toInt_minted below]
  change gen.count < _ ∧ _ ≤ gen.count + (count : Int)
  omega

end Generator

/-! ## The state of a tagging -/

namespace Tagging

/-- The tag of a free name, once it has one. -/
def tagOf (state : Tagging) (x : Name) : Tag := (state.free.lookup x).getD 0

/-- From one state to another, tags are handed out to binders, whose tags are listed, and to the
free names for which `Meets` holds and that have no tag yet. -/
structure Advances (before after : Tagging) (binders : List Tag) (Meets : Name → Prop) : Prop where
  /-- A free name keeps its tag. -/
  kept : ∀ x tag, before.free.lookup x = some tag → after.free.lookup x = some tag
  /-- The free names that have a tag afterwards. -/
  met : ∀ x, (after.free.lookup x).isSome ↔ (before.free.lookup x).isSome ∨ Meets x
  /-- No free name gets two tags. -/
  once : (before.free.map Prod.fst).Nodup → (after.free.map Prod.fst).Nodup
  /-- All tags are the next ones of the generator, and none is used twice. -/
  minted : ∃ n, after.gen = before.gen.skip n ∧
    (binders ++ after.free.map Prod.snd).Perm (before.gen.minted n ++ before.free.map Prod.snd)

namespace Advances

variable {before mid after : Tagging} {binders binders' : List Tag} {Meets Meets' : Name → Prop}

theorem stay (state : Tagging) (known : ∀ x, Meets x → (state.free.lookup x).isSome) :
    Advances state state [] Meets where
  kept _ _ found := found
  met x := ⟨.inl, fun either => either.elim id (known x)⟩
  once nodup := nodup
  minted := ⟨0, state.gen.skip_zero.symm, .refl _⟩

/-- A binder takes the next tag. -/
theorem binder (state : Tagging) :
    Advances state { state with gen := state.gen.next.2 } [state.gen.next.1] fun _ => False where
  kept _ _ found := found
  met x := by simp
  once nodup := nodup
  minted := ⟨1, rfl, by rw [Generator.minted_one]⟩

/-- A free name that has no tag yet takes the next one. -/
theorem name {state : Tagging} {x : Name} (new : state.free.lookup x = none) :
    Advances state ⟨state.gen.next.2, (x, state.gen.next.1) :: state.free⟩ [] (· = x) where
  kept y tag found := by
    rw [List.lookup_cons]
    have other : (y == x) = false := by
      refine beq_eq_false_iff_ne.2 ?_
      rintro rfl
      rw [new] at found
      cases found
    rw [other]
    exact found
  met y := by
    rw [List.lookup_cons]
    by_cases same : y = x
    · simp [same]
    · simp [beq_eq_false_iff_ne.2 same, same]
  once nodup := by
    rw [List.map_cons, List.nodup_cons]
    refine ⟨?_, nodup⟩
    intro member
    obtain ⟨entry, inFree, same⟩ := List.mem_map.1 member
    have other := List.lookup_eq_none_iff.1 new entry inFree
    exact absurd same.symm (by simpa using other)
  minted := ⟨1, rfl, by rw [Generator.minted_one]; rfl⟩

/-- Passages compose. -/
theorem trans (first : Advances before mid binders Meets)
    (second : Advances mid after binders' Meets') :
    Advances before after (binders ++ binders') fun x => Meets x ∨ Meets' x where
  kept x tag found := second.kept x tag (first.kept x tag found)
  met x := by rw [second.met, first.met, or_assoc]
  once nodup := second.once (first.once nodup)
  minted := by
    obtain ⟨n, gen, perm⟩ := first.minted
    obtain ⟨m, gen', perm'⟩ := second.minted
    refine ⟨n + m, by rw [gen', gen, Generator.skip_skip], ?_⟩
    rw [gen] at perm'
    rw [Generator.minted_add, List.append_assoc, List.append_assoc]
    calc
      binders ++ (binders' ++ after.free.map Prod.snd)
        ~ binders ++ ((before.gen.skip n).minted m ++ mid.free.map Prod.snd) :=
          perm'.append_left _
      _ ~ (before.gen.skip n).minted m ++ (binders ++ mid.free.map Prod.snd) :=
          List.perm_append_comm_assoc _ _ _
      _ ~ (before.gen.skip n).minted m ++ (before.gen.minted n ++ before.free.map Prod.snd) :=
          perm.append_left _
      _ ~ before.gen.minted n ++ ((before.gen.skip n).minted m ++ before.free.map Prod.snd) :=
          List.perm_append_comm_assoc _ _ _

theorem congr (advances : Advances before after binders Meets) (same : ∀ x, Meets x ↔ Meets' x) :
    Advances before after binders Meets' :=
  { advances with met := fun x => by rw [advances.met, same] }

end Advances

end Tagging

namespace Term

/-! ## Tagging a term -/

/-- Every occurrence carries the tag of the innermost binder of its name, among those of the term
and those around it, which are listed from the innermost one on; or, if there is none, the tag that
belongs to the free name. A product binds in its codomain only. -/
def Resolves (free : Name → Tag) : List Tagged → Term Tagged → Prop
  | around, var x =>
      x.tag = match around.find? (·.name = x.name) with
        | some binder => binder.tag
        | none => free x.name
  | around, app fn arg => fn.Resolves free around ∧ arg.Resolves free around
  | around, abs x body => body.Resolves free (x :: around)
  | around, pi x dom cod => dom.Resolves free around ∧ cod.Resolves free (x :: around)
  | _, sort _ => True

/-- The names of the binders around, with their tags. -/
def scopeOf (around : List Tagged) : List (Name × Tag) := around.map fun z => (z.name, z.tag)

theorem lookup_scopeOf (around : List Tagged) (x : Name) :
    (scopeOf around).lookup x = (around.find? (·.name = x)).map Tagged.tag := by
  induction around with
  | nil => rfl
  | cons z around ih =>
      rw [scopeOf, List.map_cons, List.lookup_cons, List.find?_cons]
      by_cases same : z.name = x
      · simp [same]
      · have other : (x == z.name) = false := beq_eq_false_iff_ne.2 fun h => same h.symm
        simpa [scopeOf, same, other] using ih

/-- The name occurs free in the term, and no binder around has it. -/
def Meets (around : List Tagged) (t : Term Name) (x : Name) : Prop :=
  t.HasFree x ∧ ∀ z ∈ around, z.name ≠ x

/-- What tagging makes of a term under some binders, from one state to another. -/
structure TaggedAs (around : List Tagged) (before : Tagging) (t : Term Name) (u : Term Tagged)
    (after : Tagging) : Prop where
  names : u.map Tagged.name = t
  /-- Occurrences follow the tags that free names have afterwards, or will have later on. -/
  resolves : ∀ free : Name → Tag, (∀ x tag, after.free.lookup x = some tag → free x = tag) →
    u.Resolves free around
  advances : before.Advances after (u.binders.map Tagged.tag) (Meets around t)

namespace TaggedAs

variable {around : List Tagged} {before mid after : Tagging} {x : Name}
variable {fn arg body dom cod : Term Name} {fn' arg' body' dom' cod' : Term Tagged}

theorem app (inFn : TaggedAs around before fn fn' mid)
    (inArg : TaggedAs around mid arg arg' after) :
    TaggedAs around before (app fn arg) (app fn' arg') after where
  names := by rw [map, inFn.names, inArg.names]
  resolves free later :=
    ⟨inFn.resolves free fun x tag found => later x tag (inArg.advances.kept x tag found),
      inArg.resolves free later⟩
  advances := by
    rw [binders, List.map_append]
    refine (inFn.advances.trans inArg.advances).congr fun x => ?_
    rw [Meets, Meets, Meets, hasFree_app, or_and_right]

/-- The names met below a binder are those met in its scope, apart from its own. -/
theorem meets_below {z : Tagged} (x : Name) :
    Meets (z :: around) body x ↔ Meets around (abs z.name body) x := by
  rw [Meets, Meets, hasFree_abs, List.forall_mem_cons, and_assoc, ne_comm]
  exact Iff.rfl

theorem abs {z : Tagged} (tag : z.tag = before.gen.next.1)
    (inBody : TaggedAs (z :: around) { before with gen := before.gen.next.2 } body body' after) :
    TaggedAs around before (abs z.name body) (abs z body') after where
  names := by rw [map, inBody.names]
  resolves := inBody.resolves
  advances := by
    rw [binders, List.map_cons, tag]
    refine ((Tagging.Advances.binder before).trans inBody.advances).congr fun x => ?_
    rw [false_or, meets_below]

theorem pi {z : Tagged} (tag : z.tag = before.gen.next.1)
    (inDom : TaggedAs around { before with gen := before.gen.next.2 } dom dom' mid)
    (inCod : TaggedAs (z :: around) mid cod cod' after) :
    TaggedAs around before (pi z.name dom cod) (pi z dom' cod') after where
  names := by rw [map, inDom.names, inCod.names]
  resolves free later :=
    ⟨inDom.resolves free fun x tag found => later x tag (inCod.advances.kept x tag found),
      inCod.resolves free later⟩
  advances := by
    rw [binders, List.map_cons, List.map_append, tag]
    refine ((Tagging.Advances.binder before).trans
      (inDom.advances.trans inCod.advances)).congr fun x => ?_
    rw [false_or, meets_below, Meets, Meets, Meets, hasFree_pi_iff_abs, or_and_right]

end TaggedAs

theorem taggedAs_var (around : List Tagged) (x : Name) (state : Tagging) :
    TaggedAs around state (var x) ((var x).tagIn (scopeOf around) state).1
      ((var x).tagIn (scopeOf around) state).2 := by
  rw [tagIn, lookup_scopeOf]
  cases binder : around.find? (·.name = x) with
  | some z =>
      -- a binder around claims the name
      have member := List.mem_of_find?_eq_some binder
      have name : z.name = x := by simpa using List.find?_some binder
      refine ⟨rfl, fun free _ => ?_, .stay state fun y meets => ?_⟩
      · simp only [Option.map_some, Option.some_or, Resolves, binder]
      · exact absurd (name.trans (hasFree_var.1 meets.1).symm) (meets.2 z member)
  | none =>
      have unclaimed : ∀ z ∈ around, z.name ≠ x := by simpa using binder
      have meets : ∀ y, Meets around (var x) y ↔ y = x := by
        intro y
        refine ⟨fun meets => hasFree_var.1 meets.1, ?_⟩
        rintro rfl
        exact ⟨hasFree_var.2 rfl, unclaimed⟩
      cases known : state.free.lookup x with
      | some tag =>
          refine ⟨rfl, fun free later => ?_, .stay state fun y met => ?_⟩
          · simp only [Option.map_none, Option.none_or, Resolves, binder]
            exact (later x tag known).symm
          · rw [(meets y).1 met, known]
            rfl
      | none =>
          refine ⟨rfl, fun free later => ?_,
            (Tagging.Advances.name known).congr fun y => (meets y).symm⟩
          simp only [Option.map_none, Option.none_or, Resolves, binder]
          exact (later x _ (by simp)).symm

/-- **Tagging follows the binders.** -/
theorem taggedAs_tagIn (t : Term Name) :
    ∀ (around : List Tagged) (state : Tagging),
      TaggedAs around state t (t.tagIn (scopeOf around) state).1
        (t.tagIn (scopeOf around) state).2 := by
  induction t with
  | var x => exact fun around state => taggedAs_var around x state
  | app fn arg ihFn ihArg => exact fun around state => (ihFn around state).app (ihArg around _)
  | abs x body ih => exact fun around state => .abs rfl (ih (⟨x, state.gen.next.1⟩ :: around) _)
  | pi x dom cod ihDom ihCod =>
      exact fun around state =>
        .pi rfl (ihDom around _) (ihCod (⟨x, state.gen.next.1⟩ :: around) _)
  | sort u =>
      intro around state
      refine ⟨rfl, fun _ _ => trivial, .stay state fun x meets => ?_⟩
      exact absurd meets.1 not_hasFree_sort

/-! ## Identities -/

variable {free : Name → Tag}

/-- What occurs free in a term has the tag of a binder around it of its name, or that of the free
name. -/
theorem Resolves.of_hasFree {u : Term Tagged} {y : Tagged} :
    ∀ {around : List Tagged}, u.Resolves free around → u.HasFree y →
      (∃ z ∈ around, z.name = y.name ∧ z.tag = y.tag) ∨
        (Meets around (u.map Tagged.name) y.name ∧ y.tag = free y.name) := by
  -- a binder does not claim an occurrence that is free outside of it
  have below : ∀ {around : List Tagged} {x : Tagged} {body : Term Tagged}, y.tag ≠ x.tag →
      ((∃ z ∈ x :: around, z.name = y.name ∧ z.tag = y.tag) ∨
        (Meets (x :: around) (body.map Tagged.name) y.name ∧ y.tag = free y.name)) →
      (∃ z ∈ around, z.name = y.name ∧ z.tag = y.tag) ∨
        (Meets around ((abs x body).map Tagged.name) y.name ∧ y.tag = free y.name) := by
    rintro around x body other (⟨z, member, name, tag⟩ | ⟨meets, tag⟩)
    · rcases List.mem_cons.1 member with rfl | member
      · exact absurd tag.symm other
      · exact .inl ⟨z, member, name, tag⟩
    · exact .inr ⟨(TaggedAs.meets_below _).1 meets, tag⟩
  induction u with
  | var x =>
      intro around resolves occurs
      rw [hasFree_var.1 occurs]
      simp only [Resolves] at resolves
      split at resolves
      · next z found =>
          exact .inl ⟨z, List.mem_of_find?_eq_some found, by simpa using List.find?_some found,
            resolves.symm⟩
      · next unclaimed =>
          exact .inr ⟨⟨hasFree_var.2 rfl, by simpa using unclaimed⟩, resolves⟩
  | app fn arg ihFn ihArg =>
      intro around resolves occurs
      rcases hasFree_app.1 occurs with inFn | inArg
      · refine (ihFn resolves.1 inFn).imp_right fun ⟨meets, tag⟩ => ⟨⟨?_, meets.2⟩, tag⟩
        exact hasFree_app.2 (.inl meets.1)
      · refine (ihArg resolves.2 inArg).imp_right fun ⟨meets, tag⟩ => ⟨⟨?_, meets.2⟩, tag⟩
        exact hasFree_app.2 (.inr meets.1)
  | abs x body ih =>
      intro around resolves occurs
      obtain ⟨inBody, other⟩ := hasFree_abs.1 occurs
      exact below other (ih resolves inBody)
  | pi x dom cod ihDom ihCod =>
      intro around resolves occurs
      rcases hasFree_pi.1 occurs with inDom | ⟨inCod, other⟩
      · refine (ihDom resolves.1 inDom).imp_right fun ⟨meets, tag⟩ => ⟨⟨?_, meets.2⟩, tag⟩
        exact hasFree_pi.2 (.inl meets.1)
      · refine (below other (ihCod resolves.2 inCod)).imp_right
          fun ⟨meets, tag⟩ => ⟨⟨?_, meets.2⟩, tag⟩
        exact hasFree_pi_iff_abs.2 (.inr meets.1)
  | sort u => exact fun _ occurs => absurd occurs not_hasFree_sort

/-- The tagged term is the term, its occurrences carry the tags they belong to, and every binder
and every free name has a tag of its own. -/
structure Identifies (t : Term Name) (free : Name → Tag) (u : Term Tagged) : Prop where
  names : u.map Tagged.name = t
  resolves : u.Resolves free []
  bound : (u.binders.map Tagged.tag).Nodup
  unbound : ∀ x, t.HasFree x → ∀ y, t.HasFree y → free x = free y → x = y
  apart : ∀ x, t.HasFree x → ∀ z ∈ u.binders, free x ≠ z.tag

namespace TaggedAs

variable {gen : Generator} {t : Term Name} {u : Term Tagged} {after : Tagging}

theorem mem_free_iff (tagged : TaggedAs [] ⟨gen, []⟩ t u after) (x : Name) :
    x ∈ after.free.map Prod.fst ↔ t.HasFree x := by
  have met := tagged.advances.met x
  simp only [List.lookup_nil, Option.isSome_none, Bool.false_eq_true, false_or, Meets,
    List.not_mem_nil, false_implies, implies_true, and_true] at met
  rw [← met, isSome_lookup_iff]

/-- A tag for every binder, and one for every free name. -/
theorem gen_eq (tagged : TaggedAs [] ⟨gen, []⟩ t u after) :
    after.gen = gen.skip (t.binders.length + t.free.length) ∧
      u.binders.map Tagged.tag ++ after.free.map Prod.snd ~
        gen.minted (t.binders.length + t.free.length) := by
  obtain ⟨n, skip, perm⟩ := tagged.advances.minted
  rw [List.map_nil, List.append_nil] at perm
  have free : after.free.map Prod.fst ~ t.free :=
    (List.perm_ext_iff_of_nodup (tagged.advances.once List.nodup_nil) (nodup_firstOfEach _)).2
      fun x => (tagged.mem_free_iff x).trans mem_free.symm
  have length : n = t.binders.length + t.free.length := by
    have sizes := perm.length_eq
    have sizes' := free.length_eq
    have binders := congrArg List.length (binders_map Tagged.name u)
    rw [tagged.names] at binders
    simp only [List.length_append, List.length_map, Generator.minted, List.length_range]
      at sizes sizes' binders
    omega
  rw [← length]
  exact ⟨skip, perm⟩

theorem resolves_tagOf (tagged : TaggedAs [] ⟨gen, []⟩ t u after) : u.Resolves after.tagOf [] := by
  refine tagged.resolves _ fun x tag found => ?_
  rw [Tagging.tagOf, found, Option.getD_some]

/-- The tag of a free name is one of those handed out to free names. -/
theorem tagOf_mem (tagged : TaggedAs [] ⟨gen, []⟩ t u after) {x : Name} (free : t.HasFree x) :
    (x, after.tagOf x) ∈ after.free := by
  have known := (tagged.advances.met x).2 (.inr ⟨free, fun z none => absurd none List.not_mem_nil⟩)
  obtain ⟨tag, found⟩ := Option.isSome_iff_exists.1 known
  obtain ⟨before, behind, split, _⟩ := List.lookup_eq_some_iff.1 found
  rw [Tagging.tagOf, found, Option.getD_some, split]
  exact List.mem_append_right _ List.mem_cons_self

/-- **Every binder and every free name has a tag of its own**, if no tag is handed out twice. -/
theorem identifies_of_nodup (tagged : TaggedAs [] ⟨gen, []⟩ t u after)
    (once : (gen.minted (t.binders.length + t.free.length)).Nodup) :
    Identifies t after.tagOf u := by
  have nodup := tagged.gen_eq.2.nodup_iff.2 once
  obtain ⟨bound, unbound, apart⟩ := List.nodup_append'.1 nodup
  refine ⟨tagged.names, tagged.resolves_tagOf, bound, ?_, ?_⟩
  · intro x freeX y freeY same
    have entry := List.inj_on_of_nodup_map unbound (tagged.tagOf_mem freeX)
      (tagged.tagOf_mem freeY) same
    exact congrArg Prod.fst entry
  · intro x freeX z binds same
    refine apart (List.mem_map_of_mem binds) ?_
    rw [← same]
    exact List.mem_map_of_mem (f := Prod.snd) (tagged.tagOf_mem freeX)

theorem identifies (tagged : TaggedAs [] ⟨gen, []⟩ t u after) (leads : gen.Leads after.gen) :
    Identifies t after.tagOf u := by
  rw [tagged.gen_eq.1] at leads
  exact tagged.identifies_of_nodup leads.nodup_minted

end TaggedAs

theorem tag_ne_of_nodup {x : Tagged} {body : Term Tagged}
    (nodup : ((abs x body).binders.map Tagged.tag).Nodup) : ∀ z ∈ body.binders, z.tag ≠ x.tag := by
  intro z member same
  rw [binders, List.map_cons, List.nodup_cons, ← same] at nodup
  exact nodup.1 (List.mem_map_of_mem member)

theorem unshadowed_of_nodup {u : Term Tagged} (nodup : (u.binders.map Tagged.tag).Nodup) :
    u.Unshadowed := by
  induction u with
  | var x => trivial
  | app fn arg ihFn ihArg =>
      rw [binders, List.map_append, List.nodup_append'] at nodup
      exact ⟨ihFn nodup.1, ihArg nodup.2.1⟩
  | abs x body ih => exact ⟨tag_ne_of_nodup nodup, ih nodup.of_cons⟩
  | pi x dom cod ihDom ihCod =>
      have inside := nodup.of_cons
      rw [List.map_append, List.nodup_append'] at inside
      have inCod : ((abs x cod).binders.map Tagged.tag).Nodup :=
        nodup.sublist ((List.sublist_append_right _ _).cons_cons x |>.map Tagged.tag)
      exact ⟨ihDom inside.1, tag_ne_of_nodup inCod, ihCod inside.2.1⟩
  | sort u => trivial

/-- No binder of a term has the tag of a binder around it or of a name that is free in it. -/
def Clear (free : Name → Tag) (around : List Tagged) (u : Term Tagged) : Prop :=
  ∀ z ∈ u.binders, (∀ w ∈ around, w.tag ≠ z.tag) ∧
    ∀ x, Meets around (u.map Tagged.name) x → free x ≠ z.tag

namespace Clear

variable {around : List Tagged} {x : Tagged} {fn arg body dom cod : Term Tagged}

theorem appFn (clear : Clear free around (app fn arg)) : Clear free around fn := by
  intro z binds
  obtain ⟨outside, unbound⟩ := clear z (mem_binders_app.2 (.inl binds))
  exact ⟨outside, fun x meets => unbound x ⟨hasFree_app.2 (.inl meets.1), meets.2⟩⟩

theorem appArg (clear : Clear free around (app fn arg)) : Clear free around arg := by
  intro z binds
  obtain ⟨outside, unbound⟩ := clear z (mem_binders_app.2 (.inr binds))
  exact ⟨outside, fun x meets => unbound x ⟨hasFree_app.2 (.inr meets.1), meets.2⟩⟩

theorem absBody (clear : Clear free around (abs x body))
    (unshadowed : ∀ z ∈ body.binders, z.tag ≠ x.tag) : Clear free (x :: around) body := by
  intro z binds
  obtain ⟨outside, unbound⟩ := clear z (mem_binders_abs.2 (.inr binds))
  exact ⟨List.forall_mem_cons.2 ⟨(unshadowed z binds).symm, outside⟩,
    fun y meets => unbound y ((TaggedAs.meets_below y).1 meets)⟩

theorem piDom (clear : Clear free around (pi x dom cod)) : Clear free around dom := by
  intro z binds
  obtain ⟨outside, unbound⟩ := clear z (mem_binders_pi.2 (.inr (.inl binds)))
  exact ⟨outside, fun y meets => unbound y ⟨hasFree_pi.2 (.inl meets.1), meets.2⟩⟩

theorem piAbs (clear : Clear free around (pi x dom cod)) : Clear free around (abs x cod) := by
  intro z binds
  obtain ⟨outside, unbound⟩ :=
    clear z (mem_binders_pi.2 ((mem_binders_abs.1 binds).imp_right .inr))
  exact ⟨outside, fun y meets => unbound y ⟨hasFree_pi_iff_abs.2 (.inr meets.1), meets.2⟩⟩

/-- What has the tag of a binder in its scope has the name of the binder too. -/
theorem name_eq (clear : Clear free around (abs x body))
    (resolves : body.Resolves free (x :: around)) {y : Tagged} (occurs : body.HasFree y)
    (same : y.tag = x.tag) : y.name = x.name := by
  obtain ⟨outside, unbound⟩ := clear x (mem_binders_abs.2 (.inl rfl))
  rcases resolves.of_hasFree occurs with ⟨z, member, name, tag⟩ | ⟨meets, tag⟩
  · rcases List.mem_cons.1 member with rfl | member
    · exact name.symm
    · exact absurd (tag.trans same) (outside z member)
  · exact absurd (tag.symm.trans same) (unbound _ ((TaggedAs.meets_below _).1 meets))

end Clear

/-- Bound occurrences carry the names of their binders. -/
theorem Resolves.coherent {u : Term Tagged} :
    ∀ {around : List Tagged}, u.Resolves free around → u.Unshadowed → Clear free around u →
      u.Coherent := by
  induction u with
  | var x => exact fun _ _ _ => trivial
  | app fn arg ihFn ihArg =>
      intro around resolves unshadowed clear
      exact ⟨ihFn resolves.1 unshadowed.1 clear.appFn, ihArg resolves.2 unshadowed.2 clear.appArg⟩
  | abs x body ih =>
      intro around resolves unshadowed clear
      exact ⟨fun y => clear.name_eq resolves, ih resolves unshadowed.2 (clear.absBody unshadowed.1)⟩
  | pi x dom cod ihDom ihCod =>
      intro around resolves unshadowed clear
      exact ⟨ihDom resolves.1 unshadowed.1 clear.piDom, fun y => clear.piAbs.name_eq resolves.2,
        ihCod resolves.2 unshadowed.2.2 (clear.piAbs.absBody unshadowed.2.1)⟩
  | sort u => exact fun _ _ _ => trivial

namespace Identifies

variable {t : Term Name} {u : Term Tagged}

/-- An occurrence free in the tagged term is one of a free name, with its tag. -/
theorem of_hasFree (identifies : Identifies t free u) {y : Tagged} (occurs : u.HasFree y) :
    t.HasFree y.name ∧ y.tag = free y.name := by
  rcases identifies.resolves.of_hasFree occurs with ⟨z, none, _⟩ | ⟨meets, tag⟩
  · cases none
  · exact ⟨identifies.names ▸ meets.1, tag⟩

theorem wellTagged (identifies : Identifies t free u) : u.WellTagged where
  unshadowed := unshadowed_of_nodup identifies.bound
  apart y occurs z binds := by
    obtain ⟨inTerm, tag⟩ := identifies.of_hasFree occurs
    rw [tag]
    exact identifies.apart _ inTerm z binds

theorem clear (identifies : Identifies t free u) : Clear free [] u := by
  refine fun z binds => ⟨fun _ none => absurd none List.not_mem_nil, fun x meets => ?_⟩
  exact identifies.apart x (identifies.names ▸ meets.1) z binds

theorem coherent (identifies : Identifies t free u) : u.Coherent :=
  identifies.resolves.coherent identifies.wellTagged.unshadowed identifies.clear

end Identifies

variable {t : Term Name} {gen : Generator}

theorem taggedAs_tagWith (t : Term Name) (gen : Generator) :
    TaggedAs [] ⟨gen, []⟩ t (t.tagWith gen).1 (t.tagIn [] ⟨gen, []⟩).2 :=
  taggedAs_tagIn t [] ⟨gen, []⟩

/-- The generator goes on by one tag for every binder and one for every free name. -/
theorem tagWith_gen (t : Term Name) (gen : Generator) :
    (t.tagWith gen).2 = gen.skip (t.binders.length + t.free.length) :=
  (taggedAs_tagWith t gen).gen_eq.1

theorem leads_tagWith (word : Tag.least ≤ gen.count)
    (suffice : (t.tagWith gen).2.count ≤ Tag.greatest) : gen.Leads (t.tagWith gen).2 := by
  refine ⟨word, ?_, suffice⟩
  rw [tagWith_gen]
  exact Int.le_add_of_nonneg_right (Int.natCast_nonneg _)

theorem mem_minted_of_mem_identifiers {x : Tagged} (member : x ∈ (t.tagWith gen).1.identifiers) :
    x.tag ∈ gen.minted (t.binders.length + t.free.length) := by
  have tagged := taggedAs_tagWith t gen
  rw [← tagged.gen_eq.2.mem_iff, List.mem_append]
  rcases hasFree_or_of_mem_identifiers member with occurs | ⟨z, binds, same⟩
  · rcases tagged.resolves_tagOf.of_hasFree occurs with ⟨z, none, _⟩ | ⟨meets, tag⟩
    · cases none
    · rw [tagged.names] at meets
      rw [tag]
      exact .inr (List.mem_map_of_mem (f := Prod.snd) (tagged.tagOf_mem meets.1))
  · have same : z.tag = x.tag := same
    exact .inl (same ▸ List.mem_map_of_mem binds)

/-- **Tagging gives every variable an identity of its own.** As long as the generator does not pass
the largest tag, the tagged term is the term with tags on its names, every occurrence carries the
tag of the innermost binder of its name or else the tag of the free name, and no two binders or free
names share a tag. All tags lie between the two counts of the generator, which are as far apart as
there are binders and free names. -/
theorem tagWith_identifies (t : Term Name) (gen : Generator) (word : Tag.least ≤ gen.count)
    (suffice : (t.tagWith gen).2.count ≤ Tag.greatest) :
    (∃ free : Name → Tag, Identifies t free (t.tagWith gen).1) ∧
    (∀ x ∈ (t.tagWith gen).1.identifiers,
      gen.count < x.tag.toInt ∧ x.tag.toInt ≤ (t.tagWith gen).2.count) ∧
    (t.tagWith gen).2.count = gen.count + (t.binders.length + t.free.length) := by
  have leads := leads_tagWith word suffice
  refine ⟨⟨_, (taggedAs_tagWith t gen).identifies leads⟩, ?_, ?_⟩
  · intro x member
    rw [tagWith_gen] at leads ⊢
    exact leads.mem_minted (mem_minted_of_mem_identifiers member)
  · rw [tagWith_gen]
    rfl

/-- A name free, bound and free again, and a product whose domain is outside of the scope of its
binder. -/
def shadowingSiblings : Term Name :=
  .app (.app (.var "x") (.abs "x" (.app (.var "x") (.abs "y" (.abs "x" (.var "y"))))))
    (.app (.pi "x" (.var "x") (.app (.var "x") (.var "y"))) (.var "x"))

/-- The last tags suffice for it. -/
theorem tagWith_identifies_shadowingSiblings :
    Tag.least ≤ Tag.greatest - 6 ∧
    (shadowingSiblings.tagWith ⟨Tag.greatest - 6⟩).2.count ≤ Tag.greatest ∧
    (∃ free : Name → Tag,
      Identifies shadowingSiblings free (shadowingSiblings.tagWith ⟨Tag.greatest - 6⟩).1) ∧
    (∀ x ∈ (shadowingSiblings.tagWith ⟨Tag.greatest - 6⟩).1.identifiers,
      Tag.greatest - 6 < x.tag.toInt ∧
        x.tag.toInt ≤ (shadowingSiblings.tagWith ⟨Tag.greatest - 6⟩).2.count) ∧
    (shadowingSiblings.tagWith ⟨Tag.greatest - 6⟩).2.count =
      Tag.greatest - 6 + (shadowingSiblings.binders.length + shadowingSiblings.free.length) :=
  ⟨by decide, by decide +kernel,
    tagWith_identifies shadowingSiblings ⟨Tag.greatest - 6⟩ (by decide) (by decide +kernel)⟩

end Term

end Redex
