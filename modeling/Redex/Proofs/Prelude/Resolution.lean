import Mathlib.Computability.Primrec.List
import Mathlib.Data.List.Permutation
import Mathlib.Data.String.Basic
import Redex.Prelude.Resolution
import Redex.Proofs.Basic
import Redex.Proofs.Prelude.Expansion

/-!
# Resolution succeeds exactly on closed acyclic definitions

A definition refers to the defined names that occur free in its term. Resolution follows these
references, each definition's in an order of its own, and keeps the definitions that it has finished
and those that it is in the middle of apart.

Of the finished ones it is known that they are closed, that they are the terms as written with each
free occurrence replaced, and that none lies on a cycle (`Resolved`). A definition is added to them
when all it mentions is among them; a cycle through it would lead from one of those back to it, but
references do not lead out of the finished definitions. Each of the others leads to the name that is
being resolved, so meeting one of them again closes a cycle.

What one call comes to is said by `Outcome`: a prelude in order, or an error that the definitions
deserve (`Deserves`). That the result does not depend on the order of references, as far as success
goes, follows from this alone.
-/

set_option autoImplicit false

namespace Redex.Prelude

open Relation

/-! ## References -/

/-- The definition of the first name mentions the second one, which is defined. -/
def Refers (raw : Raw) (name x : Name) : Prop :=
  ∃ t, raw.lookup name = some t ∧ t.HasFree x ∧ (raw.lookup x).isSome = true

/-- No definition leads back to itself. -/
def Acyclic (raw : Raw) : Prop := ∀ name, ¬ TransGen (Refers raw) name name

/-- Every name that a definition mentions is defined. -/
def IsClosed (raw : Raw) : Prop :=
  ∀ name t, raw.lookup name = some t → ∀ x, t.HasFree x → (raw.lookup x).isSome = true

/-- The free names of a term that are not defined, in the order in which they are met. -/
def undefined (raw : Raw) (t : Term Name) : List Name :=
  t.free.filter fun x => (raw.lookup x).isNone

theorem mem_undefined {raw : Raw} {t : Term Name} {x : Name} :
    x ∈ undefined raw t ↔ t.HasFree x ∧ raw.lookup x = none := by
  rw [undefined, List.mem_filter, Term.mem_free, Option.isNone_iff_eq_none]

/-- The definitions give rise to the error: a definition leads back to itself, or one mentions
names that are not defined, and those are the names listed. -/
def Deserves (raw : Raw) : PreludeError → Prop
  | .cyclic name => TransGen (Refers raw) name name
  | .unbound name mentioned => ∃ t, raw.lookup name = some t ∧ undefined raw t ≠ [] ∧
      mentioned = Name.sorted (undefined raw t)
  | .invalidDocument => False
  | .unreadable _ _ => False

theorem not_deserves {raw : Raw} (acyclic : Acyclic raw) (closed : IsClosed raw)
    (error : PreludeError) : ¬ Deserves raw error := by
  intro deserved
  cases error with
  | invalidDocument => exact deserved
  | unreadable => exact deserved
  | cyclic name => exact acyclic name deserved
  | unbound name mentioned =>
      obtain ⟨t, found, some, _⟩ := deserved
      obtain ⟨x, member⟩ := List.exists_mem_of_ne_nil _ some
      obtain ⟨occurs, missing⟩ := mem_undefined.1 member
      have defined := closed name t found x occurs
      rw [missing] at defined
      cases defined

/-! ## Finished definitions -/

theorem lookup?_define_self (p : Prelude) (name : Name) (t : Term Name) :
    (p.define name t).lookup? name = some t := by
  simp [define, lookup?]

theorem lookup?_define_of_ne (p : Prelude) {name x : Name} (t : Term Name) (other : x ≠ name) :
    (p.define name t).lookup? x = p.lookup? x := by
  rw [define, lookup?, List.lookup_cons, beq_eq_false_iff_ne.2 other]
  rfl

/-- What is found after one more definition. -/
theorem lookup?_define_cases {p : Prelude} {name x : Name} {t d : Term Name}
    (found : (p.define name t).lookup? x = some d) :
    (x = name ∧ d = t) ∨ p.lookup? x = some d := by
  by_cases same : x = name
  · rw [same, lookup?_define_self, Option.some.injEq] at found
    exact .inl ⟨same, found.symm⟩
  · rw [lookup?_define_of_ne p t same] at found
    exact .inr found

theorem lookup?_define_of_new {p : Prelude} {name x : Name} {d : Term Name} (t : Term Name)
    (new : p.lookup? name = none) (found : p.lookup? x = some d) :
    (p.define name t).lookup? x = some d := by
  rw [lookup?_define_of_ne p t]
  · exact found
  · rintro rfl
    rw [new] at found
    cases found

/-- The definitions that are finished are in order. -/
structure Resolved (raw : Raw) (p : Prelude) : Prop where
  closed : ∀ name d, p.lookup? name = some d → d.Closed
  replaces : ∀ name d, p.lookup? name = some d →
    ∃ t, raw.lookup name = some t ∧ Replaces p.lookup? [] t d
  acyclic : ∀ name, (p.lookup? name).isSome = true → ¬ TransGen (Refers raw) name name

namespace Resolved

variable {raw : Raw} {p : Prelude} {name : Name} {t : Term Name}

theorem empty (raw : Raw) : Resolved raw empty where
  closed _ _ found := by cases found
  replaces _ _ found := by cases found
  acyclic _ found := by cases found

theorem isSome_raw (resolved : Resolved raw p) (defined : (p.lookup? name).isSome = true) :
    (raw.lookup name).isSome = true := by
  obtain ⟨d, found⟩ := Option.isSome_iff_exists.1 defined
  obtain ⟨t, inRaw, _⟩ := resolved.replaces name d found
  rw [inRaw]
  rfl

theorem isSome_of_refers (resolved : Resolved raw p) (defined : (p.lookup? name).isSome = true)
    {x : Name} (refers : Refers raw name x) : (p.lookup? x).isSome = true := by
  obtain ⟨d, found⟩ := Option.isSome_iff_exists.1 defined
  obtain ⟨t, inRaw, replaces⟩ := resolved.replaces name d found
  obtain ⟨t', inRaw', occurs, _⟩ := refers
  rw [inRaw] at inRaw'
  cases inRaw'
  exact replaces.isSome_of_hasFree occurs List.not_mem_nil

/-- References do not lead out of the finished definitions. -/
theorem isSome_of_reaches (resolved : Resolved raw p) (defined : (p.lookup? name).isSome = true)
    {x : Name} (reaches : ReflTransGen (Refers raw) name x) : (p.lookup? x).isSome = true := by
  induction reaches with
  | refl => exact defined
  | tail _ refers ih => exact resolved.isSome_of_refers ih refers

theorem acyclic_raw (resolved : Resolved raw p)
    (defined : ∀ name, (raw.lookup name).isSome = true → (p.lookup? name).isSome = true) :
    Acyclic raw := by
  intro name cycle
  obtain ⟨_, ⟨t, written, _⟩, _⟩ := TransGen.head'_iff.1 cycle
  exact resolved.acyclic name (defined name (by rw [written]; rfl)) cycle

theorem isClosed_raw (resolved : Resolved raw p)
    (defined : ∀ name, (raw.lookup name).isSome = true → (p.lookup? name).isSome = true) :
    IsClosed raw := by
  intro name t written x occurs
  obtain ⟨d, found⟩ := Option.isSome_iff_exists.1 (defined name (by rw [written]; rfl))
  obtain ⟨t', written', replaces⟩ := resolved.replaces name d found
  rw [written] at written'
  cases written'
  exact resolved.isSome_raw (replaces.isSome_of_hasFree occurs List.not_mem_nil)

/-- References from a definition all of whose names are finished do not lead back to it. -/
theorem not_cyclic (resolved : Resolved raw p) (new : p.lookup? name = none)
    (found : raw.lookup name = some t)
    (defined : ∀ x, t.HasFree x → (p.lookup? x).isSome = true) :
    ¬ TransGen (Refers raw) name name := by
  intro cycle
  -- the first reference leads into the finished definitions, and nothing leads out again
  obtain ⟨x, ⟨t', found', occurs, _⟩, back⟩ := TransGen.head'_iff.1 cycle
  rw [found] at found'
  cases found'
  have again := resolved.isSome_of_reaches (defined x occurs) back
  rw [new] at again
  cases again

/-- **A definition all of whose names are finished is finished by expanding it.** -/
theorem define (resolved : Resolved raw p) (new : p.lookup? name = none)
    (found : raw.lookup name = some t)
    (defined : ∀ x, t.HasFree x → (p.lookup? x).isSome = true) :
    Resolved raw (p.define name (p.expand t)) where
  closed x d afterwards := by
    rcases lookup?_define_cases afterwards with ⟨_, rfl⟩ | before
    · exact closed_expand resolved.closed defined
    · exact resolved.closed x d before
  replaces x d afterwards := by
    have kept := fun x d => lookup?_define_of_new (x := x) (d := d) (p.expand t) new
    rcases lookup?_define_cases afterwards with ⟨rfl, rfl⟩ | before
    · exact ⟨t, found, (replaces_expand defined).mono kept⟩
    · obtain ⟨t', found', replaces⟩ := resolved.replaces x d before
      exact ⟨t', found', replaces.mono kept⟩
  acyclic x afterwards := by
    obtain ⟨d, afterwards⟩ := Option.isSome_iff_exists.1 afterwards
    rcases lookup?_define_cases afterwards with ⟨rfl, _⟩ | before
    · exact resolved.not_cyclic new found defined
    · exact resolved.acyclic x (Option.isSome_iff_exists.2 ⟨d, before⟩)

end Resolved

/-- From one prelude to another, finished definitions are kept and others are finished, all of them
among those given. -/
structure Grows (raw unvisited : Raw) (p p' : Prelude) : Prop where
  resolved : Resolved raw p'
  kept : ∀ x d, p.lookup? x = some d → p'.lookup? x = some d
  among : ∀ x, (p'.lookup? x).isSome = true →
    (p.lookup? x).isSome = true ∨ (unvisited.lookup x).isSome = true

namespace Grows

variable {raw unvisited unvisited' : Raw} {p p' p'' : Prelude}

theorem refl (resolved : Resolved raw p) : Grows raw unvisited p p :=
  ⟨resolved, fun _ _ found => found, fun _ defined => .inl defined⟩

theorem isSome_kept (grows : Grows raw unvisited p p') {x : Name}
    (defined : (p.lookup? x).isSome = true) : (p'.lookup? x).isSome = true := by
  obtain ⟨d, found⟩ := Option.isSome_iff_exists.1 defined
  rw [grows.kept x d found]
  rfl

theorem trans (first : Grows raw unvisited p p') (second : Grows raw unvisited p' p'') :
    Grows raw unvisited p p'' where
  resolved := second.resolved
  kept x d found := second.kept x d (first.kept x d found)
  among x defined := by
    rcases second.among x defined with before | visited
    · exact first.among x before
    · exact .inr visited

theorem of_without {name : Name} (grows : Grows raw (unvisited.without name) p p') :
    Grows raw unvisited p p' where
  resolved := grows.resolved
  kept := grows.kept
  among x defined := by
    refine (grows.among x defined).imp_right fun left => ?_
    by_cases same : x = name
    · rw [same, Raw.without, lookup_filter_self] at left
      cases left
    · rw [Raw.without, lookup_filter_ne _ same] at left
      exact left

/-- A name that is not to be visited is not finished. -/
theorem new_of_without {name : Name} (grows : Grows raw (unvisited.without name) p p')
    (new : p.lookup? name = none) : p'.lookup? name = none := by
  refine Option.not_isSome_iff_eq_none.1 fun defined => ?_
  rcases grows.among name defined with before | left
  · rw [new] at before
    cases before
  · rw [Raw.without, lookup_filter_self] at left
    cases left

theorem define {name : Name} {t : Term Name} (resolved : Resolved raw p)
    (new : p.lookup? name = none) (found : raw.lookup name = some t)
    (visiting : (unvisited.lookup name).isSome = true)
    (defined : ∀ x, t.HasFree x → (p.lookup? x).isSome = true) :
    Grows raw unvisited p (p.define name (p.expand t)) where
  resolved := resolved.define new found defined
  kept _ _ before := lookup?_define_of_new _ new before
  among x afterwards := by
    obtain ⟨d, afterwards⟩ := Option.isSome_iff_exists.1 afterwards
    rcases lookup?_define_cases afterwards with ⟨rfl, _⟩ | before
    · exact .inr visiting
    · exact .inl (Option.isSome_iff_exists.2 ⟨d, before⟩)

end Grows

/-- A computation gives a prelude for which `Good` holds, or an error that the definitions
deserve. -/
def Outcome (raw : Raw) (Good : Prelude → Prop) : Except PreludeError Prelude → Prop
  | .ok p => Good p
  | .error error => Deserves raw error

namespace Outcome

variable {raw : Raw} {Good Good' : Prelude → Prop} {first : Except PreludeError Prelude}

theorem bind {next : Prelude → Except PreludeError Prelude} (outcome : Outcome raw Good first)
    (onwards : ∀ p, Good p → Outcome raw Good' (next p)) : Outcome raw Good' (first >>= next) := by
  cases first with
  | error error => exact outcome
  | ok p => exact onwards p outcome

theorem imp (outcome : Outcome raw Good first) (better : ∀ p, Good p → Good' p) :
    Outcome raw Good' first := by
  cases first with
  | error error => exact outcome
  | ok p => exact better p outcome

end Outcome

/-! ## Resolving names -/

section Resolving

variable {raw unvisited : Raw} {p : Prelude}

/-- Several names, one after the other. -/
theorem outcome_foldlM {resolveOne : Prelude → Name → Except PreludeError Prelude}
    (unvisited : Raw) (names : List Name)
    (step : ∀ p, Resolved raw p → ∀ x ∈ names, Outcome raw
      (fun p' => Grows raw unvisited p p' ∧ (p'.lookup? x).isSome = true) (resolveOne p x)) :
    ∀ p, Resolved raw p → Outcome raw
      (fun p' => Grows raw unvisited p p' ∧ ∀ x ∈ names, (p'.lookup? x).isSome = true)
      (names.foldlM resolveOne p) := by
  induction names with
  | nil => exact fun p resolved => ⟨.refl resolved, fun _ none => absurd none List.not_mem_nil⟩
  | cons name names ih =>
      intro p resolved
      rw [List.foldlM_cons]
      refine (step p resolved name List.mem_cons_self).bind ?_
      rintro p₁ ⟨grows, defined⟩
      have others := ih (fun p resolved x member =>
        step p resolved x (List.mem_cons_of_mem _ member)) p₁ grows.resolved
      refine others.imp ?_
      rintro p₂ ⟨grows', defined'⟩
      exact ⟨grows.trans grows', List.forall_mem_cons.2 ⟨grows'.isSome_kept defined, defined'⟩⟩

/-- The state of the definitions while a name is resolved: those not visited are as they are
written, and all others lead to the name, unless they are finished. -/
structure Underway (raw unvisited : Raw) (name : Name) : Prop where
  written : ∀ x t, unvisited.lookup x = some t → raw.lookup x = some t
  leads : ∀ x, (raw.lookup x).isSome = true → unvisited.lookup x = none →
    TransGen (Refers raw) x name

/-- Following a reference, its source counts as visited. -/
theorem Underway.follow {name x : Name} (underway : Underway raw unvisited name)
    (refers : Refers raw name x) : Underway raw (unvisited.without name) x where
  written y t found := by
    by_cases same : y = name
    · rw [same, Raw.without, lookup_filter_self] at found
      cases found
    · rw [Raw.without, lookup_filter_ne _ same] at found
      exact underway.written y t found
  leads y inRaw visited := by
    by_cases same : y = name
    · rw [same]
      exact .single refers
    · rw [Raw.without, lookup_filter_ne _ same] at visited
      exact (underway.leads y inRaw visited).tail refers

/-- What a definition mentions once its references are finished. -/
theorem free_expand_of_references {t : Term Name} (resolved : Resolved raw p)
    (references : ∀ x, t.HasFree x → (raw.lookup x).isSome = true → (p.lookup? x).isSome = true) :
    (p.expand t).free = undefined raw t := by
  rw [free_expand resolved.closed, undefined]
  refine List.filter_congr fun x member => ?_
  have iff : (p.lookup? x).isSome = true ↔ (raw.lookup x).isSome = true :=
    ⟨resolved.isSome_raw, references x (Term.mem_free.1 member)⟩
  rw [← Option.not_isSome, ← Option.not_isSome, Bool.eq_iff_iff.2 iff]

theorem sorted_eq_nil_iff {names : List Name} : Name.sorted names = [] ↔ names = [] := by
  rw [← List.length_eq_zero_iff, Name.sorted, List.length_mergeSort, List.length_eq_zero_iff]

/-- The last part of resolving a name, when its references are finished. -/
theorem outcome_finish {name : Name} {t : Term Name} (resolved : Resolved raw p)
    (new : p.lookup? name = none) (found : raw.lookup name = some t)
    (visiting : (unvisited.lookup name).isSome = true)
    (references : ∀ x, t.HasFree x → (raw.lookup x).isSome = true → (p.lookup? x).isSome = true) :
    Outcome raw (fun p' => Grows raw unvisited p p' ∧ (p'.lookup? name).isSome = true)
      (match (p.expand t).freeNames with
      | [] => .ok (p.define name (p.expand t))
      | mentioned => .error (.unbound name mentioned)) := by
  rw [Term.freeNames, free_expand_of_references resolved references]
  split
  · next none =>
      rw [sorted_eq_nil_iff] at none
      have defined : ∀ x, t.HasFree x → (p.lookup? x).isSome = true := by
        intro x occurs
        refine references x occurs (Option.isSome_iff_ne_none.2 fun missing => ?_)
        have member := mem_undefined.2 ⟨occurs, missing⟩
        rw [none] at member
        cases member
      refine ⟨.define resolved new found visiting defined, ?_⟩
      rw [lookup?_define_self]
      rfl
  · next mentioned some =>
      exact ⟨t, found, fun none => some (sorted_eq_nil_iff.2 none), rfl⟩

variable {arrange : Name → List Name → List Name}

/-- **What resolving a name comes to.** -/
theorem outcome_resolve (orders : ∀ name names, (arrange name names).Perm names)
    (unvisited : Raw) :
    ∀ {p : Prelude} {name : Name}, Resolved raw p → (raw.lookup name).isSome = true →
      Underway raw unvisited name →
      Outcome raw (fun p' => Grows raw unvisited p p' ∧ (p'.lookup? name).isSome = true)
        (resolve arrange raw unvisited p name) := by
  -- references are resolved with fewer definitions to visit
  induction unvisited using (measure (List.length : Raw → Nat)).wf.induction with
  | h unvisited ih =>
      intro p name resolved inRaw underway
      rw [resolve]
      split
      · next defined => exact ⟨.refl resolved, defined⟩
      · next undefinedYet =>
          split
          · next visited => exact underway.leads name inRaw visited
          · next t found =>
              have written := underway.written name t found
              have new : p.lookup? name = none := Option.not_isSome_iff_eq_none.1 undefinedYet
              refine (outcome_foldlM (Raw.without unvisited name) _
                (fun p resolved x member => ?_) p resolved).bind ?_
              · obtain ⟨mentioned, inRaw'⟩ := List.mem_filter.1 member
                have occurs := Term.mem_free.1 ((orders name t.free).mem_iff.1 mentioned)
                exact ih _ (Raw.length_without_lt found) resolved inRaw'
                  (underway.follow ⟨t, written, occurs, inRaw'⟩)
              · rintro p' ⟨grows, defined⟩
                have references : ∀ x, t.HasFree x → (raw.lookup x).isSome = true →
                    (p'.lookup? x).isSome = true := fun x occurs inRaw' =>
                  defined x (List.mem_filter.2
                    ⟨(orders name t.free).mem_iff.2 (Term.mem_free.2 occurs), inRaw'⟩)
                refine (outcome_finish grows.resolved (grows.new_of_without new) written
                  (by rw [found]; rfl) references).imp ?_
                rintro p'' ⟨grows', defined'⟩
                exact ⟨grows.of_without.trans grows', defined'⟩

/-- **What resolving all names comes to.** -/
theorem outcome_resolveAllBy (orders : ∀ name names, (arrange name names).Perm names) (raw : Raw) :
    Outcome raw (fun p => Resolved raw p ∧
        ∀ name, (raw.lookup name).isSome = true → (p.lookup? name).isSome = true)
      (resolveAllBy arrange raw) := by
  have inRaw : ∀ {name}, name ∈ Name.sorted (raw.map (·.1)) ↔ (raw.lookup name).isSome = true := by
    intro name
    rw [Name.sorted, List.mem_mergeSort]
    exact (isSome_lookup_iff raw name).symm
  have none : ∀ name, Underway raw raw name := fun name =>
    ⟨fun _ _ found => found, fun x inRaw visited => by rw [visited] at inRaw; cases inRaw⟩
  refine (outcome_foldlM raw _ (fun p resolved name member => ?_) _ (.empty raw)).imp ?_
  · exact outcome_resolve orders raw resolved (inRaw.1 member) (none name)
  · rintro p ⟨grows, defined⟩
    exact ⟨grows.resolved, fun name defined' => defined name (inRaw.2 defined')⟩

end Resolving

/-- **Resolution succeeds exactly on closed acyclic definitions.** Whatever the order in which the
references of each definition are followed, all names are resolved if and only if no definition
leads back to itself and every name that a definition mentions is defined. On success, exactly the
names that are written are defined, each by the closed term that its definition turns into when
every free occurrence of a name is replaced by the definition of that name. On failure, a definition
leads back to itself and is said to be cyclic, or one mentions names that are not defined and these
are the names listed. -/
theorem resolveAllBy_exact (raw : Raw) (arrange : Name → List Name → List Name)
    (orders : ∀ name names, (arrange name names).Perm names) :
    ((∃ p, resolveAllBy arrange raw = .ok p) ↔ Acyclic raw ∧ IsClosed raw) ∧
    (∀ p, resolveAllBy arrange raw = .ok p →
      (∀ name, (p.lookup? name).isSome = true ↔ (raw.lookup name).isSome = true) ∧
      ∀ name t d, raw.lookup name = some t → p.lookup? name = some d →
        d.Closed ∧ Replaces p.lookup? [] t d) ∧
    ∀ error, resolveAllBy arrange raw = .error error → Deserves raw error := by
  have outcome := outcome_resolveAllBy orders raw
  have succeeds : ∀ p, resolveAllBy arrange raw = .ok p → Resolved raw p ∧
      ∀ name, (raw.lookup name).isSome = true → (p.lookup? name).isSome = true := by
    intro p result
    rwa [result] at outcome
  have fails : ∀ error, resolveAllBy arrange raw = .error error → Deserves raw error := by
    intro error result
    rwa [result] at outcome
  refine ⟨⟨?_, ?_⟩, ?_, fails⟩
  · rintro ⟨p, result⟩
    obtain ⟨resolved, defined⟩ := succeeds p result
    exact ⟨resolved.acyclic_raw defined, resolved.isClosed_raw defined⟩
  · rintro ⟨acyclic, closed⟩
    cases result : resolveAllBy arrange raw with
    | ok p => exact ⟨p, rfl⟩
    | error error => exact absurd (fails error result) (not_deserves acyclic closed error)
  · intro p result
    obtain ⟨resolved, defined⟩ := succeeds p result
    refine ⟨fun name => ⟨resolved.isSome_raw, defined name⟩, fun name t d found found' => ?_⟩
    obtain ⟨t', written, replaces⟩ := resolved.replaces name d found'
    rw [found] at written
    cases written
    exact ⟨resolved.closed name d found', replaces⟩

/-- `twice = λf.λx.f (f x)`, `four = twice twice` and `both = (λtwice.twice four) twice`: two
definitions share a reference, and a binder hides it in one place. -/
def sharedReference : Raw :=
  [("twice", .abs "f" (.abs "x" (.app (.var "f") (.app (.var "f") (.var "x"))))),
    ("four", .app (.var "twice") (.var "twice")),
    ("both", .app (.abs "twice" (.app (.var "twice") (.var "four"))) (.var "twice"))]

/-- References are followed backwards here. -/
theorem resolveAllBy_exact_sharedReference :
    (∀ names : List Name, names.reverse.Perm names) ∧
      (Acyclic sharedReference ∧ IsClosed sharedReference) ∧
      ∃ p, resolveAllBy (fun _ => List.reverse) sharedReference = .ok p ∧
        ∀ d, p.lookup? "both" = some d → d.Closed ∧ Replaces p.lookup? []
          (.app (.abs "twice" (.app (.var "twice") (.var "four"))) (.var "twice")) d := by
  obtain ⟨succeeds, defines, _⟩ := resolveAllBy_exact sharedReference (fun _ => List.reverse)
    fun _ names => List.reverse_perm names
  have some : (resolveAllBy (fun _ => List.reverse) sharedReference).toOption.isSome = true := by
    cbv
  obtain ⟨p, result⟩ := Option.isSome_iff_exists.1 some
  have result := eq_ok_of_toOption result
  exact ⟨List.reverse_perm, succeeds.1 ⟨p, result⟩, p, result,
    fun d found => (defines p result).2 "both" _ d (by decide) found⟩

end Redex.Prelude
