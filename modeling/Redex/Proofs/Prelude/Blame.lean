import Mathlib.Data.Set.Finite.Basic
import Redex.Proofs.Prelude.Resolution

/-!
# Which error a faulty prelude can give

The free names of a term are a set, and resolution may follow the references of a definition in any
order. Whether it succeeds does not depend on the order, and neither do the definitions it comes to.
Which error it gives does.

Names are resolved in sorted order, so the first name that leads to something faulty is the same in
any order. From there resolution goes down along references until it meets a definition it is in the
middle of, or one that mentions an undefined name while all definitions it refers to are in order.
On the way it passes no definition twice (`Trail`). So every error is found at the end of a trail
(`Blamed`), and each trail is gone by some order: the one in which every definition on the trail
follows it first. Therefore the errors that can be given are exactly those at the ends of trails,
and a prelude gives one error in all orders if and only if these are about one definition and of one
kind.
-/

set_option autoImplicit false

namespace Redex.Prelude

open Relation

variable {raw : Raw} {p : Prelude} {root name x y : Name} {before : List Name}
  {error : PreludeError} {arrange : Name → List Name → List Name}

/-! ## Names that lead to nothing faulty -/

/-- Nothing that the name leads to lies on a cycle or mentions an undefined name. -/
def Sound (raw : Raw) (name : Name) : Prop :=
  ∀ x, ReflTransGen (Refers raw) name x →
    ¬ TransGen (Refers raw) x x ∧ ∀ t, raw.lookup x = some t → undefined raw t = []

theorem Sound.follow (sound : Sound raw name) (refers : Refers raw name x) : Sound raw x :=
  fun y reaches => sound y (.head refers reaches)

/-- A definition that is finished leads to finished ones only. -/
theorem Resolved.sound (resolved : Resolved raw p) (defined : (p.lookup? name).isSome = true) :
    Sound raw name := by
  intro x reaches
  have finished := resolved.isSome_of_reaches defined reaches
  refine ⟨resolved.acyclic x finished, fun t written => ?_⟩
  obtain ⟨d, found⟩ := Option.isSome_iff_exists.1 finished
  obtain ⟨t', written', replaces⟩ := resolved.replaces x d found
  rw [written] at written'
  cases written'
  refine List.eq_nil_iff_forall_not_mem.2 fun y member => ?_
  obtain ⟨occurs, missing⟩ := mem_undefined.1 member
  have inRaw := resolved.isSome_raw (replaces.isSome_of_hasFree occurs List.not_mem_nil)
  rw [missing] at inRaw
  cases inRaw

/-! ## Trails -/

/-- A way along references from `root` to a name, by way of the names `before`, the last of them
first. No name is left twice. -/
inductive Trail (raw : Raw) (root : Name) : List Name → Name → Prop where
  | start : Trail raw root [] root
  | follow {before : List Name} {x y : Name} :
      Trail raw root before x → x ∉ before → Refers raw x y → Trail raw root (x :: before) y

/-- Every name on the way leads to the end. -/
theorem Trail.leads (trail : Trail raw root before x) : ∀ y ∈ before, TransGen (Refers raw) y x := by
  induction trail with
  | start => exact fun _ none => absurd none List.not_mem_nil
  | follow _ _ refers ih =>
      exact List.forall_mem_cons.2 ⟨.single refers, fun y member => (ih y member).tail refers⟩

/-- What can be found at the end of a trail: a name that was passed before, or a definition that
mentions undefined names while everything it refers to is in order. -/
inductive FaultAt (raw : Raw) (before : List Name) (x : Name) : PreludeError → Prop where
  | knot : x ∈ before → FaultAt raw before x (.cyclic x)
  | loose {t : Term Name} :
      raw.lookup x = some t → undefined raw t ≠ [] → (∀ y, Refers raw x y → Sound raw y) →
        FaultAt raw before x (.unbound x (Name.sorted (undefined raw t)))

theorem FaultAt.not_sound (fault : FaultAt raw before x error) (trail : Trail raw root before x)
    (reaches : ReflTransGen (Refers raw) name x) : ¬ Sound raw name := by
  intro sound
  cases fault with
  | knot passed => exact (sound x reaches).1 (trail.leads x passed)
  | loose written some _ => exact some ((sound x reaches).2 _ written)

/-- The error is found at the end of a trail from the first name, in sorted order, that leads to
something faulty. -/
def Blamed (raw : Raw) (error : PreludeError) : Prop :=
  ∃ earlier root later, Name.sorted (raw.map (·.1)) = earlier ++ root :: later ∧
    (∀ name ∈ earlier, Sound raw name) ∧
    ∃ before x, Trail raw root before x ∧ FaultAt raw before x error

/-! ## The parts of resolving a name -/

/-- The definitions other than those of some names. -/
def Raw.withoutAll (raw : Raw) : List Name → Raw
  | [] => raw
  | name :: names => (raw.withoutAll names).without name

theorem Raw.lookup_withoutAll (raw : Raw) (names : List Name) (x : Name) :
    (raw.withoutAll names).lookup x = if x ∈ names then none else raw.lookup x := by
  induction names with
  | nil => rfl
  | cons name names ih =>
      rw [withoutAll, Raw.without]
      by_cases same : x = name
      · rw [same, lookup_filter_self, if_pos List.mem_cons_self]
      · rw [lookup_filter_ne _ same, ih]
        simp [same]

/-- At the end of a trail, the names on it are those that resolution is in the middle of. -/
theorem Trail.underway (trail : Trail raw root before x) :
    Underway raw (raw.withoutAll before) x where
  written y t found := by
    rw [Raw.lookup_withoutAll] at found
    split at found
    · cases found
    · exact found
  leads y inRaw visited := by
    rw [Raw.lookup_withoutAll] at visited
    split at visited
    · next passed => exact trail.leads y passed
    · rw [visited] at inRaw
      cases inRaw

/-- The names that a definition refers to, in the order in which they are followed. -/
def references (arrange : Name → List Name → List Name) (raw : Raw) (name : Name) (t : Term Name) :
    List Name :=
  (arrange name t.free).filter fun x => (raw.lookup x).isSome

theorem mem_references (orders : ∀ name names, (arrange name names).Perm names) {t : Term Name}
    (written : raw.lookup name = some t) :
    x ∈ references arrange raw name t ↔ Refers raw name x := by
  rw [references, List.mem_filter, (orders name t.free).mem_iff, Term.mem_free]
  constructor
  · rintro ⟨occurs, inRaw⟩
    exact ⟨t, written, occurs, inRaw⟩
  · rintro ⟨t', written', occurs, inRaw⟩
    rw [written] at written'
    cases written'
    exact ⟨occurs, inRaw⟩

/-- The end of resolving a name, when its references have been followed. -/
def finish (name : Name) (t : Term Name) (p : Prelude) : Except PreludeError Prelude :=
  match (p.expand t).freeNames with
  | [] => .ok (p.define name (p.expand t))
  | mentioned => .error (.unbound name mentioned)

theorem resolve_of_defined {unvisited : Raw} (defined : (p.lookup? name).isSome = true) :
    resolve arrange raw unvisited p name = .ok p := by
  rw [resolve, if_pos defined]

theorem resolve_of_visited {unvisited : Raw} (new : p.lookup? name = none)
    (visited : unvisited.lookup name = none) :
    resolve arrange raw unvisited p name = .error (.cyclic name) := by
  rw [resolve, new, if_neg (by simp)]
  split
  · rfl
  · next found =>
      rw [visited] at found
      cases found

theorem resolve_of_unvisited {unvisited : Raw} {t : Term Name} (new : p.lookup? name = none)
    (found : unvisited.lookup name = some t) :
    resolve arrange raw unvisited p name =
      ((references arrange raw name t).foldlM (resolve arrange raw (unvisited.without name)) p >>=
        finish name t) := by
  rw [resolve, new, if_neg (by simp)]
  split
  · next visited =>
      rw [visited] at found
      cases found
  · next t' found' =>
      rw [found] at found'
      cases found'
      rfl

/-- A definition whose references are finished is finished too, unless it mentions names that are
not defined. -/
theorem finish_eq_error_iff {t : Term Name} (resolved : Resolved raw p)
    (written : raw.lookup name = some t)
    (finished : ∀ x, Refers raw name x → (p.lookup? x).isSome = true) :
    finish name t p = .error error ↔
      undefined raw t ≠ [] ∧ error = .unbound name (Name.sorted (undefined raw t)) := by
  have free : (p.expand t).free = undefined raw t :=
    free_expand_of_references resolved fun x occurs inRaw => finished x ⟨t, written, occurs, inRaw⟩
  rw [finish, Term.freeNames, free]
  split
  · next none =>
      rw [sorted_eq_nil_iff] at none
      simp [none]
  · next some =>
      have some : undefined raw t ≠ [] := fun none => some (sorted_eq_nil_iff.2 none)
      simp [some, eq_comm]

/-- A definition that may be resolved next, in the middle of those of the names `before`. -/
def Ahead (raw : Raw) (before : List Name) (x : Name) : Prop :=
  (raw.lookup x).isSome = true ∧ ∃ root, Trail raw root before x

theorem Trail.ahead (trail : Trail raw root before name) (notPassed : name ∉ before)
    (refers : Refers raw name x) : Ahead raw (name :: before) x := by
  refine ⟨?_, root, trail.follow notPassed refers⟩
  obtain ⟨_, _, _, inRaw⟩ := refers
  exact inRaw

/-- When several names have been resolved, they are finished. -/
theorem grows_of_foldlM (orders : ∀ name names, (arrange name names).Perm names)
    {names : List Name} (ahead : ∀ x ∈ names, Ahead raw before x) (resolved : Resolved raw p)
    {p' : Prelude}
    (succeeds : names.foldlM (resolve arrange raw (raw.withoutAll before)) p = .ok p') :
    Grows raw (raw.withoutAll before) p p' ∧ ∀ x ∈ names, (p'.lookup? x).isSome = true := by
  have step : ∀ p, Resolved raw p → ∀ x ∈ names, Outcome raw
      (fun p' => Grows raw (raw.withoutAll before) p p' ∧ (p'.lookup? x).isSome = true)
      (resolve arrange raw (raw.withoutAll before) p x) := by
    intro p resolved x member
    obtain ⟨inRaw, root, trail⟩ := ahead x member
    exact outcome_resolve orders _ resolved inRaw trail.underway
  have outcome := outcome_foldlM (raw.withoutAll before) names step p resolved
  rwa [succeeds] at outcome

/-- When resolving several names fails, it does so at one of them, with the finished definitions in
order. -/
theorem exists_of_foldlM_resolve (orders : ∀ name names, (arrange name names).Perm names)
    {names : List Name} (ahead : ∀ x ∈ names, Ahead raw before x) (resolved : Resolved raw p)
    (fails : names.foldlM (resolve arrange raw (raw.withoutAll before)) p = .error error) :
    ∃ earlier x later p', names = earlier ++ x :: later ∧ Resolved raw p' ∧
      (∀ y ∈ earlier, (p'.lookup? y).isSome = true) ∧
      resolve arrange raw (raw.withoutAll before) p' x = .error error := by
  obtain ⟨earlier, x, later, p', rfl, gone, failed⟩ := exists_of_foldlM_eq_error fails
  obtain ⟨grows, finished⟩ := grows_of_foldlM orders
    (fun y member => ahead y (List.mem_append_left _ member)) resolved gone
  exact ⟨earlier, x, later, p', rfl, grows.resolved, finished, failed⟩

/-! ## Every error is at the end of a trail -/

/-- **An error is found at the end of a trail** that goes on from where the name is resolved. -/
theorem exists_fault_of_resolve (orders : ∀ name names, (arrange name names).Perm names)
    (trail : Trail raw root before name) (inRaw : (raw.lookup name).isSome = true)
    (resolved : Resolved raw p)
    (fails : resolve arrange raw (raw.withoutAll before) p name = .error error) :
    ∃ before' x, Trail raw root before' x ∧ ReflTransGen (Refers raw) name x ∧
      FaultAt raw before' x error := by
  -- references are resolved with fewer definitions to visit
  induction size : (raw.withoutAll before).length using Nat.strongRecOn
    generalizing before name p with
  | ind n ih =>
      cases new : p.lookup? name with
      | some d =>
          rw [resolve_of_defined (by rw [new]; rfl)] at fails
          cases fails
      | none =>
          cases found : (raw.withoutAll before).lookup name with
          | none =>
              rw [resolve_of_visited new found] at fails
              cases fails
              rw [Raw.lookup_withoutAll] at found
              split at found
              · next passed => exact ⟨before, name, trail, .refl, .knot passed⟩
              · rw [found] at inRaw
                cases inRaw
          | some t =>
              have written := trail.underway.written name t found
              have notPassed : name ∉ before := by
                intro passed
                rw [Raw.lookup_withoutAll, if_pos passed] at found
                cases found
              have ahead : ∀ x ∈ references arrange raw name t, Ahead raw (name :: before) x :=
                fun x member => trail.ahead notPassed ((mem_references orders written).1 member)
              rw [resolve_of_unvisited new found] at fails
              rcases eq_error_of_bind fails with inside | ⟨p', followed, finishing⟩
              · obtain ⟨earlier, y, later, p', order, resolved', _, failed⟩ :=
                  exists_of_foldlM_resolve orders ahead resolved inside
                have refers : Refers raw name y :=
                  (mem_references orders written).1 (by rw [order]; simp)
                obtain ⟨before', x, trail', reaches, fault⟩ :=
                  ih _ (size ▸ Raw.length_without_lt found) (trail.follow notPassed refers)
                    (trail.ahead notPassed refers).1 resolved' failed rfl
                exact ⟨before', x, trail', .head refers reaches, fault⟩
              · obtain ⟨grows, finished⟩ := grows_of_foldlM orders ahead resolved followed
                have finished : ∀ x, Refers raw name x → (p'.lookup? x).isSome = true :=
                  fun x refers => finished x ((mem_references orders written).2 refers)
                obtain ⟨mentions, rfl⟩ :=
                  (finish_eq_error_iff grows.resolved written finished).1 finishing
                exact ⟨before, name, trail, .refl, .loose written mentions fun y refers =>
                  grows.resolved.sound (finished y refers)⟩

/-- Names that lead to nothing faulty are resolved. -/
theorem exists_foldlM_of_sound (orders : ∀ name names, (arrange name names).Perm names)
    {names : List Name} (ahead : ∀ x ∈ names, Ahead raw before x)
    (sound : ∀ x ∈ names, Sound raw x) (resolved : Resolved raw p) :
    ∃ p', names.foldlM (resolve arrange raw (raw.withoutAll before)) p = .ok p' := by
  cases result : names.foldlM (resolve arrange raw (raw.withoutAll before)) p with
  | ok p' => exact ⟨p', rfl⟩
  | error error =>
      obtain ⟨earlier, x, later, p', rfl, resolved', _, failed⟩ :=
        exists_of_foldlM_resolve orders ahead resolved result
      have member : x ∈ earlier ++ x :: later := by simp
      obtain ⟨inRaw, root, trail⟩ := ahead x member
      obtain ⟨before', y, trail', reaches, fault⟩ :=
        exists_fault_of_resolve orders trail inRaw resolved' failed
      exact absurd (sound x member) (fault.not_sound trail' reaches)

/-! ## Every trail is gone in some order -/

/-- The names with one of them, if it is among them, put first. -/
def putFirst (first : Name) (names : List Name) : List Name :=
  if first ∈ names then first :: names.erase first else names

theorem putFirst_perm (first : Name) (names : List Name) : (putFirst first names).Perm names := by
  rw [putFirst]
  split
  · next member => exact (List.perm_cons_erase member).symm
  · exact .refl _

/-- The order that goes along a way: the references of a name on it start with the name that comes
next. -/
def along (way : List (Name × Name)) (name : Name) (names : List Name) : List Name :=
  match way.lookup name with
  | some next => putFirst next names
  | none => names

theorem along_perm (way : List (Name × Name)) (name : Name) (names : List Name) :
    (along way name names).Perm names := by
  rw [along]
  split
  · exact putFirst_perm _ names
  · exact .refl _

/-- The names on a trail, each with the one that comes next. -/
def steps (before : List Name) (x : Name) : List (Name × Name) := before.zip (x :: before)

theorem Trail.lookup_steps (trail : Trail raw root before x) :
    ∀ y z, (y, z) ∈ steps before x → (steps before x).lookup y = some z := by
  induction trail with
  | start => exact fun _ _ none => absurd none List.not_mem_nil
  | @follow before x next trail notPassed _ ih =>
      intro y z member
      have step : steps (x :: before) next = (x, next) :: steps before x := rfl
      rw [step] at member ⊢
      rcases List.mem_cons.1 member with same | earlier
      · cases same
        exact List.lookup_cons_self
      · have passed : y ∈ before := (List.of_mem_zip earlier).1
        have other : (y == x) = false := beq_eq_false_iff_ne.2 fun same => notPassed (same ▸ passed)
        rw [List.lookup_cons, other]
        exact ih y z earlier

/-- If the end of a trail fails, so does its start, in an order that goes along the trail. -/
theorem resolve_along (trail : Trail raw root before x)
    (goes : ∀ y z, (y, z) ∈ steps before x → ∀ names, arrange y names = putFirst z names)
    (unsound : ¬ Sound raw x)
    (fails : ∀ p, Resolved raw p →
      resolve arrange raw (raw.withoutAll before) p x = .error error) :
    ∀ p, Resolved raw p → resolve arrange raw raw p root = .error error := by
  induction trail with
  | start => exact fails
  | @follow before x y trail notPassed refers ih =>
      refine ih (fun u v member => goes u v (List.mem_cons_of_mem _ member))
        (fun sound => unsound (sound.follow refers)) fun p resolved => ?_
      obtain ⟨t, written, occurs, inRaw⟩ := refers
      have new : p.lookup? x = none := by
        refine Option.not_isSome_iff_eq_none.1 fun defined => unsound ?_
        exact (resolved.sound defined).follow ⟨t, written, occurs, inRaw⟩
      have found : (raw.withoutAll before).lookup x = some t := by
        rw [Raw.lookup_withoutAll, if_neg notPassed, written]
      -- the name that comes next is the first reference
      have first : references arrange raw x t =
          y :: (t.free.erase y).filter fun z => (raw.lookup z).isSome := by
        rw [references, goes x y List.mem_cons_self, putFirst, if_pos (Term.mem_free.2 occurs)]
        exact List.filter_cons_of_pos inRaw
      rw [resolve_of_unvisited new found, first, List.foldlM_cons]
      have failed : resolve arrange raw ((raw.withoutAll before).without x) p y = .error error :=
        fails p resolved
      rw [failed]
      rfl

/-- At a fault, resolution fails in any order. -/
theorem FaultAt.resolve_eq_error (fault : FaultAt raw before x error)
    (trail : Trail raw root before x) (orders : ∀ name names, (arrange name names).Perm names)
    (resolved : Resolved raw p) :
    resolve arrange raw (raw.withoutAll before) p x = .error error := by
  have new : p.lookup? x = none := by
    refine Option.not_isSome_iff_eq_none.1 fun defined => ?_
    exact fault.not_sound trail .refl (resolved.sound defined)
  cases fault with
  | knot passed =>
      refine resolve_of_visited new ?_
      rw [Raw.lookup_withoutAll, if_pos passed]
  | @loose t written mentions sound =>
      have notPassed : x ∉ before := by
        intro passed
        obtain ⟨y, refers, back⟩ := TransGen.head'_iff.1 (trail.leads x passed)
        exact (sound y refers x back).1 (trail.leads x passed)
      have found : (raw.withoutAll before).lookup x = some t := by
        rw [Raw.lookup_withoutAll, if_neg notPassed, written]
      have ahead : ∀ y ∈ references arrange raw x t, Ahead raw (x :: before) y :=
        fun y member => trail.ahead notPassed ((mem_references orders written).1 member)
      obtain ⟨p', followed⟩ := exists_foldlM_of_sound orders ahead
        (fun y member => sound y ((mem_references orders written).1 member)) resolved
      obtain ⟨grows, finished⟩ := grows_of_foldlM orders ahead resolved followed
      rw [Raw.withoutAll] at followed
      rw [resolve_of_unvisited new found, followed]
      exact (finish_eq_error_iff grows.resolved written fun y refers =>
        finished y ((mem_references orders written).2 refers)).2 ⟨mentions, rfl⟩

/-- **The errors that can be given are those at the ends of trails.** -/
theorem exists_order_iff_blamed (raw : Raw) (error : PreludeError) :
    (∃ arrange, (∀ name names, (arrange name names).Perm names) ∧
        resolveAllBy arrange raw = .error error) ↔ Blamed raw error := by
  have ahead : ∀ name ∈ Name.sorted (raw.map (·.1)), Ahead raw [] name := by
    intro name member
    rw [Name.sorted, List.mem_mergeSort] at member
    exact ⟨(isSome_lookup_iff raw name).2 member, name, .start⟩
  constructor
  · rintro ⟨arrange, orders, fails⟩
    obtain ⟨earlier, root, later, p, order, resolved, finished, failed⟩ :=
      exists_of_foldlM_resolve orders ahead (.empty raw) fails
    have inRaw := (ahead root (by rw [order]; simp)).1
    obtain ⟨before, x, trail, _, fault⟩ :=
      exists_fault_of_resolve orders .start inRaw resolved failed
    exact ⟨earlier, root, later, order, fun name member => resolved.sound (finished name member),
      before, x, trail, fault⟩
  · rintro ⟨earlier, root, later, order, sound, before, x, trail, fault⟩
    rw [order] at ahead
    have orders := along_perm (steps before x)
    have ahead' : ∀ name ∈ earlier, Ahead raw [] name :=
      fun name member => ahead name (List.mem_append_left _ member)
    obtain ⟨p, gone⟩ := exists_foldlM_of_sound orders ahead' sound (.empty raw)
    have resolved := (grows_of_foldlM orders ahead' (.empty raw) gone).1.resolved
    have goes : ∀ y z, (y, z) ∈ steps before x → ∀ names,
        along (steps before x) y names = putFirst z names := by
      intro y z member names
      rw [along, trail.lookup_steps y z member]
    have failed := resolve_along trail goes (fault.not_sound trail .refl)
      (fun p resolved => fault.resolve_eq_error trail orders resolved) p resolved
    have rest : (root :: later).foldlM (resolve (along (steps before x)) raw raw) p =
        .error error := by
      rw [List.foldlM_cons, failed]
      rfl
    refine ⟨along (steps before x), orders, ?_⟩
    rw [Raw.withoutAll] at gone
    rw [resolveAllBy, order, List.foldlM_append, gone]
    exact rest

/-! ## What does not depend on the order -/

/-- A term has one replacement. -/
theorem Replaces.eq_of_agree {defs defs' : Name → Option (Term Name)} {around : List Name}
    {t d d' : Term Name} (replaces : Replaces defs around t d) :
    (∀ x ∈ t.freeOccurrences around, defs x = defs' x) → Replaces defs' around t d' → d = d' := by
  induction replaces generalizing d' with
  | bound member =>
      rintro _ (_ | ⟨outside, _⟩)
      · rfl
      · exact absurd member outside
  | @free around x d outside found =>
      intro agree replaces'
      have same := agree x (Term.mem_freeOccurrences_var outside)
      cases replaces' with
      | bound member => exact absurd member outside
      | free _ found' =>
          rw [found, found'] at same
          exact Option.some.inj same
  | app _ _ ihFn ihArg =>
      intro agree replaces'
      obtain ⟨inFn, inArg⟩ := List.forall_mem_append.1 agree
      cases replaces' with
      | app fn' arg' => rw [ihFn inFn fn', ihArg inArg arg']
  | abs _ ih =>
      intro agree replaces'
      cases replaces' with
      | abs body' => rw [ih agree body']
  | pi _ _ ihDom ihCod =>
      intro agree replaces'
      obtain ⟨inDom, inCod⟩ := List.forall_mem_append.1 agree
      cases replaces' with
      | pi dom' cod' => rw [ihDom inDom dom', ihCod inCod cod']
  | sort around u =>
      intro _ replaces'
      cases replaces'
      rfl

/-- Where no definition leads back to itself, what holds of a name if it holds of all that it refers
to holds of every name. -/
theorem Acyclic.induction (acyclic : Acyclic raw) {Holds : Name → Prop}
    (step : ∀ name, (∀ x, Refers raw name x → Holds x) → Holds name) (name : Name) :
    Holds name := by
  -- only finitely many names are defined, and all references are to these
  let Leads (x y : { x // x ∈ raw.map (·.1) }) : Prop := TransGen (Refers raw) y x
  have : Finite { x // x ∈ raw.map (·.1) } := List.finite_toSet _
  have : IsTrans _ Leads := ⟨fun _ _ _ first second => second.trans first⟩
  have : Std.Irrefl Leads := ⟨fun x => acyclic x⟩
  have defined : ∀ x : { x // x ∈ raw.map (·.1) }, Holds x := by
    intro x
    induction x using (Finite.wellFounded_of_trans_of_irrefl Leads).induction with
    | h x ih =>
        refine step x fun y refers => ?_
        obtain ⟨_, _, _, inRaw⟩ := id refers
        exact ih ⟨y, (isSome_lookup_iff raw y).1 inRaw⟩ (.single refers)
  refine step name fun x refers => ?_
  obtain ⟨_, _, _, inRaw⟩ := refers
  exact defined ⟨x, (isSome_lookup_iff raw x).1 inRaw⟩

/-- All names that are written are finished. -/
structure Complete (raw : Raw) (p : Prelude) : Prop where
  resolved : Resolved raw p
  defined : ∀ name, (raw.lookup name).isSome = true → (p.lookup? name).isSome = true

theorem complete_of_resolveAllBy (orders : ∀ name names, (arrange name names).Perm names)
    (succeeds : resolveAllBy arrange raw = .ok p) : Complete raw p := by
  have outcome := outcome_resolveAllBy orders raw
  rw [succeeds] at outcome
  exact ⟨outcome.1, outcome.2⟩

/-- **There is one way to resolve all names.** -/
theorem Complete.lookup?_eq {p' : Prelude} (complete : Complete raw p) (complete' : Complete raw p')
    (name : Name) : p.lookup? name = p'.lookup? name := by
  have acyclic := complete.resolved.acyclic_raw complete.defined
  have closed := complete.resolved.isClosed_raw complete.defined
  induction name using acyclic.induction with
  | step name ih =>
      cases written : raw.lookup name with
      | none =>
          have none : ∀ {p}, Complete raw p → p.lookup? name = none := by
            intro p complete
            refine Option.not_isSome_iff_eq_none.1 fun defined => ?_
            have inRaw := complete.resolved.isSome_raw defined
            rw [written] at inRaw
            cases inRaw
          rw [none complete, none complete']
      | some t =>
          obtain ⟨d, found⟩ := Option.isSome_iff_exists.1
            (complete.defined name (by rw [written]; rfl))
          obtain ⟨d', found'⟩ := Option.isSome_iff_exists.1
            (complete'.defined name (by rw [written]; rfl))
          obtain ⟨_, written₁, replaces⟩ := complete.resolved.replaces name d found
          obtain ⟨_, written₂, replaces'⟩ := complete'.resolved.replaces name d' found'
          rw [written] at written₁ written₂
          cases written₁
          cases written₂
          have agree : ∀ x ∈ t.freeOccurrences [], p.lookup? x = p'.lookup? x := by
            intro x member
            have occurs := ((Term.mem_freeOccurrences []).1 member).1
            exact ih x ⟨t, written, occurs, closed name t written x occurs⟩
          rw [found, found', replaces.eq_of_agree agree replaces']

/-- Success does not depend on the order, and neither does what is resolved. -/
theorem exists_resolveAllBy_of_order {arrange' : Name → List Name → List Name}
    (orders : ∀ name names, (arrange name names).Perm names)
    (orders' : ∀ name names, (arrange' name names).Perm names)
    (succeeds : resolveAllBy arrange raw = .ok p) :
    ∃ p', resolveAllBy arrange' raw = .ok p' ∧ ∀ name, p.lookup? name = p'.lookup? name := by
  have complete := complete_of_resolveAllBy orders succeeds
  have outcome := outcome_resolveAllBy orders' raw
  cases result : resolveAllBy arrange' raw with
  | error error =>
      rw [result] at outcome
      exact absurd outcome (not_deserves (complete.resolved.acyclic_raw complete.defined)
        (complete.resolved.isClosed_raw complete.defined) error)
  | ok p' => exact ⟨p', rfl, complete.lookup?_eq (complete_of_resolveAllBy orders' result)⟩

/-! ## Preludes that give one error -/

/-- Two errors are of one kind and about one definition. -/
def SameFault : PreludeError → PreludeError → Prop
  | .cyclic name, .cyclic name' => name = name'
  | .unbound name _, .unbound name' _ => name = name'
  | _, _ => False

/-- Two resolutions come to the same: both succeed with equal definitions, or both fail with errors
of one kind and about one definition. -/
def SameOutcome : Except PreludeError Prelude → Except PreludeError Prelude → Prop
  | .ok p, .ok p' => ∀ name, p.lookup? name = p'.lookup? name
  | .error error, .error error' => SameFault error error'
  | _, _ => False

/-- **Which error a prelude gives depends on the order of references exactly if two definitions can
be blamed.** Resolution that succeeds in one order of references succeeds in every order, with equal
definitions. The errors that it gives in some order are those found at the ends of the trails from
the first name, in sorted order, that leads to something faulty. So it comes to the same in all
orders if and only if all these errors are of one kind and about one definition. -/
theorem resolveAllBy_sameOutcome_iff (raw : Raw) :
    (∀ arrange arrange' : Name → List Name → List Name,
      (∀ name names, (arrange name names).Perm names) →
      (∀ name names, (arrange' name names).Perm names) →
        ∀ p, resolveAllBy arrange raw = .ok p →
          ∃ p', resolveAllBy arrange' raw = .ok p' ∧ ∀ name, p.lookup? name = p'.lookup? name) ∧
    (∀ error, (∃ arrange : Name → List Name → List Name,
        (∀ name names, (arrange name names).Perm names) ∧
          resolveAllBy arrange raw = .error error) ↔ Blamed raw error) ∧
    ((∀ arrange arrange' : Name → List Name → List Name,
        (∀ name names, (arrange name names).Perm names) →
        (∀ name names, (arrange' name names).Perm names) →
          SameOutcome (resolveAllBy arrange raw) (resolveAllBy arrange' raw)) ↔
      ∀ error error', Blamed raw error → Blamed raw error' → SameFault error error') := by
  refine ⟨fun _ _ orders orders' _ => exists_resolveAllBy_of_order orders orders',
    exists_order_iff_blamed raw, ?_, ?_⟩
  · intro same error error' blamed blamed'
    obtain ⟨arrange, orders, fails⟩ := (exists_order_iff_blamed raw error).2 blamed
    obtain ⟨arrange', orders', fails'⟩ := (exists_order_iff_blamed raw error').2 blamed'
    have outcome := same arrange arrange' orders orders'
    rwa [fails, fails'] at outcome
  · intro same arrange arrange' orders orders'
    cases result : resolveAllBy arrange raw with
    | ok p =>
        obtain ⟨p', result', equal⟩ := exists_resolveAllBy_of_order orders orders' result
        rw [result']
        exact equal
    | error error =>
        cases result' : resolveAllBy arrange' raw with
        | ok p' =>
            obtain ⟨p, succeeds, _⟩ := exists_resolveAllBy_of_order orders' orders result'
            rw [result] at succeeds
            cases succeeds
        | error error' =>
            exact same error error' ((exists_order_iff_blamed raw error).1 ⟨_, orders, result⟩)
              ((exists_order_iff_blamed raw error').1 ⟨_, orders', result'⟩)

/-- `a = b c`, `b = x` and `c = c`: the first definition refers to an open one and to a cyclic
one. -/
def twoFaults : Raw :=
  [("a", .app (.var "b") (.var "c")), ("b", .var "x"), ("c", .var "c")]

/-- As met in the term, the open definition is found first, and backwards it is the cyclic one. -/
theorem resolveAllBy_depends_on_order :
    ¬ ∀ (raw : Raw) (arrange arrange' : Name → List Name → List Name),
      (∀ name names, (arrange name names).Perm names) →
      (∀ name names, (arrange' name names).Perm names) →
        SameOutcome (resolveAllBy arrange raw) (resolveAllBy arrange' raw) := by
  intro same
  have forwards : resolveAllBy (fun _ => id) twoFaults = .error (.unbound "b" ["x"]) := by cbv
  have backwards : resolveAllBy (fun _ => List.reverse) twoFaults = .error (.cyclic "c") := by cbv
  have outcome := same twoFaults (fun _ => id) (fun _ => List.reverse)
    (fun _ names => List.Perm.refl names) fun _ names => List.reverse_perm names
  rw [forwards, backwards] at outcome
  exact outcome

end Redex.Prelude
