import Redex.Proofs.Reduction.Coherence
import Redex.Proofs.Spelling
import Redex.Proofs.Syntax.Legibility
import Redex.Proofs.Tagging
import Redex.Proofs.Term.WrittenForm

/-!
# Results that are read back

A text is read, tagged, reduced, untagged and printed, and the question is whether the printed text
can be read again. Reduction moves names around and invents none, so the names of the result are
those of the text that was read and names that untagging picked for binders. All of them are
identifiers, unless a number at the end of a name was counted up past the largest word.

So the printed text is read back as the very term that was printed if no name holds a minus sign,
and otherwise it is not read at all. There is no such name if the names in the text have room to be
counted up as often as names can be taken.
-/

set_option autoImplicit false

namespace Redex

open Term

/-! ## Names of an untagged term -/

namespace Renaming

theorem isIdentifier_of_mem_alphabet {letter : Name} (member : letter ∈ alphabet) :
    letter.isIdentifier = true := by
  have all : ∀ letter ∈ alphabet, Name.isIdentifier letter = true := by decide +kernel
  exact all letter member

variable {renamed inner : Renaming} {takenNames : List Name} {name new : Name}

theorem length_taken (renamed : Renaming) (scope : Term Tagged) :
    (renamed.taken scope).length = renamed.length + 2 * scope.identifiers.length := by
  rw [taken, List.length_append, List.length_map, List.length_flatMap]
  simp [List.map_const', Nat.mul_comm]

/-- A new name is a letter, or the name counted up. -/
theorem pick_cases (picked : renamed.pick takenNames name = .ok new) :
    new ∈ alphabet ∨ new = name.fresh.freshOutside takenNames := by
  unfold pick at picked
  split at picked
  · cases picked
    exact .inr rfl
  · split at picked
    · next letter found =>
        cases picked
        exact .inl (List.mem_of_mem_drop (List.mem_of_find?_eq_some found))
    · cases picked

theorem spelled_of_pick (picked : renamed.pick takenNames name = .ok new) (spelled : name.Spelled) :
    new.Spelled := by
  rcases pick_cases picked with letter | rfl
  · exact Name.spelled_of_isIdentifier (isIdentifier_of_mem_alphabet letter)
  · exact spelled.fresh.freshOutside takenNames

theorem isIdentifier_of_pick (picked : renamed.pick takenNames name = .ok new)
    (identifier : name.isIdentifier = true) (room : name.HasRoom (takenNames.length + 1)) :
    new.isIdentifier = true := by
  rcases pick_cases picked with letter | rfl
  · exact isIdentifier_of_mem_alphabet letter
  · exact room.fresh.1.isIdentifier_freshOutside (room.fresh.2 identifier)

end Renaming

namespace Term

/-- Names are picked so that `Q` holds of them if `P` holds of the binder's name, as long as fewer
than `bound` names are taken. -/
def Picks (P Q : Name → Prop) (bound : Nat) : Prop :=
  ∀ {renamed : Renaming} {takenNames : List Name} {name new : Name}, P name →
    takenNames.length < bound → renamed.pick takenNames name = .ok new → Q new

section Names

variable {P Q : Name → Prop} {bound : Nat} (keeps : ∀ name, P name → Q name)

include keeps

theorem display_of_forall {renamed : Renaming} (given : ∀ entry ∈ renamed, Q entry.2) {x : Tagged}
    (holds : P x.name) : Q (renamed.display x) := by
  rw [Renaming.display]
  cases found : renamed.lookup x.tag with
  | none => exact keeps _ holds
  | some name =>
      obtain ⟨before, behind, rfl, _⟩ := List.lookup_eq_some_iff.1 found
      exact given (x.tag, name) (List.mem_append_right _ List.mem_cons_self)

theorem enter_of_forall (picks : Picks P Q bound) {renamed inner : Renaming} {x : Tagged}
    {scope : Term Tagged} {name : Name} (holds : P x.name) (given : ∀ entry ∈ renamed, Q entry.2)
    (few : renamed.length + 2 * scope.identifiers.length < bound)
    (enters : renamed.enter x scope = .ok (name, inner)) :
    Q name ∧ (∀ entry ∈ inner, Q entry.2) ∧ inner.length ≤ renamed.length + 1 := by
  unfold Renaming.enter at enters
  split at enters
  · obtain ⟨new, picked, chosen⟩ := exists_ok_of_bind enters
    cases chosen
    rw [← Renaming.length_taken] at few
    have new : Q name := picks holds few picked
    refine ⟨new, List.forall_mem_cons.2 ⟨new, fun entry member => ?_⟩, ?_⟩
    · exact given entry (List.mem_filter.1 member).1
    · exact Nat.succ_le_succ (List.length_filter_le _ _)
  · cases enters
    exact ⟨keeps _ holds, given, Nat.le_succ _⟩

/-- **The names of an untagged term are those of the term and names picked.** -/
theorem forall_of_untagIn (picks : Picks P Q bound) (t : Term Tagged) :
    ∀ {renamed : Renaming} {b : Term Name}, (∀ x ∈ t.identifiers, P x.name) →
      (∀ entry ∈ renamed, Q entry.2) → renamed.length + 2 * t.identifiers.length ≤ bound →
      t.untagIn renamed = .ok b → ∀ y ∈ b.identifiers, Q y := by
  induction t with
  | var x =>
      intro renamed b holds given _ untagged y member
      cases untagged
      rw [List.mem_singleton.1 member]
      exact display_of_forall keeps given (holds x (List.mem_singleton.2 rfl))
  | app fn arg ihFn ihArg =>
      intro renamed b holds given few untagged
      obtain ⟨fn', inFn, rest⟩ := exists_ok_of_bind untagged
      obtain ⟨arg', inArg, whole⟩ := exists_ok_of_bind rest
      cases whole
      simp only [identifiers, List.length_append, List.forall_mem_append] at holds few ⊢
      exact ⟨ihFn holds.1 given (by omega) inFn, ihArg holds.2 given (by omega) inArg⟩
  | abs x body ih =>
      intro renamed b holds given few untagged
      obtain ⟨⟨name, inner⟩, enters, rest⟩ := exists_ok_of_bind untagged
      obtain ⟨body', inBody, whole⟩ := exists_ok_of_bind rest
      cases whole
      simp only [identifiers, List.length_cons, List.forall_mem_cons] at holds few ⊢
      obtain ⟨new, given', longer⟩ :=
        enter_of_forall keeps picks holds.1 given (by omega) enters
      exact ⟨new, ih holds.2 given' (by omega) inBody⟩
  | pi x dom cod ihDom ihCod =>
      intro renamed b holds given few untagged
      obtain ⟨dom', inDom, rest⟩ := exists_ok_of_bind untagged
      obtain ⟨⟨name, inner⟩, enters, rest⟩ := exists_ok_of_bind rest
      obtain ⟨cod', inCod, whole⟩ := exists_ok_of_bind rest
      cases whole
      simp only [identifiers, List.length_cons, List.length_append, List.forall_mem_cons,
        List.forall_mem_append] at holds few ⊢
      obtain ⟨new, given', longer⟩ :=
        enter_of_forall keeps picks holds.1 given (by omega) enters
      exact ⟨new, ihDom holds.2.1 given (by omega) inDom, ihCod holds.2.2 given' (by omega) inCod⟩
  | sort u =>
      intro renamed b _ _ _ untagged
      cases untagged
      exact fun y none => absurd none List.not_mem_nil

end Names

end Term

/-! ## Names along a run -/

namespace Term

/-- The names in a tagged term, binders included. -/
def spellings (t : Term Tagged) : List Name := t.identifiers.map Tagged.name

theorem spellings_eq (t : Term Tagged) : t.spellings = (t.map Tagged.name).identifiers :=
  (identifiers_map Tagged.name t).symm

theorem spellings_app (fn arg : Term Tagged) :
    (app fn arg).spellings = fn.spellings ++ arg.spellings :=
  List.map_append

theorem spellings_abs (x : Tagged) (body : Term Tagged) :
    (abs x body).spellings = x.name :: body.spellings :=
  rfl

theorem spellings_pi (x : Tagged) (dom cod : Term Tagged) :
    (pi x dom cod).spellings = x.name :: (dom.spellings ++ cod.spellings) :=
  congrArg _ List.map_append

/-- A copy has the names of the term. -/
theorem spellings_retag (t : Term Tagged) (gen : Generator) :
    (t.retag [] gen).1.spellings = t.spellings := by
  rw [spellings_eq, map_name_retag, spellings_eq]

/-- Instantiation brings in the names of the value only. -/
theorem spellings_instantiate (x : Tag) (value : Term Tagged) (body : Term Tagged) :
    ∀ gen : Generator,
      (instantiate x value body gen).1.spellings ⊆ body.spellings ++ value.spellings := by
  induction body with
  | var y =>
      intro gen
      by_cases same : y.tag = x
      · rw [instantiate_var_self x value gen same, spellings_retag]
        exact List.subset_append_right _ _
      · rw [instantiate_var_of_ne x value gen same]
        exact List.subset_append_left _ _
  | app fn arg ihFn ihArg =>
      intro gen
      have inFn := ihFn gen
      have inArg := ihArg (instantiate x value fn gen).2
      rw [instantiate_app, spellings_app, spellings_app]
      grind
  | abs y body ih =>
      intro gen
      by_cases same : y.tag = x
      · rw [instantiate_abs_self x value gen same]
        exact List.subset_append_left _ _
      · have inBody := ih gen
        rw [instantiate_abs_of_ne x value gen same, spellings_abs, spellings_abs]
        grind
  | pi y dom cod ihDom ihCod =>
      intro gen
      have inDom := ihDom gen
      by_cases same : y.tag = x
      · rw [instantiate_pi_self x value gen same, spellings_pi, spellings_pi]
        grind
      · have inCod := ihCod (instantiate x value dom gen).2
        rw [instantiate_pi_of_ne x value gen same, spellings_pi, spellings_pi]
        grind
  | sort u => exact fun gen => List.nil_subset _

end Term

/-- Every rule of evaluation keeps to the names of the term. -/
theorem Evaluates.spellings_subset {active : Bool} {s : Strategy} {m m' : Machine}
    {t t' : Term Tagged} (evaluates : Evaluates active s m t m' t') :
    t'.spellings ⊆ t.spellings := by
  induction evaluates with
  | skip s m t => exact List.Subset.refl _
  | var s m x => exact List.Subset.refl _
  | sort s m u => exact List.Subset.refl _
  | abs _ ih =>
      rw [spellings_abs, spellings_abs]
      exact List.cons_subset_cons _ ih
  | pi _ _ ihDom ihCod =>
      rw [spellings_pi, spellings_pi]
      grind
  | @contract s m m₁ m₂ m₃ x fn arg arg' body t left _ _ _ _ ihFn ihArg ih =>
      have contractum := spellings_instantiate x.tag arg' body m₂.gen
      rw [spellings_abs] at ihFn
      rw [spellings_app]
      grind
  | apply _ _ _ _ _ ihFn ihArg ihFn' ihArg' =>
      rw [spellings_app, spellings_app]
      grind

theorem spellings_tag (t : Term Name) : t.tag.spellings = t.identifiers := by
  rw [spellings_eq, tag, (taggedAs_tagWith t .start).names]

section Run

variable {source : Text} {t b : Term Name} {s : Strategy} {limit : Nat}

/-- The names of the result of a run are names of the text. -/
theorem name_mem_of_run {x : Tagged} (member : x ∈ (run s limit t.tag).term.identifiers) :
    x.name ∈ t.identifiers := by
  rw [← spellings_tag t]
  exact (evaluate_evaluates s ⟨.above [t.tag], limit⟩ t.tag).spellings_subset
    (List.mem_map_of_mem member)

/-- The names of a printed result are spelled as identifiers, apart from minus signs. -/
theorem spelled_of_untag_run (parsed : Term.parse source = .ok t)
    (untagged : (run s limit t.tag).term.untag = .ok b) : ∀ x ∈ b.identifiers, Name.Spelled x := by
  refine forall_of_untagIn (P := Name.Spelled) (fun _ spelled => spelled)
    (fun spelled _ picked => Renaming.spelled_of_pick picked spelled) _ (fun x member => ?_)
    (fun _ none => absurd none List.not_mem_nil) (Nat.le_refl _) untagged
  exact Name.spelled_of_isIdentifier (isIdentifier_of_parse parsed x.name (name_mem_of_run member))

/-- They are identifiers if the names of the text can be counted up as often as names are taken. -/
theorem isIdentifier_of_untag_run (parsed : Term.parse source = .ok t)
    (untagged : (run s limit t.tag).term.untag = .ok b)
    (room : ∀ x ∈ t.identifiers,
      Name.HasRoom (2 * (run s limit t.tag).term.identifiers.length) x) :
    ∀ x ∈ b.identifiers, Name.isIdentifier x = true := by
  refine forall_of_untagIn
    (P := fun name => Name.isIdentifier name = true ∧
      Name.HasRoom (2 * (run s limit t.tag).term.identifiers.length) name)
    (fun _ holds => holds.1)
    (fun holds few picked => Renaming.isIdentifier_of_pick picked holds.1 (holds.2.mono few)) _
    (fun x member => ?_) (fun _ none => absurd none List.not_mem_nil)
    (Nat.le_of_eq (Nat.zero_add _)) untagged
  have inText := name_mem_of_run member
  exact ⟨isIdentifier_of_parse parsed _ inText, room _ inText⟩

theorem alphaEquivalent_untag_run_tag (word : (t.tagWith .start).2.count ≤ Tag.greatest)
    (suffice : TagsSuffice s limit t.tag) (untagged : (run s limit t.tag).term.untag = .ok b) :
    AlphaEquivalent Tagged.name id (run s limit t.tag).term b := by
  have identifies := (taggedAs_tagWith t .start).identifies (leads_tagWith (by decide) word)
  exact alphaEquivalent_untag_run identifies.wellTagged suffice identifies.coherent untagged

/-- What is free in a printed result was free in the term. -/
theorem hasFree_of_untag_run (word : (t.tagWith .start).2.count ≤ Tag.greatest)
    (suffice : TagsSuffice s limit t.tag) (untagged : (run s limit t.tag).term.untag = .ok b)
    {x : Name} (free : b.HasFree x) : t.HasFree x := by
  have identifies := (taggedAs_tagWith t .start).identifies (leads_tagWith (by decide) word)
  have image := alphaEquivalent_iff_nameless_eq.1
    (alphaEquivalent_untag_run_tag word suffice untagged)
  have label : x ∈ (b.nameless id).labels := mem_labels_nameless.2 ⟨x, free, rfl⟩
  rw [← image] at label
  obtain ⟨y, occurs, rfl⟩ := mem_labels_nameless.1 label
  exact (identifies.of_hasFree (hasFree_of_run identifies.wellTagged suffice occurs)).1

end Run

/-- **A printed result is read back, unless a name was counted up past the largest word.** Let a
text be read and its term be tagged and run, and let the result be untagged. Each name is then an
identifier or holds a minus sign, and all are identifiers if the numbers at the end of the names in
the text are not among the last words. The printed result can be read if and only if all its names
are identifiers, provided that it is in normal form. What is read is the term that was printed, and
as long as no tag wraps it is α-equivalent to the result of the run, free variables being compared
by name. -/
theorem parse_print_run (source : Text) (t b : Term Name) (s : Strategy) (limit : Nat)
    (parsed : Term.parse source = .ok t) (untagged : (run s limit t.tag).term.untag = .ok b) :
    (∀ x ∈ b.identifiers, Name.isIdentifier x = true ↔ '-' ∉ x.toList) ∧
    ((∀ x ∈ t.identifiers, Name.HasRoom (2 * (run s limit t.tag).term.identifiers.length) x) →
      ∀ x ∈ b.identifiers, Name.isIdentifier x = true) ∧
    ((Text.ofString b.print).normalize = Text.ofString b.print →
      ((∃ t', Term.parse (Text.ofString b.print) = .ok t') ↔
        ∀ x ∈ b.identifiers, Name.isIdentifier x = true) ∧
      ∀ t', Term.parse (Text.ofString b.print) = .ok t' → t' = b ∧
        ((t.tagWith .start).2.count ≤ Tag.greatest → TagsSuffice s limit t.tag →
          AlphaEquivalent Tagged.name id (run s limit t.tag).term t')) := by
  have spelled := spelled_of_untag_run parsed untagged
  refine ⟨fun x member => (spelled x member).isIdentifier_iff,
    isIdentifier_of_untag_run parsed untagged, fun normal => ?_⟩
  have readable : ∀ t', Term.parse (Text.ofString b.print) = .ok t' →
      ∀ x ∈ b.identifiers, Name.isIdentifier x = true := by
    intro t' reads x member
    rw [(spelled x member).isIdentifier_iff]
    exact fun sign => parse_ne_ok_of_mem member sign (by decide +kernel) normal t' reads
  refine ⟨⟨fun ⟨t', reads⟩ => readable t' reads, fun identifiers => ?_⟩, fun t' reads => ?_⟩
  · exact ⟨b, parse_printed identifiers normal⟩
  · have same : t' = b := by
      rw [parse_printed (readable t' reads) normal] at reads
      exact (Except.ok.inj reads).symm
    refine ⟨same, fun word suffice => ?_⟩
    rw [same]
    exact alphaEquivalent_untag_run_tag word suffice untagged

/-- `(λy.λx1.y x1) x1`, where a binder has to be counted up. -/
def countedBinder : Text := .ofString "(λy.λx1.y x1) x1"

/-- The term that is read. -/
def countedBinderTerm : Term Name :=
  .app (.abs "y" (.abs "x1" (.app (.var "y") (.var "x1")))) (.var "x1")

/-- The result, as it is printed. -/
def countedBinderResult : Term Name := .abs "x2" (.app (.var "x1") (.var "x2"))

theorem parse_print_run_countedBinder :
    (Term.parse countedBinder = .ok countedBinderTerm ∧
        (run .normalOrder 100 countedBinderTerm.tag).term.untag = .ok countedBinderResult) ∧
      Term.parse (Text.ofString countedBinderResult.print) = .ok countedBinderResult ∧
      AlphaEquivalent Tagged.name id (run .normalOrder 100 countedBinderTerm.tag).term
        countedBinderResult := by
  have parsed : Term.parse countedBinder = .ok countedBinderTerm :=
    eq_ok_of_toOption (by decide +kernel)
  have result : (run .normalOrder 100 countedBinderTerm.tag).term =
      .abs ⟨"x1", 2⟩ (.app (.var ⟨"x1", 3⟩) (.var ⟨"x1", 2⟩)) := by cbv
  have untagged : (run .normalOrder 100 countedBinderTerm.tag).term.untag =
      .ok countedBinderResult := by
    rw [result]
    exact eq_ok_of_toOption (by decide +kernel)
  have suffice : TagsSuffice .normalOrder 100 countedBinderTerm.tag := by decide_cbv
  have printed : countedBinderResult.print = "λx2.x1 x2" := by decide
  have normal : (Text.ofString countedBinderResult.print).normalize =
      Text.ofString countedBinderResult.print := by
    have chars : Text.normalForm countedBinderResult.print.toList =
        countedBinderResult.print.toList := by
      rw [printed]
      decide +kernel
    rw [normalize_ofString, chars, Text.ofString]
  obtain ⟨_, identifiers, readsBack⟩ :=
    parse_print_run countedBinder _ _ .normalOrder 100 parsed untagged
  rw [result] at identifiers
  obtain ⟨reads, unique⟩ := readsBack normal
  obtain ⟨t', read⟩ := reads.2 (identifiers (by decide))
  obtain ⟨rfl, alike⟩ := unique t' read
  exact ⟨⟨parsed, untagged⟩, read, alike (by decide) suffice⟩

/-- `(λy.λx9223372036854775807.y) x9223372036854775807`, where the number of the binder is the
largest word. -/
def largestNumber : Text := .ofString "(λy.λx9223372036854775807.y) x9223372036854775807"

/-- The term that is read. -/
def largestNumberTerm : Term Name :=
  .app (.abs "y" (.abs "x9223372036854775807" (.var "y"))) (.var "x9223372036854775807")

/-- **A name counted up past the largest word cannot be read.** -/
theorem largestNumber_not_readBack :
    Term.parse largestNumber = .ok largestNumberTerm ∧
      ∃ b, (run .normalOrder 100 largestNumberTerm.tag).term.untag = .ok b ∧
        b.print = "λx-9223372036854775808.x9223372036854775807" ∧
        ¬ Name.isIdentifier "x-9223372036854775808" = true ∧
        ∀ t', Term.parse (Text.ofString b.print) ≠ .ok t' := by
  have result : (run .normalOrder 100 largestNumberTerm.tag).term =
      .abs ⟨"x9223372036854775807", 2⟩ (.var ⟨"x9223372036854775807", 3⟩) := by cbv
  have printed : (.abs "x-9223372036854775808" (.var "x9223372036854775807") : Term Name).print =
      "λx-9223372036854775808.x9223372036854775807" := by decide
  refine ⟨eq_ok_of_toOption (by decide +kernel),
    .abs "x-9223372036854775808" (.var "x9223372036854775807"), ?_, printed, by decide +kernel,
    fun t' reads => ?_⟩
  · rw [result]
    exact eq_ok_of_toOption (by decide +kernel)
  · have refused : (Term.parse (Text.ofString "λx-9223372036854775808.x9223372036854775807")
      ).toOption = none := by decide +kernel
    rw [printed] at reads
    rw [reads] at refused
    cases refused

end Redex
