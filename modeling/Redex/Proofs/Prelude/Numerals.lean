import Redex.Prelude.Builtin
import Redex.Proofs.Prelude.Resolution
import Redex.Proofs.Reduction.Iteration
import Redex.Proofs.Reduction.Tracing

/-!
# Arithmetic with the built-in prelude

The built-in prelude defines the successor, the sum and the product on numerals. Each of them,
applied to numerals, is expanded, tagged and run to its normal form, and the result is the numeral
of the number it stands for.

The definitions of the prelude form one layer: what a definition mentions is defined by a closed
term. So they are resolved, and the three operations, which mention nothing, are defined by the very
terms that are written (`exists_builtin`). The tags of an expanded application are known, and with
them the contractions of the run, one by one: three for a successor and six for a sum. A product
copies an iteration as often as its first number says and takes a tag for each copy. Tags come round
after `2 ^ 64`, so the first number of a product has a bound, which no numeral that fits into a memory
addressed by 64 bits can reach. Beyond it the run ends too, but a copy has captured the variable that
it should apply, and what comes out is not the numeral.
-/

set_option autoImplicit false

namespace Redex

open Term

/-! ## Definitions of one layer -/

namespace Prelude

/-- Whatever a definition mentions is defined by a term that mentions nothing. -/
def Shallow (raw : Raw) : Prop :=
  ∀ entry ∈ raw, ∀ x ∈ entry.2.free, ∃ d ∈ raw.lookup x, d.free = []

instance (raw : Raw) : Decidable (Shallow raw) :=
  inferInstanceAs (Decidable (∀ entry ∈ raw, ∀ x ∈ entry.2.free, ∃ d ∈ raw.lookup x, d.free = []))

namespace Shallow

variable {raw : Raw}

theorem exists_lookup (shallow : Shallow raw) {name x : Name} {t : Term Name}
    (found : raw.lookup name = some t) (occurs : t.HasFree x) :
    ∃ d, raw.lookup x = some d ∧ ∀ y, ¬ d.HasFree y := by
  obtain ⟨before, behind, rfl, _⟩ := List.lookup_eq_some_iff.1 found
  have member : (name, t) ∈ before ++ (name, t) :: behind :=
    List.mem_append_right _ List.mem_cons_self
  obtain ⟨d, inRaw, none⟩ := shallow _ member x (mem_free.2 occurs)
  refine ⟨d, inRaw, fun y free => ?_⟩
  rw [← mem_free, none] at free
  cases free

theorem isClosed (shallow : Shallow raw) : IsClosed raw := by
  intro name t found x occurs
  obtain ⟨d, inRaw, _⟩ := shallow.exists_lookup found occurs
  rw [inRaw]
  rfl

/-- A reference leads to a definition from which no reference goes on. -/
theorem acyclic (shallow : Shallow raw) : Acyclic raw := by
  intro name cycle
  obtain ⟨x, ⟨t, found, occurs, _⟩, back⟩ := Relation.TransGen.head'_iff.1 cycle
  obtain ⟨d, inRaw, none⟩ := shallow.exists_lookup found occurs
  rcases Relation.ReflTransGen.cases_head back with rfl | ⟨y, ⟨d', inRaw', occurs', _⟩, _⟩
  · rw [found] at inRaw
    cases inRaw
    exact none _ occurs
  · rw [inRaw] at inRaw'
    cases inRaw'
    exact none _ occurs'

/-- Definitions of one layer are resolved, and those that mention nothing stay as they are. -/
theorem exists_resolveAll (shallow : Shallow raw) :
    ∃ p, resolveAll raw = .ok p ∧
      ∀ name t, raw.lookup name = some t → t.Closed → p.lookup? name = some t := by
  have outcome : Outcome raw _ (resolveAll raw) :=
    outcome_resolveAllBy (fun _ names => .refl names) raw
  cases result : resolveAll raw with
  | error error =>
      rw [result] at outcome
      exact absurd outcome (not_deserves shallow.acyclic shallow.isClosed error)
  | ok p =>
      rw [result] at outcome
      obtain ⟨resolved, defined⟩ := outcome
      refine ⟨p, rfl, fun name t found closed => ?_⟩
      obtain ⟨d, inPrelude⟩ := Option.isSome_iff_exists.1 (defined name (by rw [found]; rfl))
      obtain ⟨t', found', replaces⟩ := resolved.replaces name d inPrelude
      rw [found] at found'
      cases found'
      rw [inPrelude, replaces.eq_self fun x occurs => absurd occurs (closed x)]

end Shallow

end Prelude

/-! ## The operations -/

section Operations

variable {ι : Type}

/-- The successor of a numeral. -/
def successorOf (f x : ι) (a : Term ι) : Term ι :=
  .abs f (.abs x (.app (.var f) (.app (.app a (.var f)) (.var x))))

/-- The sum of two numerals. -/
def sumOf (f x : ι) (a b : Term ι) : Term ι :=
  .abs f (.abs x (.app (.app a (.var f)) (.app (.app b (.var f)) (.var x))))

/-- The product of two numerals. -/
def productOf (f : ι) (a b : Term ι) : Term ι := .abs f (.app a (.app b (.var f)))

def successor (n f x : ι) : Term ι := .abs n (successorOf f x (.var n))

def addition (m n f x : ι) : Term ι := .abs m (.abs n (sumOf f x (.var m) (.var n)))

def multiplication (m n f : ι) : Term ι := .abs m (.abs n (productOf f (.var m) (.var n)))

theorem closed_successor (n f x : Name) : (successor n f x).Closed := by
  intro y
  simp only [successor, successorOf, hasFree_abs, hasFree_app, hasFree_var, Identifier.key]
  tauto

theorem closed_addition (m n f x : Name) : (addition m n f x).Closed := by
  intro y
  simp only [addition, sumOf, hasFree_abs, hasFree_app, hasFree_var, Identifier.key]
  tauto

theorem closed_multiplication (m n f : Name) : (multiplication m n f).Closed := by
  intro y
  simp only [multiplication, productOf, hasFree_abs, hasFree_app, hasFree_var, Identifier.key]
  tauto

theorem closed_numeral (f x : Name) (n : Nat) : (numeral f x n).Closed := by
  have inside : ∀ n y, ((var f).applyTimes n (var x)).HasFree y → y = f ∨ y = x := by
    intro n y
    induction n with
    | zero => exact fun free => .inr (hasFree_var.1 free)
    | succ n ih =>
        rw [applyTimes_succ, hasFree_app, hasFree_var]
        exact fun free => free.elim .inl ih
  intro y free
  obtain ⟨free, notF⟩ := hasFree_abs.1 free
  obtain ⟨free, notX⟩ := hasFree_abs.1 free
  exact (inside n y free).elim notF notX

end Operations

namespace Prelude

theorem readAll_builtinTexts :
    (readAll builtinTexts).toOption.any (fun raw => Shallow raw ∧
      raw.lookup "succ" = some (successor "n" "f" "x") ∧
      raw.lookup "plus" = some (addition "m" "n" "f" "x") ∧
      raw.lookup "mult" = some (multiplication "m" "n" "f")) = true := by
  decide +kernel

/-- The built-in prelude and the operations it defines. -/
theorem exists_builtin :
    ∃ p, builtin = .ok p ∧ p.lookup? "succ" = some (successor "n" "f" "x") ∧
      p.lookup? "plus" = some (addition "m" "n" "f" "x") ∧
      p.lookup? "mult" = some (multiplication "m" "n" "f") := by
  cases read : readAll builtinTexts with
  | error error =>
      have holds := readAll_builtinTexts
      rw [read] at holds
      cases holds
  | ok raw =>
      have holds := readAll_builtinTexts
      rw [read] at holds
      obtain ⟨shallow, succ, plus, mult⟩ := of_decide_eq_true holds
      obtain ⟨p, resolved, kept⟩ := shallow.exists_resolveAll
      refine ⟨p, ?_, kept _ _ succ (closed_successor _ _ _), kept _ _ plus (closed_addition _ _ _ _),
        kept _ _ mult (closed_multiplication _ _ _)⟩
      rw [builtin, ofTexts, read]
      exact resolved

end Prelude

/-! ## Runs -/

section Runs

variable {gen : Generator} {f x f₁ x₁ f₂ x₂ : Tagged}

theorem contractions_successorOf (apart : f₁.tag ≠ x₁.tag) (other : f.tag ≠ x₁.tag) (n : Nat) :
    Contractions .hybridApplicative 2 gen (successorOf f x (numeral f₁ x₁ n)) gen
      (numeral f x (n + 1)) := by
  have applied : Contractions .hybridApplicative 2 gen
      (app (app (numeral f₁ x₁ n) (var f)) (var x)) gen ((var f).applyTimes n (var x)) :=
    contractions_numeral apart other n
  have inArg : Contractions .hybridApplicative 2 gen
      (app (var f) (app (app (numeral f₁ x₁ n) (var f)) (var x))) gen
      ((var f).applyTimes (n + 1) (var x)) :=
    applied.appArg fun _ => ⟨NormalForm.holds_var, rfl⟩
  exact (inArg.abs fun _ => rfl).abs fun _ => rfl

/-- The first numeral is applied to its variable, then the second one to both of its variables, and
the first iteration goes on where the second ends. -/
theorem contractions_sumOf (apart₁ : f₁.tag ≠ x₁.tag) (apart₂ : f₂.tag ≠ x₂.tag)
    (other₁ : f.tag ≠ x₁.tag) (other₂ : f.tag ≠ x₂.tag) (m n : Nat) :
    Contractions .hybridApplicative 4 gen (sumOf f x (numeral f₁ x₁ m) (numeral f₂ x₂ n)) gen
      (numeral f x (m + n)) := by
  have inFn : Contractions .callByValue 1 gen (app (numeral f₁ x₁ m) (var f)) gen
      (iteration f x₁ m) := .single (contracts_numeral apart₁ m)
  have inArg : Contractions .hybridApplicative 2 gen
      (app (app (numeral f₂ x₂ n) (var f)) (var x)) gen ((var f).applyTimes n (var x)) :=
    contractions_numeral apart₂ other₂ n
  have joined : Contracts .hybridApplicative gen
      (app (iteration f x₁ m) ((var f).applyTimes n (var x))) gen
      ((var f).applyTimes (m + n) (var x)) := by
    rw [applyTimes_add]
    exact contracts_iteration_of_ne other₁ (.applyTimes (.var f) (.var x) n) m
  have whole := (Contractions.appFn (s := .hybridApplicative) inFn).trans
    ((inArg.appArg fun _ => ⟨holds_iteration m, rfl⟩).trans (.single joined))
  exact (whole.abs fun _ => rfl).abs fun _ => rfl

/-- The second numeral is applied to the variable, and the first one makes a tower of the iteration,
which collapses. -/
theorem contractions_productOf {c : Int} (apart₁ : f₁.tag ≠ x₁.tag) (apart₂ : f₂.tag ≠ x₂.tag)
    (other₂ : f.tag ≠ x₂.tag) (m n : Nat) :
    Contractions .hybridApplicative (m + 2) ⟨c⟩
      (productOf f (numeral f₁ x₁ m) (numeral f₂ x₂ n)) ⟨c + m⟩
      (.abs f (.abs x₁ (collapse f n m c (var x₁)))) := by
  have inArg : Contractions .hybridApplicative 1 ⟨c⟩ (app (numeral f₂ x₂ n) (var f)) ⟨c⟩
      (iteration f x₂ n) := .single (contracts_numeral apart₂ n)
  have copied : Contracts .hybridApplicative ⟨c⟩ (app (numeral f₁ x₁ m) (iteration f x₂ n)) ⟨c + m⟩
      (.abs x₁ (tower f x₂.name n m c (var x₁))) := by
    apply Contracts.of_instantiate_eq
    · change instantiate f₁.tag (iteration f x₂ n) (.abs x₁ ((var f₁).applyTimes m (var x₁))) ⟨c⟩ = _
      rw [instantiate_abs_of_ne _ _ _ apart₁.symm, instantiate_tower other₂ n m c apart₁.symm]
    · exact holds_numeral m
    · exact fun _ => holds_iteration n
  have collapsed : Contractions .hybridApplicative m ⟨c + m⟩ (tower f x₂.name n m c (var x₁)) ⟨c + m⟩
      (collapse f n m c (var x₁)) := contractions_tower (.var x₁) n m c
  have whole := (inArg.appArg fun _ => ⟨holds_numeral m, rfl⟩).trans
    (.next copied (collapsed.abs fun _ => rfl))
  have count : m + 2 = 1 + (m + 1) := by omega
  rw [count]
  exact whole.abs fun _ => rfl

/-- The operations get copies of their numerals first. -/
theorem contractions_successor (n : Nat) :
    Contractions .hybridApplicative 3 ⟨5⟩
      (app (successor ⟨"n", 1⟩ ⟨"f", 2⟩ ⟨"x", 3⟩) (numeral ⟨"f", 4⟩ ⟨"x", 5⟩ n)) ⟨7⟩
      (numeral ⟨"f", 2⟩ ⟨"x", 3⟩ (n + 1)) := by
  have copied : Contracts .hybridApplicative ⟨5⟩
      (app (successor ⟨"n", 1⟩ ⟨"f", 2⟩ ⟨"x", 3⟩) (numeral ⟨"f", 4⟩ ⟨"x", 5⟩ n)) ⟨7⟩
      (successorOf ⟨"f", 2⟩ ⟨"x", 3⟩ (numeral ⟨"f", 6⟩ ⟨"x", 7⟩ n)) := by
    apply Contracts.of_instantiate_eq
    · simp [successorOf, instantiate, retag_numeral]
    · exact holds_weak_abs
    · exact fun _ => holds_numeral n
  exact .next copied (contractions_successorOf (by decide) (by decide) n)

theorem contractions_addition (m n : Nat) :
    Contractions .hybridApplicative 6 ⟨8⟩
      (app (app (addition ⟨"m", 1⟩ ⟨"n", 2⟩ ⟨"f", 3⟩ ⟨"x", 4⟩) (numeral ⟨"f", 5⟩ ⟨"x", 6⟩ m))
        (numeral ⟨"f", 7⟩ ⟨"x", 8⟩ n)) ⟨12⟩
      (numeral ⟨"f", 3⟩ ⟨"x", 4⟩ (m + n)) := by
  have first : Contracts .callByValue ⟨8⟩
      (app (addition ⟨"m", 1⟩ ⟨"n", 2⟩ ⟨"f", 3⟩ ⟨"x", 4⟩) (numeral ⟨"f", 5⟩ ⟨"x", 6⟩ m)) ⟨10⟩
      (.abs ⟨"n", 2⟩
        (sumOf ⟨"f", 3⟩ ⟨"x", 4⟩ (numeral ⟨"f", 9⟩ ⟨"x", 10⟩ m) (var ⟨"n", 2⟩))) := by
    apply Contracts.of_instantiate_eq
    · simp [sumOf, instantiate, retag_numeral]
    · exact holds_weak_abs
    · exact fun _ => holds_numeral m
  have second : Contracts .hybridApplicative ⟨10⟩
      (app (.abs ⟨"n", 2⟩
        (sumOf ⟨"f", 3⟩ ⟨"x", 4⟩ (numeral ⟨"f", 9⟩ ⟨"x", 10⟩ m) (var ⟨"n", 2⟩)))
        (numeral ⟨"f", 7⟩ ⟨"x", 8⟩ n)) ⟨12⟩
      (sumOf ⟨"f", 3⟩ ⟨"x", 4⟩ (numeral ⟨"f", 9⟩ ⟨"x", 10⟩ m)
        (numeral ⟨"f", 11⟩ ⟨"x", 12⟩ n)) := by
    apply Contracts.of_instantiate_eq
    · simp [sumOf, instantiate, instantiate_numeral, retag_numeral]
    · exact holds_weak_abs
    · exact fun _ => holds_numeral n
  exact .next (.appFn first) (.next second
    (contractions_sumOf (by decide) (by decide) (by decide) (by decide) m n))

theorem contractions_multiplication (m n : Nat) :
    Contractions .hybridApplicative (m + 4) ⟨7⟩
      (app (app (multiplication ⟨"m", 1⟩ ⟨"n", 2⟩ ⟨"f", 3⟩) (numeral ⟨"f", 4⟩ ⟨"x", 5⟩ m))
        (numeral ⟨"f", 6⟩ ⟨"x", 7⟩ n)) ⟨11 + m⟩
      (.abs ⟨"f", 3⟩ (.abs ⟨"x", 9⟩ (collapse ⟨"f", 3⟩ n m 11 (var ⟨"x", 9⟩)))) := by
  have first : Contracts .callByValue ⟨7⟩
      (app (multiplication ⟨"m", 1⟩ ⟨"n", 2⟩ ⟨"f", 3⟩) (numeral ⟨"f", 4⟩ ⟨"x", 5⟩ m)) ⟨9⟩
      (.abs ⟨"n", 2⟩ (productOf ⟨"f", 3⟩ (numeral ⟨"f", 8⟩ ⟨"x", 9⟩ m) (var ⟨"n", 2⟩))) := by
    apply Contracts.of_instantiate_eq
    · simp [productOf, instantiate, retag_numeral]
    · exact holds_weak_abs
    · exact fun _ => holds_numeral m
  have second : Contracts .hybridApplicative ⟨9⟩
      (app (.abs ⟨"n", 2⟩ (productOf ⟨"f", 3⟩ (numeral ⟨"f", 8⟩ ⟨"x", 9⟩ m) (var ⟨"n", 2⟩)))
        (numeral ⟨"f", 6⟩ ⟨"x", 7⟩ n)) ⟨11⟩
      (productOf ⟨"f", 3⟩ (numeral ⟨"f", 8⟩ ⟨"x", 9⟩ m) (numeral ⟨"f", 10⟩ ⟨"x", 11⟩ n)) := by
    apply Contracts.of_instantiate_eq
    · simp [productOf, instantiate, instantiate_numeral, retag_numeral]
    · exact holds_weak_abs
    · exact fun _ => holds_numeral n
  exact .next (.appFn first) (.next second
    (contractions_productOf (by decide) (by decide) (by decide) m n))

/-- The tags of the copies come round to that of the variable after `2 ^ 64` of them. -/
theorem spared_iff (m : Nat) : Spared ⟨"f", 3⟩ m 11 ↔ m + 8 < Int64.size := by
  constructor
  · intro spared
    by_contra many
    have same : (3 : Tag) = .ofInt (11 + 1 + ((Int64.size - 9 : Nat) : Int)) := by decide
    have inside : Int64.size - 9 < m := by
      simp only [Int64.size] at many ⊢
      omega
    exact spared (Int64.size - 9) inside same
  · intro few i less same
    have numbers : (3 : Int) = 11 + 1 + i := Tag.eq_of_ofInt_eq (by omega) (by omega) same
    omega

end Runs

/-! ## Expanded and tagged applications -/

theorem expand_numeral (p : Prelude) (f x : Name) (n : Nat) :
    p.expand (numeral f x n) = numeral f x n :=
  p.expand_eq_self fun y occurs => absurd occurs (closed_numeral f x n y)

theorem expand_app (p : Prelude) (fn arg : Term Name) :
    p.expand (app fn arg) = app (p.expand fn) (p.expand arg) := rfl

theorem expand_var {p : Prelude} {name : Name} {d : Term Name} (found : p.lookup? name = some d) :
    p.expand (var name) = d := by
  simp [Prelude.expand, Prelude.expandIn, found]

/-- The run of a tagged term starts after the last tag that was given. -/
theorem above_tag {t : Term Name} {z : Tagged} (member : z ∈ t.tag.identifiers)
    (suffice : (t.tagWith .start).2.count ≤ Tag.greatest)
    (last : z.tag.toInt = (t.tagWith .start).2.count) :
    Generator.above [t.tag] = (t.tagWith .start).2 := by
  have leads := leads_tagWith (by decide) suffice
  have upTo : ∀ y ∈ t.tag.identifiers, y.tag.toInt ≤ (t.tagWith .start).2.count := by
    intro y inTerm
    rw [tagWith_gen] at leads ⊢
    exact (leads.mem_minted (mem_minted_of_mem_identifiers inTerm)).2
  have atMost := (TagsUpTo.ofIdentifiers upTo).above_le (List.ne_nil_of_mem member)
  have atLeast := (tagsUpTo_above t.tag).identifiers z member
  rw [last] at atLeast
  exact congrArg Generator.mk (Int.le_antisymm atMost atLeast)

theorem tagIn_app_numeral {op : Term Name} {op' : Term Tagged} {c : Int}
    (tagged : op.tagIn [] ⟨.start, []⟩ = (op', ⟨⟨c⟩, []⟩)) (n : Nat) :
    (app op (numeral "f" "x" n)).tagIn [] ⟨.start, []⟩ =
      (app op' (numeral ⟨"f", .ofInt (c + 1)⟩ ⟨"x", .ofInt (c + 2)⟩ n), ⟨⟨c + 2⟩, []⟩) := by
  simp only [tagIn, tagged, tagIn_numeral (by decide : ("f" : Name) ≠ "x")]

/-- The last tags are those of the numeral that stands last. -/
theorem tag_app_numeral {op : Term Name} {op' : Term Tagged} {c : Int}
    (tagged : op.tagIn [] ⟨.start, []⟩ = (op', ⟨⟨c⟩, []⟩)) (least : Tag.least ≤ c + 2)
    (greatest : c + 2 ≤ Tag.greatest) (n : Nat) :
    (app op (numeral "f" "x" n)).tag =
        app op' (numeral ⟨"f", .ofInt (c + 1)⟩ ⟨"x", .ofInt (c + 2)⟩ n) ∧
      Generator.above [(app op (numeral "f" "x" n)).tag] = ⟨c + 2⟩ := by
  have whole := tagIn_app_numeral tagged n
  have tag : (app op (numeral "f" "x" n)).tag =
      app op' (numeral ⟨"f", .ofInt (c + 1)⟩ ⟨"x", .ofInt (c + 2)⟩ n) := congrArg Prod.fst whole
  have after : ((app op (numeral "f" "x" n)).tagWith .start).2 = ⟨c + 2⟩ :=
    congrArg (fun result => result.2.gen) whole
  refine ⟨tag, ?_⟩
  rw [← after]
  have member : (⟨"x", .ofInt (c + 2)⟩ : Tagged) ∈ (app op (numeral "f" "x" n)).tag.identifiers := by
    rw [tag]
    simp [identifiers, numeral, iteration]
  apply above_tag member
  · rw [after]
    exact greatest
  · rw [after]
    simp only [Tag.least, Tag.greatest, Int64.toInt_minValue, Int64.toInt_maxValue] at least greatest
    exact Int64.toInt_ofInt_of_le (by omega) (by omega)

/-! ## Results -/

/-- The expanded term has the result for its normal form, up to the names of bound variables: all
runs with a large enough limit end in it, and with contractions to spare. -/
def Computes (p : Prelude) (t result : Term Name) : Prop :=
  ∃ enough, ∀ limit, enough ≤ limit →
    AlphaEquivalent Tagged.name id (run NormalForm.full.strategy limit (p.expand t).tag).term result ∧
      (run NormalForm.full.strategy limit (p.expand t).tag).steps < enough

/-- A sequence of contractions to a normal form says what is computed. -/
theorem computes_iff {p : Prelude} {t result : Term Name} {v : Term Tagged} {n : Nat}
    {gen : Generator}
    (contractions : Contractions .hybridApplicative n (.above [(p.expand t).tag]) (p.expand t).tag
      gen v) (holds : NormalForm.full.Holds v) :
    Computes p t result ↔ AlphaEquivalent Tagged.name id v result := by
  have runs : ∀ limit, n ≤ limit → run NormalForm.full.strategy limit (p.expand t).tag = ⟨v, n⟩ :=
    fun limit enough => run_of_contractions_le contractions enough fun _ => holds
  constructor
  · rintro ⟨enough, computes⟩
    have atEnd := (computes (max enough n) (Nat.le_max_left _ _)).1
    rwa [runs _ (Nat.le_max_right _ _)] at atEnd
  · intro alike
    refine ⟨n + 1, fun limit enough => ?_⟩
    rw [runs limit (Nat.le_of_succ_le enough)]
    exact ⟨alike, Nat.lt_succ_self n⟩

section Arithmetic

variable {p : Prelude}

theorem computes_successor (found : p.lookup? "succ" = some (successor "n" "f" "x")) (n : Nat) :
    Computes p (app (var "succ") (numeral "f" "x" n)) (numeral "f" "x" (n + 1)) := by
  have expanded : p.expand (app (var "succ") (numeral "f" "x" n)) =
      app (successor "n" "f" "x") (numeral "f" "x" n) := by
    rw [expand_app, expand_var found, expand_numeral]
  have operation : (successor "n" "f" "x").tagIn [] ⟨.start, []⟩ =
      (successor ⟨"n", 1⟩ ⟨"f", 2⟩ ⟨"x", 3⟩, ⟨⟨3⟩, []⟩) := rfl
  obtain ⟨tag, start⟩ := tag_app_numeral operation (by decide) (by decide) n
  have made : Contractions .hybridApplicative 3
      (.above [(p.expand (app (var "succ") (numeral "f" "x" n))).tag])
      (p.expand (app (var "succ") (numeral "f" "x" n))).tag ⟨7⟩
      (numeral ⟨"f", 2⟩ ⟨"x", 3⟩ (n + 1)) := by
    rw [expanded, start, tag]
    exact contractions_successor n
  exact (computes_iff made (holds_numeral _)).2 (alphaEquivalent_numeral (by decide) (by decide) _)

theorem computes_addition (found : p.lookup? "plus" = some (addition "m" "n" "f" "x")) (m n : Nat) :
    Computes p (app (app (var "plus") (numeral "f" "x" m)) (numeral "f" "x" n))
      (numeral "f" "x" (m + n)) := by
  have expanded : p.expand (app (app (var "plus") (numeral "f" "x" m)) (numeral "f" "x" n)) =
      app (app (addition "m" "n" "f" "x") (numeral "f" "x" m)) (numeral "f" "x" n) := by
    rw [expand_app, expand_app, expand_var found, expand_numeral, expand_numeral]
  have operation : (addition "m" "n" "f" "x").tagIn [] ⟨.start, []⟩ =
      (addition ⟨"m", 1⟩ ⟨"n", 2⟩ ⟨"f", 3⟩ ⟨"x", 4⟩, ⟨⟨4⟩, []⟩) := rfl
  obtain ⟨tag, start⟩ := tag_app_numeral (tagIn_app_numeral operation m) (by decide) (by decide) n
  have made : Contractions .hybridApplicative 6
      (.above [(p.expand (app (app (var "plus") (numeral "f" "x" m)) (numeral "f" "x" n))).tag])
      (p.expand (app (app (var "plus") (numeral "f" "x" m)) (numeral "f" "x" n))).tag ⟨12⟩
      (numeral ⟨"f", 3⟩ ⟨"x", 4⟩ (m + n)) := by
    rw [expanded, start, tag]
    exact contractions_addition m n
  exact (computes_iff made (holds_numeral _)).2 (alphaEquivalent_numeral (by decide) (by decide) _)

theorem computes_multiplication_iff (found : p.lookup? "mult" = some (multiplication "m" "n" "f"))
    (m n : Nat) :
    Computes p (app (app (var "mult") (numeral "f" "x" m)) (numeral "f" "x" n))
      (numeral "f" "x" (m * n)) ↔ n = 0 ∨ m + 8 < Int64.size := by
  have expanded : p.expand (app (app (var "mult") (numeral "f" "x" m)) (numeral "f" "x" n)) =
      app (app (multiplication "m" "n" "f") (numeral "f" "x" m)) (numeral "f" "x" n) := by
    rw [expand_app, expand_app, expand_var found, expand_numeral, expand_numeral]
  have operation : (multiplication "m" "n" "f").tagIn [] ⟨.start, []⟩ =
      (multiplication ⟨"m", 1⟩ ⟨"n", 2⟩ ⟨"f", 3⟩, ⟨⟨3⟩, []⟩) := rfl
  obtain ⟨tag, start⟩ := tag_app_numeral (tagIn_app_numeral operation m) (by decide) (by decide) n
  have made : Contractions .hybridApplicative (m + 4)
      (.above [(p.expand (app (app (var "mult") (numeral "f" "x" m)) (numeral "f" "x" n))).tag])
      (p.expand (app (app (var "mult") (numeral "f" "x" m)) (numeral "f" "x" n))).tag ⟨11 + m⟩
      (.abs ⟨"f", 3⟩ (.abs ⟨"x", 9⟩ (collapse ⟨"f", 3⟩ n m 11 (var ⟨"x", 9⟩)))) := by
    rw [expanded, start, tag]
    exact contractions_multiplication m n
  have holds : NormalForm.full.Holds
      (.abs ⟨"f", 3⟩ (.abs ⟨"x", 9⟩ (collapse ⟨"f", 3⟩ n m 11 (var ⟨"x", 9⟩)))) :=
    NormalForm.holds_abs.2 fun _ => NormalForm.holds_abs.2 fun _ =>
      (Combination.collapse (.var ⟨"x", 9⟩) n m 11).holds
  rw [computes_iff made holds, alphaEquivalent_collapse_iff (by decide) (by decide), spared_iff]

end Arithmetic

/-- **The built-in numerals compute.** The successor and the sum of all numbers come out of their
runs, and so does a product, unless the tags come round while its first numeral is being unfolded and
there is a variable to capture. -/
theorem builtin_computes :
    ∃ p, Prelude.builtin = .ok p ∧
      (∀ n, Computes p (app (var "succ") (numeral "f" "x" n)) (numeral "f" "x" (n + 1))) ∧
      (∀ m n, Computes p (app (app (var "plus") (numeral "f" "x" m)) (numeral "f" "x" n))
        (numeral "f" "x" (m + n))) ∧
      ∀ m n, Computes p (app (app (var "mult") (numeral "f" "x" m)) (numeral "f" "x" n))
        (numeral "f" "x" (m * n)) ↔ n = 0 ∨ m + 8 < Int64.size := by
  obtain ⟨p, isBuiltin, succ, plus, mult⟩ := Prelude.exists_builtin
  exact ⟨p, isBuiltin, computes_successor succ, computes_addition plus,
    computes_multiplication_iff mult⟩

end Redex
