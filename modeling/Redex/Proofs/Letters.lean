import Mathlib.Data.List.Dedup
import Mathlib.Data.List.Perm.Subperm
import Mathlib.Logic.Function.Iterate
import Redex.Proofs.Untagging

/-!
# Letters for renamed binders

Untagging fails only for want of a letter, and a binder needs a letter only if its name has at most
one character. Letters are not given out economically: the search starts behind the last letter
given to a binder around the scope, so letters before it that were skipped are lost. But a letter is
skipped only because it is taken, and then it is the name of an identifier of the term or was given
to a binder on the way. So along a path the letters that are spent are these two kinds (`Spent`), and
untagging succeeds as long as both together are at most as many as there are letters.

A name of several characters is counted up. The count comes to a name that is not taken whatever the
taken names are, and a name that ends in a digit is no letter, so it spends none.
-/

set_option autoImplicit false

namespace Redex

/-! ## Names counted up -/

namespace Name

/-- The name found is the first that is not taken among those counted up. -/
theorem exists_freshOutside_eq (taken : List Name) (name : Name) :
    ∃ n, freshOutside taken name = fresh^[n] name ∧ ∀ i < n, fresh^[i] name ∈ taken := by
  fun_induction freshOutside taken name with
  | case1 taken name member ih =>
      obtain ⟨n, found, before⟩ := ih
      refine ⟨n + 1, found, fun i early => ?_⟩
      cases i with
      | zero => exact member
      | succ i => exact (List.mem_filter.1 (before i (Nat.lt_of_succ_lt_succ early))).1
  | case2 taken name notMember => exact ⟨0, rfl, fun i early => absurd early (Nat.not_lt_zero i)⟩

/-- A name counted up ends in a digit. -/
theorem splitDigits_fresh_ne_nil (name : Name) : name.fresh.splitDigits.2 ≠ [] := by
  obtain ⟨stem, digits, rfl, stemEnds, areDigits⟩ := name.exists_parts
  rcases fresh_cases stemEnds areDigits with ⟨_, put⟩ | ⟨_, counted⟩ | ⟨_, signed⟩
  · rw [put, splitDigits_ofList stemEnds (isDigit_of_mem_append_one areDigits)]
    exact List.append_ne_nil_of_right_ne_nil _ (List.cons_ne_nil _ _)
  · rw [counted, splitDigits_ofList stemEnds isDigit_of_mem_toDigits]
    exact Nat.toDigits_ne_nil
  · have signEnds : (stem ++ ['-']).reverse.takeWhile Char.isDigit = [] := by
      rw [List.reverse_append]
      exact List.takeWhile_cons_of_neg (by decide)
    rw [signed, splitDigits_ofList signEnds isDigit_of_mem_toDigits]
    show Nat.toDigits 10 Numeral.signedBound ≠ []
    exact Nat.toDigits_ne_nil

/-- Whether a name is a single ASCII letter. -/
def isLetter (name : Name) : Bool :=
  match name.toList with
  | [c] => c.isAlpha
  | _ => false

end Name

/-! ## Letters -/

namespace Renaming

theorem length_alphabet : alphabet.length = 52 := by decide +kernel

theorem nodup_alphabet : alphabet.Nodup := by decide +kernel

theorem isLetter_of_mem_alphabet {name : Name} (member : name ∈ alphabet) :
    name.isLetter = true := by
  have all : ∀ letter ∈ alphabet, Name.isLetter letter = true := by decide +kernel
  exact all name member

theorem toNat_lt_of_isAlpha {c : Char} (letter : c.isAlpha = true) : c.toNat < 128 := by
  have value : c.toNat = c.val.toNat := rfl
  rcases Bool.or_eq_true_iff.1 letter with upper | lower
  · have last : c.val ≤ 'Z'.val := (of_decide_eq_true upper).2
    have code : 'Z'.val.toNat = 90 := rfl
    have atMost := UInt32.le_iff_toNat_le.1 last
    omega
  · have last : c.val ≤ 'z'.val := of_decide_eq_true (Bool.and_eq_true_iff.1 lower).2
    have code : 'z'.val.toNat = 122 := rfl
    have atMost := UInt32.le_iff_toNat_le.1 last
    omega

theorem mem_alphabet_of_isLetter {name : Name} (letter : name.isLetter = true) :
    name ∈ alphabet := by
  have all : ∀ n < 128, (Char.ofNat n).isAlpha = true →
      String.singleton (Char.ofNat n) ∈ alphabet := by decide +kernel
  rw [Name.isLetter] at letter
  split at letter
  · next c single =>
      have spelled : name = String.singleton c := by
        rw [← String.toList_inj, single, String.toList_singleton]
      have listed := all c.toNat (toNat_lt_of_isAlpha letter)
      rw [Char.ofNat_toNat] at listed
      rw [spelled]
      exact listed letter
  · cases letter

theorem fresh_not_mem_alphabet (name : Name) : name.fresh ∉ alphabet := by
  have all : ∀ letter ∈ alphabet, (Name.splitDigits letter).2 = [] := by decide +kernel
  exact fun member => name.splitDigits_fresh_ne_nil (all _ member)

theorem freshOutside_fresh_not_mem_alphabet (takenNames : List Name) (name : Name) :
    name.fresh.freshOutside takenNames ∉ alphabet := by
  obtain ⟨n, found, _⟩ := Name.exists_freshOutside_eq takenNames name.fresh
  rw [found, ← Function.iterate_succ_apply, Function.iterate_succ_apply']
  exact fresh_not_mem_alphabet _

variable {renamed inner : Renaming} {takenNames letters given : List Name} {x : Tagged}
  {scope : Term Tagged} {name new : Name}

/-- The letters used end with the last one given. -/
theorem lt_lettersUsed_iff (renamed : Renaming) (i : Nat) :
    i < renamed.lettersUsed ↔ ∃ entry ∈ renamed, ∃ j, alphabet.idxOf? entry.2 = some j ∧ i ≤ j := by
  have folded : ∀ (indices : List Nat) (used : Nat),
      i < indices.foldl (fun used j => max used (j + 1)) used ↔
        i < used ∨ ∃ j ∈ indices, i ≤ j := by
    intro indices
    induction indices with
    | nil => intro used; simp
    | cons j rest ih =>
        intro used
        have step : i < max used (j + 1) ↔ i < used ∨ i ≤ j := by omega
        rw [List.foldl_cons, ih, step, List.exists_mem_cons_iff, or_assoc]
  rw [lettersUsed, folded]
  simp only [Nat.not_lt_zero, false_or, List.mem_filterMap]
  constructor
  · rintro ⟨j, ⟨entry, member, found⟩, atMost⟩
    exact ⟨entry, member, j, found, atMost⟩
  · rintro ⟨entry, member, j, found, atMost⟩
    exact ⟨j, ⟨entry, member, found⟩, atMost⟩

/-- Giving a name uses letters up to that name, or none beyond those used before. -/
theorem lt_lettersUsed_give {tag : Tag} {i : Nat} (used : i < (renamed.give tag new).lettersUsed) :
    i < renamed.lettersUsed ∨ ∃ j, alphabet.idxOf? new = some j ∧ i ≤ j := by
  obtain ⟨entry, member, j, found, atMost⟩ := (lt_lettersUsed_iff _ i).1 used
  rcases List.mem_cons.1 member with rfl | old
  · exact .inr ⟨j, found, atMost⟩
  · exact .inl ((lt_lettersUsed_iff _ i).2 ⟨entry, (List.mem_filter.1 old).1, j, found, atMost⟩)

/-- The letters lost to the binders inside: every letter before the place where the search starts is
one of `letters` or of `given`, and so is every letter that was given. -/
structure Spent (renamed : Renaming) (letters given : List Name) : Prop where
  passed : ∀ i < renamed.lettersUsed, ∀ letter, alphabet[i]? = some letter →
    letter ∈ letters ∨ letter ∈ given
  held : ∀ entry ∈ renamed, entry.2 ∈ alphabet → entry.2 ∈ given

namespace Spent

theorem nil (letters : List Name) : Spent [] letters [] where
  passed := fun i used => absurd used (Nat.not_lt_zero i)
  held := fun _ member => absurd member List.not_mem_nil

/-- A letter that is taken is spent. -/
theorem of_mem_taken (spent : Spent renamed letters given)
    (covers : ∀ y ∈ scope.identifiers, y.name ∈ alphabet → y.name ∈ letters) {letter : Name}
    (isLetter : letter ∈ alphabet) (taken : letter ∈ renamed.taken scope) :
    letter ∈ letters ∨ letter ∈ given := by
  rw [Renaming.taken, List.mem_append, List.mem_flatMap] at taken
  rcases taken with around | ⟨y, inScope, shown⟩
  · obtain ⟨entry, member, rfl⟩ := List.mem_map.1 around
    exact .inr (spent.held entry member isLetter)
  · rcases List.mem_pair.1 shown with rfl | rfl
    · exact .inl (covers y inScope isLetter)
    · rw [display] at isLetter ⊢
      cases found : renamed.lookup y.tag with
      | none =>
          rw [found] at isLetter
          exact .inl (covers y inScope isLetter)
      | some name =>
          rw [found] at isLetter
          obtain ⟨before, behind, rfl, _⟩ := List.lookup_eq_some_iff.1 found
          have member : (y.tag, name) ∈ before ++ (y.tag, name) :: behind :=
            List.mem_append_right _ List.mem_cons_self
          exact .inr (spent.held _ member isLetter)

/-- As long as fewer letters are spent than there are, the search finds one. -/
theorem exists_letter (spent : Spent renamed letters given)
    (covers : ∀ y ∈ scope.identifiers, y.name ∈ alphabet → y.name ∈ letters)
    (room : letters.length + given.length < 52) :
    ∃ letter, (alphabet.drop renamed.lettersUsed).find? (· ∉ renamed.taken scope) = some letter := by
  obtain ⟨letter, isLetter, unspent⟩ : ∃ letter ∈ alphabet, letter ∉ letters ++ given := by
    by_contra none
    push Not at none
    have many := (nodup_alphabet.subperm none).length_le
    rw [length_alphabet, List.length_append] at many
    omega
  rw [List.mem_append] at unspent
  have behind : letter ∈ alphabet.drop renamed.lettersUsed := by
    obtain ⟨i, here⟩ := List.mem_iff_getElem?.1 isLetter
    have late : renamed.lettersUsed ≤ i :=
      Nat.le_of_not_lt fun early => unspent (spent.passed i early letter here)
    refine List.mem_iff_getElem?.2 ⟨i - renamed.lettersUsed, ?_⟩
    rw [List.getElem?_drop, Nat.add_sub_cancel' late, here]
  have free : letter ∉ renamed.taken scope := fun taken =>
    unspent (spent.of_mem_taken covers isLetter taken)
  exact Option.isSome_iff_exists.1 (List.find?_isSome.2 ⟨letter, behind, decide_eq_true free⟩)

/-- A letter that is found spends itself only. -/
theorem give_letter (spent : Spent renamed letters given)
    (covers : ∀ y ∈ scope.identifiers, y.name ∈ alphabet → y.name ∈ letters) {tag : Tag}
    (found : (alphabet.drop renamed.lettersUsed).find? (· ∉ renamed.taken scope) = some new) :
    Spent (renamed.give tag new) letters (new :: given) := by
  obtain ⟨_, skipped, rest, split, areTaken⟩ := List.find?_eq_some_iff_append.1 found
  have behind : ∀ i, alphabet[renamed.lettersUsed + i]? = (skipped ++ new :: rest)[i]? := by
    intro i
    rw [← List.getElem?_drop, split]
  have last : alphabet[renamed.lettersUsed + skipped.length]? = some new := by
    rw [behind, List.getElem?_append_right (Nat.le_refl _), Nat.sub_self, List.getElem?_cons_zero]
  constructor
  · intro i used letter here
    rcases Nat.lt_or_ge i renamed.lettersUsed with early | late
    · exact (spent.passed i early letter here).imp_right (List.mem_cons_of_mem _)
    -- from the place where the search starts up to the letter found, all were taken
    obtain ⟨k, rfl⟩ := Nat.exists_eq_add_of_le late
    rw [behind] at here
    rcases Nat.lt_or_ge k skipped.length with before | atLeast
    · rw [List.getElem?_append_left before] at here
      have member := List.mem_of_getElem? here
      have taken : letter ∈ renamed.taken scope := by simpa using areTaken letter member
      have isLetter : letter ∈ alphabet := by
        refine List.mem_of_mem_drop (i := renamed.lettersUsed) ?_
        rw [split]
        exact List.mem_append_left _ member
      exact (spent.of_mem_taken covers isLetter taken).imp_right (List.mem_cons_of_mem _)
    · have atMost : k ≤ skipped.length := by
        rcases lt_lettersUsed_give used with early | ⟨j, first, atMost⟩
        · omega
        · obtain ⟨_, _, notBefore⟩ := List.idxOf?_eq_some_iff.1 first
          obtain ⟨_, isNew⟩ := List.getElem?_eq_some_iff.1 last
          have := Nat.le_of_not_lt fun before => notBefore _ before isNew
          omega
      obtain rfl := Nat.le_antisymm atMost atLeast
      rw [← behind, last] at here
      cases here
      exact .inr List.mem_cons_self
  · intro entry member isLetter
    rcases List.mem_cons.1 member with rfl | old
    · exact List.mem_cons_self
    · exact List.mem_cons_of_mem _ (spent.held entry (List.mem_filter.1 old).1 isLetter)

/-- A name that is no letter spends nothing. -/
theorem give_other (spent : Spent renamed letters given) {tag : Tag} (other : new ∉ alphabet) :
    Spent (renamed.give tag new) letters given := by
  constructor
  · intro i used letter here
    rcases lt_lettersUsed_give used with early | ⟨j, first, _⟩
    · exact spent.passed i early letter here
    · rw [List.idxOf?_eq_none_iff.2 other] at first
      cases first
  · intro entry member isLetter
    rcases List.mem_cons.1 member with rfl | old
    · exact absurd isLetter other
    · exact spent.held entry (List.mem_filter.1 old).1 isLetter

end Spent

/-- A binder of several characters is counted up. -/
theorem pick_of_long (renamed : Renaming) (takenNames : List Name) (long : 1 < name.length) :
    renamed.pick takenNames name = .ok (name.fresh.freshOutside takenNames) := if_pos long

theorem pick_of_short (short : name.length ≤ 1)
    (found : (alphabet.drop renamed.lettersUsed).find? (· ∉ takenNames) = some new) :
    renamed.pick takenNames name = .ok new := by
  rw [pick, if_neg (Nat.not_lt.2 short), found]

end Renaming

namespace Term

/-- Whether a binder of this name needs a letter when it is renamed: `1` or `0`. -/
def lettersFor (x : Tagged) : Nat := if x.name.length ≤ 1 then 1 else 0

/-- The most binders with names of at most one character on a path from the root to a leaf. -/
def shortBinders : Term Tagged → Nat
  | var _ => 0
  | app fn arg => max fn.shortBinders arg.shortBinders
  | abs x body => lettersFor x + body.shortBinders
  | pi x dom cod => lettersFor x + max dom.shortBinders cod.shortBinders
  | sort _ => 0

/-- The ASCII letters that are names of identifiers of the term. -/
def letters (t : Term Tagged) : List Name :=
  (t.identifiers.map Tagged.name).dedup.filter Name.isLetter

theorem mem_letters {t : Term Tagged} {letter : Name} :
    letter ∈ t.letters ↔ (∃ x ∈ t.identifiers, x.name = letter) ∧ letter ∈ Renaming.alphabet := by
  rw [letters, List.mem_filter, List.mem_dedup, List.mem_map]
  exact and_congr_right' ⟨Renaming.mem_alphabet_of_isLetter, Renaming.isLetter_of_mem_alphabet⟩

theorem length_letters_le (t : Term Tagged) : t.letters.length ≤ 52 := by
  have listed : t.letters ⊆ Renaming.alphabet := fun letter member => (mem_letters.1 member).2
  have distinct : t.letters.Nodup := (List.nodup_dedup _).filter _
  rw [← Renaming.length_alphabet]
  exact (distinct.subperm listed).length_le

theorem shortBinders_eq_zero {t : Term Tagged} (long : ∀ x ∈ t.binders, 1 < x.name.length) :
    t.shortBinders = 0 := by
  have none : ∀ x : Tagged, 1 < x.name.length → lettersFor x = 0 := fun x long =>
    if_neg (Nat.not_le.2 long)
  induction t with
  | var x => rfl
  | app fn arg ihFn ihArg =>
      rw [shortBinders, ihFn fun x inFn => long x (mem_binders_app.2 (.inl inFn)),
        ihArg fun x inArg => long x (mem_binders_app.2 (.inr inArg)), Nat.max_self]
  | abs x body ih =>
      rw [shortBinders, none x (long x (mem_binders_abs.2 (.inl rfl))),
        ih fun y inBody => long y (mem_binders_abs.2 (.inr inBody))]
  | pi x dom cod ihDom ihCod =>
      rw [shortBinders, none x (long x (mem_binders_pi.2 (.inl rfl))),
        ihDom fun y inDom => long y (mem_binders_pi.2 (.inr (.inl inDom))),
        ihCod fun y inCod => long y (mem_binders_pi.2 (.inr (.inr inCod))), Nat.max_self]
  | sort u => rfl

end Term

/-! ## Enough letters -/

open Term

variable {renamed : Renaming} {letters given : List Name} {x : Tagged} {scope : Term Tagged}

/-- One binder: it gets a name, and at most one more letter is spent in its scope. -/
theorem Renaming.Spent.enter (spent : renamed.Spent letters given)
    (covers : ∀ y ∈ scope.identifiers, y.name ∈ Renaming.alphabet → y.name ∈ letters)
    (room : letters.length + given.length + lettersFor x ≤ 52) :
    ∃ name inner given', renamed.enter x scope = .ok (name, inner) ∧ inner.Spent letters given' ∧
      given'.length ≤ given.length + lettersFor x := by
  by_cases collision : renamed.collides x scope = true
  · have entering : ∀ {new : Name}, renamed.pick (renamed.taken scope) x.name = .ok new →
        renamed.enter x scope = .ok (new, renamed.give x.tag new) := by
      intro new picked
      rw [Renaming.enter, if_pos collision, picked]
      rfl
    by_cases short : x.name.length ≤ 1
    · rw [lettersFor, if_pos short] at room ⊢
      obtain ⟨new, found⟩ := spent.exists_letter covers (by omega)
      exact ⟨new, _, new :: given, entering (Renaming.pick_of_short short found),
        spent.give_letter covers found, Nat.le_refl _⟩
    · have long : 1 < x.name.length := Nat.lt_of_not_le short
      exact ⟨_, _, given, entering (Renaming.pick_of_long _ _ long),
        spent.give_other (Renaming.freshOutside_fresh_not_mem_alphabet _ _), Nat.le_add_right _ _⟩
  · exact ⟨x.name, renamed, given, if_neg collision, spent, Nat.le_add_right _ _⟩

/-- **Untagging succeeds where there are letters enough.** On the way down a binder adds to the
letters that are spent what the rest of the path no longer has to reckon with. -/
theorem exists_untagIn_eq (t : Term Tagged) :
    ∀ {renamed : Renaming} {given : List Name}, renamed.Spent letters given →
      (∀ y ∈ t.identifiers, y.name ∈ Renaming.alphabet → y.name ∈ letters) →
      letters.length + given.length + t.shortBinders ≤ 52 → ∃ b, t.untagIn renamed = .ok b := by
  induction t with
  | var x => exact fun _ _ _ => ⟨_, rfl⟩
  | app fn arg ihFn ihArg =>
      intro renamed given spent covers room
      simp only [identifiers, List.forall_mem_append, shortBinders] at covers room
      obtain ⟨fn', inFn⟩ := ihFn spent covers.1 (by omega)
      obtain ⟨arg', inArg⟩ := ihArg spent covers.2 (by omega)
      refine ⟨.app fn' arg', ?_⟩
      rw [untagIn, inFn, inArg]
      rfl
  | abs x body ih =>
      intro renamed given spent covers room
      simp only [identifiers, List.forall_mem_cons, shortBinders] at covers room
      obtain ⟨name, inner, given', enters, inside, few⟩ := spent.enter (x := x) covers.2 (by omega)
      obtain ⟨body', inBody⟩ := ih inside covers.2 (by omega)
      refine ⟨.abs name body', ?_⟩
      rw [untagIn, enters]
      simp only [bind, Except.bind, inBody]
      rfl
  | pi x dom cod ihDom ihCod =>
      intro renamed given spent covers room
      simp only [identifiers, List.forall_mem_cons, List.forall_mem_append, shortBinders]
        at covers room
      obtain ⟨dom', inDom⟩ := ihDom spent covers.2.1 (by omega)
      obtain ⟨name, inner, given', enters, inside, few⟩ := spent.enter (x := x) covers.2.2 (by omega)
      obtain ⟨cod', inCod⟩ := ihCod inside covers.2.2 (by omega)
      refine ⟨.pi name dom' cod', ?_⟩
      rw [untagIn, inDom, enters]
      simp only [bind, Except.bind, inCod]
      rfl
  | sort u => exact fun _ _ _ => ⟨_, rfl⟩

/-- The same for a whole term, where nothing is spent at first. -/
theorem exists_untag_eq {t : Term Tagged} (room : t.letters.length + t.shortBinders ≤ 52) :
    ∃ b, t.untag = .ok b :=
  exists_untagIn_eq t (.nil t.letters)
    (fun y member isLetter => mem_letters.2 ⟨⟨y, member, rfl⟩, isLetter⟩) room

/-- **Untagging runs out of names only near the last letter.** It succeeds if the letters that are
names in the term and the binders with names of at most one character on any path are together no
more than the letters there are. In particular it succeeds if every binder's name has several
characters: whatever names are taken, such a name is counted up until it comes to the first one that
is free. Tags need not tell binders apart for this. -/
theorem untag_succeeds (t : Term Tagged) :
    (t.letters.length + t.shortBinders ≤ 52 → ∃ b, t.untag = .ok b) ∧
      ((∀ x ∈ t.binders, 2 ≤ x.name.length) → ∃ b, t.untag = .ok b) ∧
      ∀ (takenNames : List Name) (name : Name), 2 ≤ name.length →
        ∃ n, Name.fresh^[n + 1] name ∉ takenNames ∧
          (∀ i < n, Name.fresh^[i + 1] name ∈ takenNames) ∧
          ∀ renamed : Renaming, renamed.pick takenNames name = .ok (Name.fresh^[n + 1] name) := by
  refine ⟨exists_untag_eq, fun long => ?_, fun takenNames name long => ?_⟩
  · apply exists_untag_eq
    rw [shortBinders_eq_zero long]
    exact length_letters_le t
  · obtain ⟨n, found, before⟩ := Name.exists_freshOutside_eq takenNames name.fresh
    have free := Name.freshOutside_not_mem takenNames name.fresh
    rw [found] at free
    refine ⟨n, free, before, fun renamed => ?_⟩
    rw [Renaming.pick_of_long renamed takenNames long, found]
    rfl

/-- The binder `x` over its own variable and over free variables of the given names. -/
def crowded (names : List Name) : Term Tagged :=
  .abs ⟨"x", 1⟩ (names.foldl (fun t name => .app t (.var ⟨name, 2⟩)) (.var ⟨"x", 1⟩))

/-- Two binders of one name of two characters, both of them used. -/
def numberedTwice : Term Tagged :=
  .abs ⟨"x1", 1⟩ (.abs ⟨"x1", 2⟩ (.app (.var ⟨"x1", 1⟩) (.var ⟨"x1", 2⟩)))

/-- One letter is left for the binder when all others are free variables, and none when all are.
Names of two characters need no letter. -/
theorem untag_crowded :
    ((crowded (Renaming.alphabet.take 51)).letters.length +
          (crowded (Renaming.alphabet.take 51)).shortBinders = 52 ∧
        ∃ b, (crowded (Renaming.alphabet.take 51)).untag = .ok b) ∧
      ((crowded Renaming.alphabet).letters.length + (crowded Renaming.alphabet).shortBinders = 53 ∧
        (crowded Renaming.alphabet).untag.toOption = none) ∧
      ((∀ x ∈ numberedTwice.binders, 2 ≤ x.name.length) ∧ ∃ b, numberedTwice.untag = .ok b) ∧
      ∃ n, Name.fresh^[n + 1] "x1" ∉ ["x1", "x2"] ∧
        ∀ renamed : Renaming,
          renamed.pick ["x1", "x2"] "x1" = .ok (Name.fresh^[n + 1] "x1") := by
  have tight : (crowded (Renaming.alphabet.take 51)).letters.length +
      (crowded (Renaming.alphabet.take 51)).shortBinders = 52 := by decide +kernel
  have long : ∀ x ∈ numberedTwice.binders, 2 ≤ x.name.length := by decide +kernel
  obtain ⟨n, free, _, picked⟩ := (untag_succeeds numberedTwice).2.2 ["x1", "x2"] "x1" (by decide)
  exact ⟨⟨tight, (untag_succeeds _).1 (Nat.le_of_eq tight)⟩, by decide +kernel,
    ⟨long, (untag_succeeds _).2.1 long⟩, n, free, picked⟩

end Redex
