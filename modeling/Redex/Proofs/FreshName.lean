import Mathlib.Data.List.TakeWhile
import Mathlib.Data.Prod.Lex
import Mathlib.Order.Nat
import Redex.Name

/-!
# Fresh names

Counting up a name never comes back to a name met before. What grows is a pair of numbers: the
length of the name without the digits at its end and, for names that have the same, the number those
digits write. A first digit and a counted-up number make the second part grow; a number that passes
the largest word comes out negative, and its sign makes the first part grow; a number too large for
a word gets one more digit.

So a search among fresh names that does not look again at the names it has found taken is a search
outside all of them (`freshOutside_not_mem`).
-/

set_option autoImplicit false

namespace Redex.Name

/-! ## Names and the digits at their end -/

/-- A name that is put together from a stem that does not end in a digit and from digits is taken
apart again. -/
theorem splitDigits_ofList {stem digits : List Char}
    (stemEnds : stem.reverse.takeWhile Char.isDigit = []) (areDigits : ∀ c ∈ digits, c.isDigit) :
    splitDigits (String.ofList (stem ++ digits)) = (stem, digits) := by
  have backwards : ∀ c ∈ digits.reverse, c.isDigit := fun c member =>
    areDigits c (List.mem_reverse.1 member)
  have rest : stem.reverse.dropWhile Char.isDigit = stem.reverse := by
    have whole := List.takeWhile_append_dropWhile (p := Char.isDigit) (l := stem.reverse)
    rwa [stemEnds, List.nil_append] at whole
  simp only [splitDigits, String.toList_ofList, List.reverse_append,
    List.takeWhile_append_of_pos backwards, List.dropWhile_append_of_pos backwards, stemEnds, rest,
    List.append_nil, List.reverse_reverse]

/-- A name is put together from the two parts it is taken apart into. -/
theorem ofList_splitDigits (name : Name) :
    String.ofList (name.splitDigits.1 ++ name.splitDigits.2) = name := by
  simp only [splitDigits]
  rw [← List.reverse_append, List.takeWhile_append_dropWhile, List.reverse_reverse,
    String.ofList_toList]

/-- The stem of a name does not end in a digit. -/
theorem splitDigits_stem (name : Name) :
    name.splitDigits.1.reverse.takeWhile Char.isDigit = [] := by
  simp only [splitDigits, List.reverse_reverse]
  exact List.takeWhile_eq_nil_iff.2 (List.dropWhile_get_zero_not _ _)

theorem splitDigits_digits (name : Name) : ∀ c ∈ name.splitDigits.2, c.isDigit := by
  intro c member
  exact List.mem_takeWhile_imp (List.mem_reverse.1 member)

theorem exists_parts (name : Name) :
    ∃ stem digits, name = String.ofList (stem ++ digits) ∧
      stem.reverse.takeWhile Char.isDigit = [] ∧ ∀ c ∈ digits, c.isDigit :=
  ⟨_, _, name.ofList_splitDigits.symm, name.splitDigits_stem, name.splitDigits_digits⟩

/-! ## What grows -/

/-- The length of the stem, and the number at the end counted from one, or zero without a number. -/
def rank (name : Name) : Nat ×ₗ Nat :=
  toLex (name.splitDigits.1.length,
    if name.splitDigits.2 = [] then 0 else digitsValue name.splitDigits.2 + 1)

theorem rank_ofList {stem digits : List Char}
    (stemEnds : stem.reverse.takeWhile Char.isDigit = []) (areDigits : ∀ c ∈ digits, c.isDigit)
    (some : digits ≠ []) :
    rank (String.ofList (stem ++ digits)) = toLex (stem.length, digitsValue digits + 1) := by
  rw [rank, splitDigits_ofList stemEnds areDigits, if_neg some]

theorem digitsValue_append_one (digits : List Char) :
    digitsValue (digits ++ ['1']) = 10 * digitsValue digits + 1 := by
  simp [digitsValue, List.foldl_append]

theorem digitsValue_toDigits (n : Nat) : digitsValue (Nat.toDigits 10 n) = n :=
  Nat.ofDigitChars_ten_toDigits

/-- Within one stem the number decides. -/
theorem rank_lt_of_digits {stem digits digits' : List Char}
    (stemEnds : stem.reverse.takeWhile Char.isDigit = []) (areDigits : ∀ c ∈ digits, c.isDigit)
    (areDigits' : ∀ c ∈ digits', c.isDigit) (some : digits' ≠ [])
    (less : digits ≠ [] → digitsValue digits < digitsValue digits') :
    rank (String.ofList (stem ++ digits)) < rank (String.ofList (stem ++ digits')) := by
  rw [rank_ofList stemEnds areDigits' some, rank, splitDigits_ofList stemEnds areDigits]
  refine Prod.Lex.toLex_lt_toLex.2 (.inr ⟨rfl, ?_⟩)
  split
  · exact Nat.succ_pos _
  · next nonempty => exact Nat.succ_lt_succ (less nonempty)

/-- Otherwise the longer stem decides. -/
theorem rank_lt_of_stem {stem stem' digits digits' : List Char}
    (stemEnds : stem.reverse.takeWhile Char.isDigit = [])
    (stemEnds' : stem'.reverse.takeWhile Char.isDigit = []) (areDigits : ∀ c ∈ digits, c.isDigit)
    (areDigits' : ∀ c ∈ digits', c.isDigit) (longer : stem.length < stem'.length) :
    rank (String.ofList (stem ++ digits)) < rank (String.ofList (stem' ++ digits')) := by
  rw [rank, rank, splitDigits_ofList stemEnds areDigits, splitDigits_ofList stemEnds' areDigits']
  exact Prod.Lex.toLex_lt_toLex.2 (.inl longer)

/-- The number after the largest word is the least one. -/
theorem toInt_ofNat_add_one {value : Nat} (small : value < Numeral.signedBound) :
    (Int64.ofNat value + 1).toInt =
      if value + 1 < Numeral.signedBound then ((value + 1 : Nat) : Int)
      else -(Numeral.signedBound : Int) := by
  rw [Numeral.signedBound] at *
  rw [Int64.toInt_add, Int64.toInt_ofNat_of_lt small, Int64.toInt_one]
  split
  · next fits => exact Int.bmod_eq_of_le (by omega) (by omega)
  · next wraps =>
      have last : value = 0x8000000000000000 - 1 := by omega
      rw [last]
      rfl

/-- The three ways in which a name is counted up: a digit is put behind it, its number is replaced
by the next one, or the number passes the largest word and comes out with a sign. -/
theorem fresh_cases {stem digits : List Char} (stemEnds : stem.reverse.takeWhile Char.isDigit = [])
    (areDigits : ∀ c ∈ digits, c.isDigit) :
    ((digits = [] ∨ Numeral.signedBound ≤ digitsValue digits) ∧
      fresh (String.ofList (stem ++ digits)) = String.ofList (stem ++ (digits ++ ['1']))) ∨
    (digitsValue digits + 1 < Numeral.signedBound ∧
      fresh (String.ofList (stem ++ digits)) =
        String.ofList (stem ++ Nat.toDigits 10 (digitsValue digits + 1))) ∨
    (digitsValue digits + 1 = Numeral.signedBound ∧
      fresh (String.ofList (stem ++ digits)) =
        String.ofList ((stem ++ ['-']) ++ Nat.toDigits 10 Numeral.signedBound)) := by
  rw [fresh, splitDigits_ofList stemEnds areDigits]
  simp only
  split
  · next appended =>
      rw [Bool.or_eq_true, decide_eq_true_iff, List.isEmpty_iff] at appended
      refine .inl ⟨appended, ?_⟩
      rw [← List.append_assoc]
      exact String.ofList_append.symm
  · next counted =>
      rw [Bool.or_eq_true, not_or, decide_eq_true_iff, Nat.not_le] at counted
      rw [toInt_ofNat_add_one counted.2]
      split
      · next fits =>
          refine .inr (.inl ⟨fits, ?_⟩)
          rw [String.ofList_append]
          rfl
      · next wraps =>
          refine .inr (.inr ⟨Nat.le_antisymm counted.2 (Nat.not_lt.1 wraps), ?_⟩)
          rw [List.append_assoc, String.ofList_append]
          rfl

theorem isDigit_of_mem_toDigits {n : Nat} : ∀ c ∈ Nat.toDigits 10 n, c.isDigit := fun _ member =>
  Nat.isDigit_of_mem_toDigits (by decide) (by decide) member

theorem isDigit_of_mem_append_one {digits : List Char} (areDigits : ∀ c ∈ digits, c.isDigit) :
    ∀ c ∈ digits ++ ['1'], c.isDigit := by
  intro c member
  rcases List.mem_append.1 member with inDigits | one
  · exact areDigits c inDigits
  · rw [List.mem_singleton.1 one]
    rfl

/-- **Counting up a name makes its rank grow.** -/
theorem rank_lt_rank_fresh (name : Name) : name.rank < name.fresh.rank := by
  obtain ⟨stem, digits, rfl, stemEnds, areDigits⟩ := name.exists_parts
  rcases fresh_cases stemEnds areDigits with ⟨_, put⟩ | ⟨_, counted⟩ | ⟨_, signed⟩
  · -- the number gets ten times as large
    rw [put]
    refine rank_lt_of_digits stemEnds areDigits (isDigit_of_mem_append_one areDigits)
      (List.append_ne_nil_of_right_ne_nil _ (List.cons_ne_nil _ _)) fun _ => ?_
    rw [digitsValue_append_one]
    omega
  · rw [counted]
    refine rank_lt_of_digits stemEnds areDigits isDigit_of_mem_toDigits Nat.toDigits_ne_nil
      fun _ => ?_
    rw [digitsValue_toDigits]
    exact Nat.lt_succ_self _
  · -- the sign becomes part of the stem
    rw [signed]
    refine rank_lt_of_stem stemEnds ?_ areDigits isDigit_of_mem_toDigits ?_
    · rw [List.reverse_append]
      exact List.takeWhile_cons_of_neg (by decide)
    · rw [List.length_append]
      exact Nat.lt_succ_self _

/-! ## Names outside a list -/

theorem rank_le_rank_freshOutside (taken : List Name) (name : Name) :
    name.rank ≤ (freshOutside taken name).rank := by
  fun_induction freshOutside taken name with
  | case1 taken name member ih => exact le_trans (le_of_lt name.rank_lt_rank_fresh) ih
  | case2 taken name notMember => exact le_refl _

/-- **The name found is not taken.** -/
theorem freshOutside_not_mem (taken : List Name) (name : Name) :
    freshOutside taken name ∉ taken := by
  fun_induction freshOutside taken name with
  | case1 taken name member ih =>
      intro found
      refine ih (List.mem_filter.2 ⟨found, decide_eq_true fun same => ?_⟩)
      -- the name found ranks above the one that was taken, so it is another one
      have later := rank_le_rank_freshOutside (without taken name) name.fresh
      rw [same] at later
      exact absurd name.rank_lt_rank_fresh (not_lt_of_ge later)
  | case2 taken name notMember => exact notMember

end Redex.Name
