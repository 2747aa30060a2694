import Redex.Proofs.FreshName
import Redex.Proofs.Syntax.Identifier

/-!
# How new names are spelled

A name is counted up by replacing digits at its end by digits, so an identifier stays one, with one
exception: when the number at the end is the largest word, the next one is negative, and its sign is
no part of an identifier. So a name made from an identifier is an identifier unless it holds a minus
sign (`Name.Spelled.isIdentifier_iff`).

A search for a new name counts up no more often than there are names to avoid. A name whose number
is not among the last words before the wrap has room for that (`Name.HasRoom`), and then the name
found is an identifier (`Name.HasRoom.isIdentifier_freshOutside`).
-/

set_option autoImplicit false

namespace Redex

/-! ## Digits -/

theorem toNat_of_isDigit {c : Char} (digit : c.isDigit = true) : c.toNat ≤ 57 :=
  (Char.isDigit_iff_toNat.1 digit).2

theorem continuesName_of_isDigit {c : Char} (digit : c.isDigit = true) :
    continuesName c = true := by
  have ascii : c.toNat < 0x80 := Nat.lt_of_le_of_lt (toNat_of_isDigit digit) (by decide)
  rw [continuesName, Text.isDecimalDigit, if_pos ascii, digit, Bool.or_true]

theorem not_isDigit_of_startsName {c : Char} (starts : startsName c = true) :
    ¬ c.isDigit = true := by
  intro digit
  have high := toNat_of_isDigit digit
  simp only [startsName, Bool.and_eq_true, Bool.or_eq_true, beq_iff_eq] at starts
  rcases starts.2 with rfl | letter
  · cases digit
  · rw [Text.isLetter, if_pos (Nat.lt_of_le_of_lt high (by decide))] at letter
    have low : 65 ≤ c.toNat := Text.le_toNat_of_isAlpha letter
    omega

namespace Name

/-! ## Spelling -/

/-- A name is spelled as an identifier, apart from minus signs in it. -/
def Spelled (name : Name) : Prop :=
  ∃ first others, name.toList = first :: others ∧ startsName first = true ∧
    ∀ c ∈ others, continuesName c = true ∨ c = '-'

theorem spelled_of_isIdentifier {name : Name} (identifier : name.isIdentifier = true) :
    name.Spelled := by
  obtain ⟨first, others, chars, starts, continues⟩ := exists_of_isIdentifier identifier
  exact ⟨first, others, chars, starts, fun c member => .inl (continues c member)⟩

/-- What keeps a name from being an identifier is a minus sign. -/
theorem Spelled.isIdentifier_iff {name : Name} (spelled : name.Spelled) :
    name.isIdentifier = true ↔ '-' ∉ name.toList := by
  obtain ⟨first, others, chars, starts, continues⟩ := spelled
  have noSign : ∀ c, continuesName c = true → c ≠ '-' := by
    rintro c continues rfl
    exact absurd continues (by decide +kernel)
  have other : first ≠ '-' := noSign first (continuesName_of_startsName starts)
  rw [isIdentifier, chars]
  simp only [starts, Bool.true_and, List.all_eq_true, List.mem_cons, not_or]
  constructor
  · intro all
    exact ⟨other.symm, fun member => noSign _ (all _ member) rfl⟩
  · rintro ⟨_, none⟩ c member
    rcases continues c member with inName | rfl
    · exact inName
    · exact absurd member none

/-- A spelled name keeps its stem when the digits behind it change. -/
theorem Spelled.replace {stem digits digits' : List Char}
    (spelled : Spelled (String.ofList (stem ++ digits))) (areDigits : ∀ c ∈ digits, c.isDigit)
    (continues : ∀ c ∈ digits', continuesName c = true ∨ c = '-') :
    Spelled (String.ofList (stem ++ digits')) := by
  obtain ⟨first, others, chars, starts, inside⟩ := spelled
  rw [String.toList_ofList] at chars
  cases stem with
  | nil =>
      have digit := areDigits first (by rw [List.nil_append] at chars; simp [chars])
      exact absurd digit (not_isDigit_of_startsName starts)
  | cons first stem =>
      cases chars
      refine ⟨first, stem ++ digits', String.toList_ofList, starts, fun c member => ?_⟩
      rcases List.mem_append.1 member with inStem | inDigits
      · exact inside c (List.mem_append_left _ inStem)
      · exact continues c inDigits

theorem digits_continue {digits : List Char} (areDigits : ∀ c ∈ digits, c.isDigit) :
    ∀ c ∈ digits, continuesName c = true ∨ c = '-' :=
  fun c member => .inl (continuesName_of_isDigit (areDigits c member))

/-- An identifier stays one when the digits behind it change. -/
theorem isIdentifier_replace {stem digits digits' : List Char}
    (identifier : isIdentifier (String.ofList (stem ++ digits)) = true)
    (areDigits : ∀ c ∈ digits, c.isDigit) (areDigits' : ∀ c ∈ digits', c.isDigit) :
    isIdentifier (String.ofList (stem ++ digits')) = true := by
  have spelled := spelled_of_isIdentifier identifier
  rw [spelled.isIdentifier_iff, String.toList_ofList] at identifier
  rw [(spelled.replace areDigits (digits_continue areDigits')).isIdentifier_iff,
    String.toList_ofList]
  intro member
  rcases List.mem_append.1 member with inStem | inDigits
  · exact identifier (List.mem_append_left _ inStem)
  · exact absurd (areDigits' _ inDigits) (by decide)

/-- Counting up changes nothing but digits and a sign. -/
theorem Spelled.fresh {name : Name} (spelled : name.Spelled) : name.fresh.Spelled := by
  obtain ⟨stem, digits, rfl, stemEnds, areDigits⟩ := name.exists_parts
  rcases fresh_cases stemEnds areDigits with ⟨_, put⟩ | ⟨_, counted⟩ | ⟨_, signed⟩
  · rw [put]
    exact spelled.replace areDigits (digits_continue (isDigit_of_mem_append_one areDigits))
  · rw [counted]
    exact spelled.replace areDigits (digits_continue isDigit_of_mem_toDigits)
  · rw [signed, List.append_assoc]
    refine spelled.replace areDigits (List.forall_mem_cons.2 ⟨.inr rfl, ?_⟩)
    exact digits_continue isDigit_of_mem_toDigits

theorem Spelled.freshOutside {name : Name} (spelled : name.Spelled) (taken : List Name) :
    (freshOutside taken name).Spelled := by
  fun_induction Name.freshOutside taken name with
  | case1 taken name member ih => exact ih spelled.fresh
  | case2 taken name notMember => exact spelled

/-! ## Room for counting -/

/-- The name can be counted up so many times without passing the largest word: its number is that
far from it, or is no word at all. -/
def HasRoom (times : Nat) (name : Name) : Prop :=
  digitsValue name.splitDigits.2 + times < Numeral.signedBound ∨
    Numeral.signedBound ≤ digitsValue name.splitDigits.2

instance (times : Nat) (name : Name) : Decidable (name.HasRoom times) :=
  inferInstanceAs (Decidable (_ ∨ _))

theorem HasRoom.mono {times times' : Nat} {name : Name} (room : name.HasRoom times)
    (le : times' ≤ times) : name.HasRoom times' :=
  room.imp_left (Nat.lt_of_le_of_lt (Nat.add_le_add_left le _))

/-- Counting up uses room for one time and puts no sign into the name. -/
theorem HasRoom.fresh {times : Nat} {name : Name} (room : name.HasRoom (times + 1)) :
    name.fresh.HasRoom times ∧ (name.isIdentifier = true → name.fresh.isIdentifier = true) := by
  obtain ⟨stem, digits, rfl, stemEnds, areDigits⟩ := name.exists_parts
  rw [HasRoom, splitDigits_ofList stemEnds areDigits] at room
  dsimp only at room
  -- the new name has the same stem, and digits behind it
  have numbered : ∀ {digits' : List Char}, (∀ c ∈ digits', c.isDigit) →
      (digitsValue digits' + times < Numeral.signedBound ∨
        Numeral.signedBound ≤ digitsValue digits') →
      HasRoom times (String.ofList (stem ++ digits')) ∧
        (isIdentifier (String.ofList (stem ++ digits)) = true →
          isIdentifier (String.ofList (stem ++ digits')) = true) := by
    intro digits' areDigits' room'
    refine ⟨?_, fun identifier => isIdentifier_replace identifier areDigits areDigits'⟩
    rw [HasRoom, splitDigits_ofList stemEnds areDigits']
    exact room'
  rcases fresh_cases stemEnds areDigits with ⟨why, put⟩ | ⟨fits, counted⟩ | ⟨wraps, signed⟩
  · rw [put]
    refine numbered (isDigit_of_mem_append_one areDigits) ?_
    rw [digitsValue_append_one]
    rcases why with rfl | large
    · have zero : digitsValue [] = 0 := rfl
      rw [zero] at room ⊢
      omega
    · omega
  · rw [counted]
    refine numbered isDigit_of_mem_toDigits ?_
    rw [digitsValue_toDigits]
    omega
  · omega

theorem HasRoom.isIdentifier_freshOutside {taken : List Name} {name : Name}
    (room : name.HasRoom taken.length) (identifier : name.isIdentifier = true) :
    (Name.freshOutside taken name).isIdentifier = true := by
  fun_induction Name.freshOutside taken name with
  | case1 taken name member ih =>
      have fewer : name.HasRoom ((without taken name).length + 1) :=
        room.mono (Nat.succ_le_of_lt (length_without_lt member))
      exact ih fewer.fresh.1 (fewer.fresh.2 identifier)
  | case2 taken name notMember => exact identifier

end Name

end Redex
