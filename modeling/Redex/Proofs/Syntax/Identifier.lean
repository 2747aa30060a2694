import Redex.Syntax.Token

/-!
# Names that are read as one token

A name can be written if it starts with a character that starts a name and goes on with characters
that continue one. What makes such a name readable is that the classes of characters are apart: no
character that starts a name is blank, and no sign belongs to a name, so a name is read as such and
ends where a blank or a sign begins.
-/

set_option autoImplicit false

namespace Redex

/-! ## Classes of characters -/

namespace Text

/-- Whether two tables have no code point in common. -/
def Intervals.areApart (table table' : Intervals) : Bool :=
  table.all fun interval => table'.all fun interval' =>
    decide (interval.2 < interval'.1) || decide (interval'.2 < interval.1)

theorem Intervals.not_holds_of_areApart {table table' : Intervals}
    (apart : table.areApart table' = true) {c : Char} (holds : table.holds c = true) :
    ¬ table'.holds c = true := by
  intro holds'
  obtain ⟨interval, member, inside⟩ := List.any_eq_true.1 holds
  obtain ⟨interval', member', inside'⟩ := List.any_eq_true.1 holds'
  have ends := List.all_eq_true.1 (List.all_eq_true.1 apart interval member) interval' member'
  simp only [Bool.and_eq_true, Bool.or_eq_true, decide_eq_true_eq] at inside inside' ends
  omega

theorem le_toNat_of_isAlpha {c : Char} (alpha : c.isAlpha = true) : 'A'.toNat ≤ c.toNat := by
  rcases Bool.or_eq_true_iff.1 alpha with upper | lower
  · exact UInt32.le_iff_toNat_le.1 (of_decide_eq_true upper).1
  · have least : 'a'.toNat ≤ c.toNat :=
      UInt32.le_iff_toNat_le.1 (of_decide_eq_true (Bool.and_eq_true_iff.1 lower).1)
    exact Nat.le_trans (by decide) least

theorem not_isBlank_of_isLetter {c : Char} (letter : isLetter c = true) : ¬ isBlank c = true := by
  unfold isLetter at letter
  unfold isBlank
  split at letter
  · next ascii =>
      -- the ASCII letters start above the ASCII blanks
      have low : 65 ≤ c.toNat := le_toNat_of_isAlpha letter
      rw [if_pos ascii]
      simp only [Bool.or_eq_true, beq_iff_eq, Bool.and_eq_true, decide_eq_true_eq]
      rintro (rfl | ⟨_, high⟩)
      · exact absurd low (by decide)
      · omega
  · next wide =>
      rw [if_neg wide]
      exact Intervals.not_holds_of_areApart (by decide +kernel) letter

end Text

theorem not_isBlank_of_startsName {c : Char} (starts : startsName c = true) :
    ¬ Text.isBlank c = true := by
  simp only [startsName, Bool.and_eq_true, Bool.or_eq_true, beq_iff_eq] at starts
  rcases starts.2 with rfl | letter
  · decide
  · exact Text.not_isBlank_of_isLetter letter

/-- A sign is neither blank nor a character of a name. -/
theorem not_continuesName_of_signKind? {c : Char} {kind : Token.Kind}
    (sign : signKind? c = some kind) : ¬ Text.isBlank c = true ∧ ¬ continuesName c = true := by
  unfold signKind? at sign
  split at sign
  case h_10 => cases sign
  all_goals exact ⟨by decide +kernel, by decide +kernel⟩

theorem continuesName_of_startsName {c : Char} (starts : startsName c = true) :
    continuesName c = true := by
  rw [continuesName, starts]
  rfl

theorem not_startsName_of_not_continuesName {c : Char} (outside : ¬ continuesName c = true) :
    ¬ startsName c = true :=
  fun starts => outside (continuesName_of_startsName starts)

/-! ## Names -/

/-- Whether a name can be written. -/
def Name.isIdentifier (name : Name) : Bool :=
  match name.toList with
  | [] => false
  | first :: others => startsName first && others.all continuesName

theorem Name.exists_of_isIdentifier {name : Name} (identifier : name.isIdentifier = true) :
    ∃ first others, name.toList = first :: others ∧ startsName first = true ∧
      ∀ c ∈ others, continuesName c = true := by
  unfold isIdentifier at identifier
  split at identifier
  · cases identifier
  · next first others chars =>
      obtain ⟨starts, continues⟩ := Bool.and_eq_true_iff.1 identifier
      exact ⟨first, others, chars, starts, List.all_eq_true.1 continues⟩

end Redex
