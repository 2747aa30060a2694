import Redex.Proofs.Letters
import Redex.Reduction.Equality

/-!
# Searching for a name by counting up

A binder of several characters and the variable that two terms are probed with get their names in
the same way: a name is counted up for as long as it is taken. The search is cut short by nothing
else, so it comes to an end only because counting up meets no name twice. It does not, although the
number in a name may lose digits, wrap, or be left alone: the rank of a name grows each time.
Therefore finitely many taken names are used up, and the search ends with the first name behind them
(`FirstOutside`).
-/

set_option autoImplicit false

namespace Redex

namespace Name

/-- Each time a name is counted up, its rank grows. -/
theorem strictMono_rank_iterate (name : Name) : StrictMono fun n => rank (fresh^[n] name) := by
  refine strictMono_nat_of_lt_succ fun n => ?_
  rw [Function.iterate_succ_apply']
  exact rank_lt_rank_fresh _

/-- Counting up never meets a name twice. -/
theorem iterate_fresh_injective (name : Name) : Function.Injective fun n => fresh^[n] name :=
  fun _ _ same => name.strictMono_rank_iterate.injective (congrArg rank same)

/-- Counting up from `name`, the first name that is not taken is `found`. -/
def FirstOutside (taken : List Name) (name found : Name) : Prop :=
  ∃ n, found = fresh^[n] name ∧ found ∉ taken ∧ ∀ i < n, fresh^[i] name ∈ taken

theorem firstOutside_freshOutside (taken : List Name) (name : Name) :
    FirstOutside taken name (freshOutside taken name) := by
  obtain ⟨n, found, before⟩ := exists_freshOutside_eq taken name
  exact ⟨n, found, freshOutside_not_mem taken name, before⟩

end Name

/-- **Counting up never comes back to a name.** Whatever the name, none of the names counted up from
it are alike. So, whatever names are taken, the search ends with the first one that is not: from the
name itself, for a binder of several characters from the name after it, and for the variable that
two terms are probed with from the underscore. -/
theorem fresh_never_returns (name : Name) :
    (Function.Injective fun n => Name.fresh^[n] name) ∧
      (∀ taken : List Name, Name.FirstOutside taken name (Name.freshOutside taken name)) ∧
      (∀ (renamed : Renaming) (taken : List Name), 1 < name.length →
        ∃ found, renamed.pick taken name = .ok found ∧
          Name.FirstOutside taken name.fresh found) ∧
      ∀ a b : Term Tagged,
        Name.FirstOutside ((a.free ++ b.free).map (·.name)) "_" (holeName a b) := by
  refine ⟨name.iterate_fresh_injective, fun taken => Name.firstOutside_freshOutside taken name,
    fun renamed taken long => ?_, fun a b => Name.firstOutside_freshOutside _ "_"⟩
  exact ⟨_, Renaming.pick_of_long _ _ long, Name.firstOutside_freshOutside taken name.fresh⟩

/-- Here the largest number and the least one, with its sign, are taken: the number behind the sign
is no word, so it gets a digit more. -/
theorem fresh_never_returns_acrossWrap :
    1 < "x9223372036854775806".length ∧
      ∃ found, Renaming.pick [] ["x9223372036854775807", "x-9223372036854775808"]
          "x9223372036854775806" = .ok found ∧
        found = "x-92233720368547758081" ∧
        Name.FirstOutside ["x9223372036854775807", "x-9223372036854775808"]
          (Name.fresh "x9223372036854775806") found := by
  have long : 1 < "x9223372036854775806".length := by decide
  obtain ⟨found, picked, first⟩ := (fresh_never_returns "x9223372036854775806").2.2.1 []
    ["x9223372036854775807", "x-9223372036854775808"] long
  refine ⟨long, found, picked, ?_, first⟩
  have evaluated : (Renaming.pick [] ["x9223372036854775807", "x-9223372036854775808"]
      "x9223372036854775806").toOption = some "x-92233720368547758081" := by decide +kernel
  rw [picked] at evaluated
  exact Option.some.inj evaluated

end Redex
