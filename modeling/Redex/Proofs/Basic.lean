/-!
# Computations that may fail, lists and tables

Facts that have to do with no particular part of the program: when a computation in several parts
succeeds, where a run of like members of a list ends, and what is found in a table after some of its
entries are taken away.
-/

set_option autoImplicit false

namespace Redex

/-! ## Computations that may fail -/

/-- A computation that succeeds does so in both of its parts. -/
theorem exists_ok_of_bind {ε α β : Type} {first : Except ε α} {next : α → Except ε β} {b : β}
    (whole : (first >>= next) = .ok b) : ∃ a, first = .ok a ∧ next a = .ok b := by
  cases first with
  | error e => cases whole
  | ok a => exact ⟨a, rfl, whole⟩

theorem exists_ok_of_map {ε α β : Type} {f : α → β} {result : Except ε α} {b : β}
    (given : result.map f = .ok b) : ∃ a, result = .ok a ∧ f a = b := by
  cases result with
  | error e => cases given
  | ok a =>
      cases given
      exact ⟨a, rfl, rfl⟩

theorem exists_error_of_mapError {ε ε' α : Type} {f : ε → ε'} {result : Except ε α} {e' : ε'}
    (given : result.mapError f = .error e') : ∃ e, result = .error e ∧ f e = e' := by
  cases result with
  | error e =>
      cases given
      exact ⟨e, rfl, rfl⟩
  | ok a => cases given

theorem eq_ok_of_toOption {ε α : Type} {result : Except ε α} {a : α}
    (given : result.toOption = some a) : result = .ok a := by
  cases result with
  | error e => cases given
  | ok b => exact congrArg Except.ok (Option.some.inj given)

/-- A computation that fails does so in one of its parts. -/
theorem eq_error_of_bind {ε α β : Type} {first : Except ε α} {next : α → Except ε β} {e : ε}
    (whole : (first >>= next) = .error e) :
    first = .error e ∨ ∃ a, first = .ok a ∧ next a = .error e := by
  cases first with
  | error e' =>
      cases whole
      exact .inl rfl
  | ok a => exact .inr ⟨a, rfl, whole⟩

/-- A walk along a list that fails does so at one of its members, and not before. -/
theorem exists_of_foldlM_eq_error {ε α β : Type} {step : β → α → Except ε β} {xs : List α} {e : ε} :
    ∀ {b : β}, xs.foldlM step b = .error e →
      ∃ earlier x later b', xs = earlier ++ x :: later ∧ earlier.foldlM step b = .ok b' ∧
        step b' x = .error e := by
  induction xs with
  | nil =>
      intro b fails
      cases fails
  | cons x xs ih =>
      intro b fails
      rw [List.foldlM_cons] at fails
      rcases eq_error_of_bind fails with here | ⟨b', first, behind⟩
      · exact ⟨[], x, xs, b, rfl, rfl, here⟩
      · obtain ⟨earlier, y, later, b'', rfl, before, failed⟩ := ih behind
        refine ⟨x :: earlier, y, later, b'', rfl, ?_, failed⟩
        rw [List.foldlM_cons, first]
        exact before

/-! ## Lists -/

/-- Where the members with a property stop can be told from the whole list. -/
theorem append_inj_of_forall {α : Type} {p : α → Bool} {xs xs' rest rest' : List α}
    (inside : ∀ x ∈ xs, p x = true) (inside' : ∀ x ∈ xs', p x = true)
    (stops : ∀ x ∈ rest.head?, p x = false) (stops' : ∀ x ∈ rest'.head?, p x = false)
    (same : xs ++ rest = xs' ++ rest') : xs = xs' ∧ rest = rest' := by
  have longest : ∀ {xs rest : List α}, (∀ x ∈ xs, p x = true) → (∀ x ∈ rest.head?, p x = false) →
      (xs ++ rest).takeWhile p = xs := by
    intro xs rest inside stops
    rw [List.takeWhile_append_of_pos inside]
    cases rest with
    | nil => exact List.append_nil xs
    | cons x rest => rw [List.takeWhile_cons_of_neg (by simp [stops x rfl]), List.append_nil]
  have first : xs = xs' := by
    rw [← longest inside stops, ← longest inside' stops', same]
  subst first
  exact ⟨rfl, List.append_cancel_left same⟩

/-! ## Tables -/

section Tables

variable {α β : Type} [DecidableEq α]

theorem lookup_filter_self (table : List (α × β)) (key : α) :
    (table.filter (·.1 ≠ key)).lookup key = none := by
  refine List.lookup_eq_none_iff.2 fun entry member => ?_
  have other := of_decide_eq_true (List.mem_filter.1 member).2
  simpa using other.symm

theorem lookup_filter_ne (table : List (α × β)) {key key' : α} (other : key' ≠ key) :
    (table.filter (·.1 ≠ key)).lookup key' = table.lookup key' := by
  induction table with
  | nil => rfl
  | cons entry rest ih =>
      by_cases same : entry.1 = key
      · have skipped : (key' == entry.1) = false := beq_eq_false_iff_ne.2 (same ▸ other)
        rw [List.filter_cons_of_neg (by simpa using same), ih, List.lookup_cons, skipped]
      · rw [List.filter_cons_of_pos (by simpa using same), List.lookup_cons, List.lookup_cons, ih]

theorem isSome_lookup_iff (table : List (α × β)) (key : α) :
    (table.lookup key).isSome = true ↔ key ∈ table.map Prod.fst := by
  rw [List.lookup_isSome_iff]
  simp

end Tables

end Redex
