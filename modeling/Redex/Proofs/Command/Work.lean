import Redex.Command.Run

/-!
# Work that may fail

Work keeps a log, and fails or comes to a result. Whether it fails, and what it comes to, depends
neither on what is in the log nor on what is told. So it is enough to know, whatever the log, what
holds of the result or else of the failure (`Gives`); this is found part by part.
-/

set_option autoImplicit false

namespace Redex.Command

section Work

variable {α β : Type} {first : Work α} {next : α → Work β} {log log' : List Event}

theorem run_attempt (result : Except Failure α) (log : List Event) :
    (attempt result).run.run log = (result, log) := rfl

theorem run_bind_ok {a : α} (ran : first.run.run log = (.ok a, log')) :
    (first >>= next).run.run log = (next a).run.run log' := by
  rw [ExceptT.run_bind, StateT.run_bind, ran]
  rfl

theorem run_bind_error {failure : Failure} (ran : first.run.run log = (.error failure, log')) :
    (first >>= next).run.run log = (.error failure, log') := by
  rw [ExceptT.run_bind, StateT.run_bind, ran]
  rfl

/-- Work on the members of a list that has nothing to tell. -/
theorem run_mapM_attempt (f : α → Except Failure β) (xs : List α) (log : List Event) :
    (xs.mapM fun x => attempt (f x)).run.run log = (xs.mapM f, log) := by
  induction xs with
  | nil => rfl
  | cons x xs ih =>
      rw [List.mapM_cons, List.mapM_cons]
      cases f x with
      | error failure => exact run_bind_error (run_attempt _ log)
      | ok y =>
          rw [run_bind_ok (run_attempt (.ok y) log)]
          cases rest : xs.mapM f with
          | error failure =>
              rw [rest] at ih
              exact run_bind_error ih
          | ok ys =>
              rw [rest] at ih
              exact run_bind_ok ih

/-! ## What work gives -/

/-- Whatever the log, the work comes to a result with one property or to a failure with another. -/
def Gives (work : Work α) (result : α → Prop) (fails : Failure → Prop) : Prop :=
  ∀ log, match (work.run.run log).1 with
    | .ok a => result a
    | .error failure => fails failure

variable {result : α → Prop} {result' : β → Prop} {fails : Failure → Prop}

theorem gives_pure {a : α} (holds : result a) : Gives (pure a) result fails := fun _ => holds

theorem gives_throw {failure : Failure} (holds : fails failure) :
    Gives (throw failure) result fails := fun _ => holds

/-- A computation gives what it comes to, or the failure that its error stands for. -/
theorem gives_mapError {ε : Type} {given : Except ε α} {blame : ε → Failure}
    (succeeds : ∀ a, given = .ok a → result a)
    (errs : ∀ error, given = .error error → fails (blame error)) :
    Gives (attempt (given.mapError blame)) result fails := by
  intro log
  rw [run_attempt]
  cases given with
  | ok a => exact succeeds a rfl
  | error error => exact errs error rfl

theorem gives_tell (events : List Event) : Gives (tell events) (fun _ => True) fails :=
  fun _ => trivial

/-- Less may be said of the failures. -/
theorem Gives.weaken {fails' : Failure → Prop} {work : Work α} (given : Gives work result fails)
    (weaker : ∀ failure, fails failure → fails' failure) : Gives work result fails' := by
  intro log
  have whole := given log
  revert whole
  cases (work.run.run log).1 with
  | ok a => exact id
  | error failure => exact weaker failure

/-- Work in two parts gives what the second part gives, or fails like one of them. -/
theorem Gives.bind (begun : Gives first result fails)
    (goesOn : ∀ a, result a → Gives (next a) result' fails) :
    Gives (first >>= next) result' fails := by
  intro log
  have part := begun log
  cases ran : first.run.run log with
  | mk given log' =>
      rw [ran] at part
      cases given with
      | ok a =>
          rw [run_bind_ok ran]
          exact goesOn a part log'
      | error failure =>
          rw [run_bind_error ran]
          exact part

/-- The same for computations that have nothing to tell. -/
theorem Gives.attempt_bind {given : Except Failure α} {further : α → Except Failure β}
    (begun : Gives (attempt given) result fails)
    (goesOn : ∀ a, result a → Gives (attempt (further a)) result' fails) :
    Gives (attempt (given >>= further)) result' fails := by
  cases given with
  | ok a => exact goesOn a (begun [])
  | error failure => exact fun _ => begun []

/-- Work on the members of a list has come to a result for each, or fails like one of them. -/
theorem gives_mapM {work : α → Work β} {holds : α → Prop} {xs : List α}
    (each : ∀ x ∈ xs, Gives (work x) (fun _ => holds x) fails) :
    Gives (xs.mapM work) (fun _ => ∀ x ∈ xs, holds x) fails := by
  induction xs with
  | nil => exact gives_pure fun _ member => absurd member List.not_mem_nil
  | cons x xs ih =>
      obtain ⟨first, others⟩ := List.forall_mem_cons.1 each
      rw [List.mapM_cons]
      exact first.bind fun _ here => (ih others).bind fun _ there =>
        gives_pure (List.forall_mem_cons.2 ⟨here, there⟩)

end Work

end Redex.Command
