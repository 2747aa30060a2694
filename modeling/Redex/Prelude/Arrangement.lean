/-!
# Arrangement

Several records may give the fields of one, each in an order of its own. An arrangement puts the
runs of names in one row.

A name waits once for every place at which it stands behind another. The front of the first run is
taken whose front does not wait, and then the name behind it waits once less, unless it is the last
of its run. If every front waits, the front of the first run is taken, and its name does not wait
any more. So a run by itself keeps its order, and the last name of a run comes behind what other
runs can put before it.
-/

set_option autoImplicit false

namespace Redex

variable {α : Type} [DecidableEq α]

/-- A name that can be taken from the front of one of several runs, the names behind it in its run,
and the runs that are left without it. -/
structure Front (α : Type) where
  name : α
  behind : List α
  rest : List (List α)
deriving Repr

/-- The front of the first run whose front does not wait. -/
def Front.ready? (waiting : List α) : List (List α) → Option (Front α)
  | [] => none
  | [] :: runs => ready? waiting runs
  | (name :: behind) :: runs =>
    if waiting.contains name then
      (ready? waiting runs).map fun front =>
        { front with rest := (name :: behind) :: front.rest }
    else some ⟨name, behind, behind :: runs⟩

/-- The names that still wait when a front is taken, each as often as it waits. -/
def Front.stillWaiting (front : Front α) (waiting : List α) : List α :=
  let others := waiting.filter (· ≠ front.name)
  match front.behind with
  | next :: _ :: _ => others.erase next
  | _ => others

/-- Take the names of runs one by one, at most `fuel` of them. -/
def takeFronts : Nat → List α → List (List α) → List α
  | 0, _, _ => []
  | fuel + 1, waiting, runs =>
    match (Front.ready? waiting runs).or (Front.ready? [] runs) with
    | some front => front.name :: takeFronts fuel (front.stillWaiting waiting) front.rest
    | none => []

/-- One row of the names of all runs. A name stands in it as often as in the runs. -/
def arrange (runs : List (List α)) : List α :=
  takeFronts runs.flatten.length (runs.flatMap List.tail) runs

end Redex
