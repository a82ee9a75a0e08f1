import Mathlib.Algebra.Ring.Nat
import Mathlib.Data.List.Basic

/-!
# Executions under a scheduler

A component whose parties move one atomic step at a time is described by a step
function: the scheduler supplies the next move, the step function says what the
move does to the state.  A run is the left fold of the step function over the
schedule, so quantifying over schedules is quantifying over interleavings.

Some results hold only while every move meets a side condition on the state it
is taken from.  `Admissible` records that condition along a whole run.
-/

namespace SlabFlux.Lib

universe u v

variable {State : Type u} {Move : Type v}

/-- The state reached by taking the scheduled moves in order. -/
def execute (step : State → Move → State) (start : State) (schedule : List Move) : State :=
  schedule.foldl step start

section

variable (step : State → Move → State) (start : State)
include step start

@[simp] theorem execute_nil :
    execute step start [] = start := rfl

@[simp] theorem execute_cons (move : Move) (schedule : List Move) :
    execute step start (move :: schedule) = execute step (step start move) schedule := rfl

@[simp] theorem execute_append (left right : List Move) :
    execute step start (left ++ right) = execute step (execute step start left) right := by
  simp [execute]

end

/-- A run that has failed stays failed. -/
theorem execute_none {step : Option State → Move → Option State}
    (failed : ∀ move, step none move = none) (schedule : List Move) :
    execute step none schedule = none := by
  induction schedule with
  | nil => rfl
  | cons move schedule ih => rw [execute_cons, failed, ih]

/-- Every move of the schedule meets `guard` in the state it is taken from. -/
def Admissible (step : State → Move → State) (guard : State → Move → Prop) :
    State → List Move → Prop
  | _, [] => True
  | state, move :: schedule =>
      guard state move ∧ Admissible step guard (step state move) schedule

namespace Admissible

variable {step : State → Move → State} {guard : State → Move → Prop}

@[simp] theorem nil_iff (state : State) : Admissible step guard state [] :=
  True.intro

@[simp] theorem cons_iff (state : State) (move : Move) (schedule : List Move) :
    Admissible step guard state (move :: schedule) ↔
      guard state move ∧ Admissible step guard (step state move) schedule :=
  Iff.rfl

theorem append_iff (state : State) (left right : List Move) :
    Admissible step guard state (left ++ right) ↔ Admissible step guard state left ∧
        Admissible step guard (execute step state left) right := by
  induction left generalizing state with
  | nil => simp
  | cons move left ih =>
      simp only [List.cons_append, cons_iff, execute_cons, ih, and_assoc]

instance decidable [∀ state move, Decidable (guard state move)] :
    (state : State) → (schedule : List Move) → Decidable (Admissible step guard state schedule)
  | _, [] => isTrue True.intro
  | state, move :: schedule =>
      have := decidable (step state move) schedule
      inferInstanceAs (Decidable (guard state move ∧
        Admissible step guard (step state move) schedule))

/-- What the guard says of a move alone holds of every move of an admissible schedule. -/
theorem forall_mem {property : Move → Prop}
    (implied : ∀ state move, guard state move → property move)
    {state : State} {schedule : List Move} (admissible : Admissible step guard state schedule) :
    ∀ move ∈ schedule, property move := by
  induction schedule generalizing state with
  | nil => exact fun move member => absurd member List.not_mem_nil
  | cons first schedule ih =>
      obtain ⟨guarded, rest⟩ := admissible
      intro move member
      rcases List.mem_cons.mp member with rfl | later
      · exact implied state move guarded
      · exact ih rest move later

end Admissible

/-- Invariant rule for admissible runs: what every guarded step preserves holds
in the state the run ends in. -/
theorem execute_invariant_of_admissible {step : State → Move → State}
    {guard : State → Move → Prop} {invariant : State → Prop}
    (preserved : ∀ state move, invariant state → guard state move → invariant (step state move))
    {start : State} (initially : invariant start)
    {schedule : List Move} (admissible : Admissible step guard start schedule) :
    invariant (execute step start schedule) := by
  induction schedule generalizing start with
  | nil => exact initially
  | cons move schedule ih =>
      obtain ⟨guarded, rest⟩ := admissible
      exact ih (preserved start move initially guarded) rest

/-- Two guards that mean the same wherever the invariant holds admit the same runs. -/
theorem Admissible.congr_of_invariant {step : State → Move → State}
    {guard law : State → Move → Prop} {invariant : State → Prop}
    (preserved : ∀ state move, invariant state → invariant (step state move))
    (same : ∀ state move, invariant state → (guard state move ↔ law state move))
    {start : State} (initially : invariant start) (schedule : List Move) :
    Admissible step guard start schedule ↔ Admissible step law start schedule := by
  induction schedule generalizing start with
  | nil => exact Iff.rfl
  | cons move schedule ih =>
      exact and_congr (same start move initially) (ih (preserved start move initially))

theorem execute_invariant {step : State → Move → State} {invariant : State → Prop}
    (preserved : ∀ state move, invariant state → invariant (step state move))
    {start : State} (initially : invariant start) (schedule : List Move) :
    invariant (execute step start schedule) := by
  induction schedule generalizing start with
  | nil => exact initially
  | cons move schedule ih => exact ih (preserved start move initially)

end SlabFlux.Lib
