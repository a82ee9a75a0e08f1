import Mathlib.Data.Fintype.EquivFin

/-!
# Walks

A walk goes from state to state as long as there is a next one.  Among finitely many states it
comes to an end exactly if it visits none of them twice.
-/

namespace SlabFlux.Lib

universe u

variable {State : Type u} (next : State → Option State) (start : State)

/-- The state after so many steps, if the walk gets that far. -/
def visited : Nat → Option State
  | 0 => some start
  | steps + 1 => (visited steps).bind next

variable {next start}

theorem visited_add (first second : Nat) :
    visited next start (first + second) =
      (visited next start first).bind fun state => visited next state second := by
  induction second with
  | zero => cases visited next start first <;> rfl
  | succ second ih =>
    rw [← Nat.add_assoc, visited, ih, Option.bind_assoc]
    rfl

theorem visited_succ (steps : Nat) :
    visited next start (steps + 1) = (next start).bind fun state => visited next state steps := by
  rw [Nat.add_comm, visited_add]
  rfl

/-- A walk that has come to its end stays there. -/
theorem visited_eq_none_of_le {first second : Nat} (ended : visited next start first = none)
    (later : first ≤ second) : visited next start second = none := by
  obtain ⟨more, rfl⟩ := Nat.exists_eq_add_of_le later
  rw [visited_add, ended]
  rfl

/-- A state that is visited twice is visited again and again. -/
theorem visited_ne_none_of_repeat {state : State} {first second : Nat} (later : first < second)
    (once : visited next start first = some state)
    (again : visited next start second = some state) (steps : Nat) :
    visited next start steps ≠ none := by
  obtain ⟨round, rfl⟩ := Nat.exists_eq_add_of_lt later
  have cycle : visited next state (round + 1) = some state := by
    rw [Nat.add_assoc, visited_add, once] at again
    exact again
  have rounds (count : Nat) : visited next state (count * (round + 1)) = some state := by
    induction count with
    | zero =>
      rw [Nat.zero_mul]
      rfl
    | succ count ih => rw [Nat.succ_mul, visited_add, ih, Option.bind_some, cycle]
  intro ended
  have far : visited next start (first + steps * (round + 1)) = some state := by
    rw [visited_add, once, Option.bind_some, rounds]
  have beyond : steps ≤ first + steps * (round + 1) := by
    rw [Nat.mul_succ]
    omega
  rw [visited_eq_none_of_le ended beyond] at far
  cases far

/-- A walk among finitely many states ends exactly if it visits no state twice. -/
theorem visited_ends_iff [Finite State] (next : State → Option State) (start : State) :
    (∃ steps, visited next start steps = none) ↔
      ∀ first second state, visited next start first = some state →
        visited next start second = some state → first = second := by
  constructor
  · rintro ⟨steps, ended⟩ first second state once again
    rcases Nat.lt_trichotomy first second with less | same | greater
    · exact absurd ended (visited_ne_none_of_repeat less once again steps)
    · exact same
    · exact absurd ended (visited_ne_none_of_repeat greater again once steps)
  · intro unrepeated
    by_contra endless
    rw [not_exists] at endless
    have all (steps : Nat) : ∃ state, visited next start steps = some state :=
      Option.ne_none_iff_exists'.mp (endless steps)
    choose place visits using all
    apply not_injective_infinite_finite place
    intro first second same
    apply unrepeated first second (place first) (visits first)
    rw [same]
    exact visits second

end SlabFlux.Lib
