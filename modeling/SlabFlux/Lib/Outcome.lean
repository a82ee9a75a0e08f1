import Mathlib.Logic.Basic

/-!
# Computations that may return early

A computation in `Except` either hands a value on or returns early with a result.
`Ensures` states a condition on each of the two, and the rules follow the ways in which
such computations are put together.
-/

namespace SlabFlux.Lib

universe u v w

variable {Result : Type u} {Value : Type v} {Next : Type v}

/-- What is handed on meets `next`, and what is returned early meets `result`. -/
def Ensures (outcome : Except Result Value) (next : Value → Prop) (result : Result → Prop) : Prop :=
  match outcome with
  | .ok value => next value
  | .error early => result early

namespace Ensures

variable {outcome : Except Result Value} {next : Value → Prop} {result : Result → Prop}

theorem mono {next' : Value → Prop} {result' : Result → Prop}
    (ensured : Ensures outcome next result) (onNext : ∀ value, next value → next' value)
    (onResult : ∀ early, result early → result' early) :
    Ensures outcome next' result' := by
  cases outcome with
  | error early => exact onResult early ensured
  | ok value => exact onNext value ensured

theorem bind {continuation : Value → Except Result Next} {next' : Next → Prop}
    (ensured : Ensures outcome next result)
    (continued : ∀ value, next value → Ensures (continuation value) next' result) :
    Ensures (outcome.bind continuation) next' result := by
  cases outcome with
  | error early => exact ensured
  | ok value => exact continued value ensured

theorem map {change : Value → Next} {next' : Next → Prop} (ensured : Ensures outcome next result)
    (changed : ∀ value, next value → next' (change value)) :
    Ensures (outcome.map change) next' result := by
  cases outcome with
  | error early => exact ensured
  | ok value => exact changed value ensured

end Ensures

end SlabFlux.Lib
