import Mathlib.Algebra.BigOperators.Group.Finset.Basic

/-!
# The contents of numbered places as one bag

A store that keeps its items in numbered places is compared with a history through the
multiset of everything it holds.  An operation touches one place, so the bag changes by what
that place gains or loses.
-/

namespace SlabFlux.Lib

universe u

variable {α : Type u} {count : Nat}

/-- The items of the first `count` places. -/
def bag (count : Nat) (contents : Nat → List α) : Multiset α :=
  ∑ place ∈ Finset.range count, (contents place : Multiset α)

variable (contents : Nat → List α)

theorem bag_split {place : Nat} (inside : place < count) :
    bag count contents = contents place + ∑ other ∈ (Finset.range count).erase place,
        (contents other : Multiset α) :=
  (Finset.add_sum_erase _ (fun other => (contents other : Multiset α))
    (Finset.mem_range.mpr inside)).symm

/-- Replacing the contents of one place exchanges them in the bag. -/
theorem bag_update_add {place : Nat} (inside : place < count) (items : List α) :
    bag count (Function.update contents place items) + contents place =
      bag count contents + items := by
  have others : ∑ other ∈ (Finset.range count).erase place,
      (Function.update contents place items other : Multiset α) =
        ∑ other ∈ (Finset.range count).erase place, (contents other : Multiset α) := by
    apply Finset.sum_congr rfl
    intro other member
    rw [Function.update_of_ne (Finset.ne_of_mem_erase member)]
  rw [bag_split _ inside, bag_split contents inside, Function.update_self, others]
  ac_rfl

theorem card_bag :
    (bag count contents).card = ∑ place ∈ Finset.range count, (contents place).length := by
  rw [bag, Multiset.card_sum]
  rfl

theorem bag_eq_flatMap :
    bag count contents = ((List.range count).flatMap contents : List α) := by
  induction count with
  | zero => rfl
  | succ count ih =>
    rw [bag, Finset.sum_range_succ, List.range_succ, List.flatMap_append, ← Multiset.coe_add, ← ih,
      List.flatMap_singleton]
    rfl

theorem bag_eq_zero {contents : Nat → List α} (empty : ∀ place < count, contents place = []) :
    bag count contents = 0 := by
  apply Finset.sum_eq_zero
  intro place member
  rw [empty place (Finset.mem_range.mp member)]
  rfl

end SlabFlux.Lib
