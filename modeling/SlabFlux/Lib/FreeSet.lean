import Mathlib.Data.Finset.Card

/-!
# Serving from a finite set

A server hands out one element of a finite set with each call, and refuses once none is left.
-/

namespace SlabFlux.Lib

variable {Item : Type*} [DecidableEq Item]

/-- Each call takes an element out of the free set, or finds it empty. -/
def Serves (free : Nat → Finset Item) (served : Nat → Option Item) : Prop :=
  ∀ call, (served call = none ∧ free call = ∅ ∧ free (call + 1) = ∅) ∨
    ∃ item ∈ free call, served call = some item ∧ free (call + 1) = (free call).erase item

namespace Serves

variable {free : Nat → Finset Item} {served : Nat → Option Item} (serves : Serves free served)
include serves

theorem antitone : Antitone free := by
  refine antitone_nat_of_succ_le fun call => ?_
  rcases serves call with ⟨_, _, empty⟩ | ⟨item, _, _, next⟩
  · simp [empty]
  · exact next ▸ Finset.erase_subset item _

theorem card (call : Nat) : (free call).card = (free 0).card - call := by
  induction call with
  | zero => rfl
  | succ call ih =>
      rcases serves call with ⟨_, empty, next⟩ | ⟨item, member, _, next⟩
      · rw [next, Finset.card_empty]
        rw [empty, Finset.card_empty] at ih
        omega
      · rw [next, Finset.card_erase_of_mem member, ih, Nat.sub_sub]

theorem served_of_lt {call : Nat} (early : call < (free 0).card) :
    ∃ item ∈ free 0, served call = some item := by
  rcases serves call with ⟨_, empty, _⟩ | ⟨item, member, result, _⟩
  · have left := serves.card call
    rw [empty, Finset.card_empty] at left
    omega
  · exact ⟨item, serves.antitone (Nat.zero_le call) member, result⟩

theorem none_of_le {call : Nat} (late : (free 0).card ≤ call) : served call = none := by
  rcases serves call with ⟨result, _⟩ | ⟨item, member, _⟩
  · exact result
  · have left := serves.card call
    have positive := Finset.card_pos.mpr ⟨item, member⟩
    omega

theorem injOn : Set.InjOn served (Set.Iio (free 0).card) := by
  intro first firstEarly second secondEarly same
  wlog ordered : first < second generalizing first second
  · rcases Nat.lt_or_eq_of_le (Nat.le_of_not_lt ordered) with after | equal
    · exact (this secondEarly firstEarly same.symm after).symm
    · exact equal.symm
  -- the later call would take what the earlier one took out
  obtain ⟨item, _, again⟩ := serves.served_of_lt secondEarly
  rcases serves second with ⟨none, _⟩ | ⟨_, member, result, _⟩
  · exact nomatch none.symm.trans again
  rcases serves first with ⟨none, _⟩ | ⟨_, _, earlier, next⟩
  · exact nomatch none.symm.trans (same.trans again)
  have later := serves.antitone ordered member
  rw [next, Option.some.inj (earlier.symm.trans (same.trans result))] at later
  exact absurd later (Finset.notMem_erase _ _)

end Serves

end SlabFlux.Lib
