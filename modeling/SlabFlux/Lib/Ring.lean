import Mathlib.Data.List.Range

/-!
# Ring buffers over unbounded positions

A ring of `size` slots stores position `position` in slot `position % size`.
`Holds` says that a stretch of consecutive positions carries a given list of
items.  It is stable under writes to positions that lie outside the stretch but
less than one turn away, which is the only fact a bounded queue needs about its
storage.

`copySlots` is the order in which a batch copy visits the slots: one run up to
the end of the ring and, where the batch does not fit, a second run from slot
zero.
-/

namespace SlabFlux.Lib.Ring

universe u

variable {α : Type u} {size : Nat}

/-- Positions less than one turn apart use different slots. -/
theorem slot_ne {low high : Nat} (ordered : low < high)
    (near : high < low + size) : low % size ≠ high % size := by
  intro equal
  have distance : (high - low) % size = 0 :=
    Nat.sub_mod_eq_zero_of_mod_eq equal.symm
  rw [Nat.mod_eq_of_lt (by omega)] at distance
  omega

/-- The ring carries `items` in the positions from `first` on. -/
def Holds (size : Nat) (buffer : Nat → α) (first : Nat) (items : List α) : Prop :=
  ∀ offset, (inBounds : offset < items.length) → buffer ((first + offset) % size) = items[offset]

namespace Holds

variable {buffer : Nat → α} {first : Nat} {items : List α}

@[simp] theorem nil (size : Nat) (buffer : Nat → α) (first : Nat) : Holds size buffer first [] := by
  intro offset inBounds
  simp at inBounds

/-- The first item of a held stretch sits in the slot of its position. -/
theorem head {item : α} (holds : Holds size buffer first (item :: items)) :
    buffer (first % size) = item := by
  have held := holds 0 (by simp)
  rwa [Nat.add_zero, List.getElem_cons_zero] at held

theorem tail {item : α} (holds : Holds size buffer first (item :: items)) :
    Holds size buffer (first + 1) items := by
  intro offset inBounds
  have held := holds (offset + 1) (by simpa using inBounds)
  simpa [Nat.add_assoc, Nat.add_comm 1 offset] using held

theorem drop (holds : Holds size buffer first items) (count : Nat) :
    Holds size buffer (first + count) (items.drop count) := by
  intro offset inBounds
  have held := holds (count + offset) (by
    rw [List.length_drop] at inBounds
    omega)
  simpa [Nat.add_assoc] using held

theorem append {more : List α} (front : Holds size buffer first items)
    (back : Holds size buffer (first + items.length) more) :
    Holds size buffer first (items ++ more) := by
  intro offset inBounds
  by_cases inFront : offset < items.length
  · rw [List.getElem_append_left inFront]
    exact front offset inFront
  · have held := back (offset - items.length) (by
      rw [List.length_append] at inBounds
      omega)
    rw [List.getElem_append_right (by omega)]
    rw [← held]
    congr 2
    omega

/-- A write to a later position less than one turn beyond `first` does not
disturb the held stretch. -/
theorem write (holds : Holds size buffer first items) {position : Nat}
    (after : first + items.length ≤ position) (near : position < first + size)
    (value : α) :
    Holds size (Function.update buffer (position % size) value) first items := by
  intro offset inBounds
  rw [Function.update_of_ne]
  · exact holds offset inBounds
  · exact slot_ne (by omega) (by omega)

/-- Writing the position right after the held stretch extends it. -/
theorem snoc (holds : Holds size buffer first items) (room : items.length < size) (value : α) :
    Holds size (Function.update buffer ((first + items.length) % size) value)
      first (items ++ [value]) := by
  apply append
  · exact holds.write (Nat.le_refl _) (by omega) value
  · intro offset inBounds
    obtain rfl : offset = 0 := by simpa using inBounds
    simp

/-- A write to an earlier position less than one turn before the end of the held
stretch does not disturb it. -/
theorem write_before (holds : Holds size buffer first items) {position : Nat}
    (before : position < first) (near : first + items.length ≤ position + size)
    (value : α) :
    Holds size (Function.update buffer (position % size) value) first items := by
  intro offset inBounds
  rw [Function.update_of_ne]
  · exact holds offset inBounds
  · exact (slot_ne (by omega) (by omega)).symm

/-- Writing the position right before the held stretch extends it. -/
theorem cons {position : Nat} (holds : Holds size buffer (position + 1) items)
    (room : items.length < size) (value : α) :
    Holds size (Function.update buffer (position % size) value)
      position (value :: items) := by
  have kept := holds.write_before (Nat.lt_succ_self position) (by omega) value
  intro offset inBounds
  cases offset with
  | zero => simp
  | succ offset =>
      have held := kept offset (by simpa using inBounds)
      rw [List.getElem_cons_succ, ← held]
      congr 2
      omega

end Holds

/-- Slots of the `count` positions from `first` on. -/
def slots (size first count : Nat) : List Nat :=
  (List.range count).map fun offset => (first + offset) % size

@[simp] theorem length_slots (size first count : Nat) :
    (slots size first count).length = count := by
  simp [slots]

theorem slots_succ (size first count : Nat) :
    slots size first (count + 1) = first % size :: slots size (first + 1) count := by
  simp only [slots, List.range_succ_eq_map, List.map_cons, List.map_map,
    Nat.add_zero, List.cons.injEq, true_and]
  apply List.map_congr_left
  intro offset _
  simp [Nat.add_assoc, Nat.add_comm 1 offset]

@[simp] theorem slots_one (size first : Nat) : slots size first 1 = [first % size] := by
  simp [slots]

/-- Slots visited by a batch copy of `count` items that starts in slot `start`. -/
def copySlots (size start count : Nat) : List Nat :=
  if start + count ≤ size then
    List.range' start count
  else
    List.range' start (size - start) ++ List.range' 0 (count - (size - start))

/-- A batch copy visits its slots in ring order, also when it is split at the
end of the ring. -/
theorem copySlots_eq_slots_of_lt {start count : Nat} (startLt : start < size)
    (fits : count ≤ size) :
    copySlots size start count = slots size start count := by
  apply List.ext_getElem
  · unfold copySlots
    split <;> simp
    omega
  · intro offset leftBound rightBound
    have bound : offset < count := by simpa using rightBound
    simp only [slots, List.getElem_map, List.getElem_range]
    unfold copySlots
    split
    next whole =>
      rw [List.getElem_range', Nat.mod_eq_of_lt (by omega)]
      omega
    next parted =>
      by_cases inFirst : offset < size - start
      · rw [List.getElem_append_left (by simpa using inFirst),
          List.getElem_range', Nat.mod_eq_of_lt (by omega)]
        omega
      · rw [List.getElem_append_right (by simpa using inFirst),
          List.getElem_range', Nat.mod_eq_sub_mod (by omega),
          Nat.mod_eq_of_lt (by omega), List.length_range']
        omega

/-- A batch copy that starts at a position visits the slots of the next `count`
positions. -/
theorem copySlots_eq_slots (room : 0 < size) (position : Nat) {count : Nat} (fits : count ≤ size) :
    copySlots size (position % size) count = slots size position count := by
  rw [copySlots_eq_slots_of_lt (Nat.mod_lt position room) fits]
  simp only [slots, Nat.mod_add_mod]

end SlabFlux.Lib.Ring
