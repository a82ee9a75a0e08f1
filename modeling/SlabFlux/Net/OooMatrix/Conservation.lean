import SlabFlux.Net.OooMatrix.Slots
import Mathlib.Data.Fintype.Fin

/-!
# Buffers of the out-of-order matrix

Every buffer that `insert_mbuf` takes is held by a slot until an extraction returns it or `reset`
frees it.  A buffer may be inserted again once it is out, so each place is counted.
-/

namespace SlabFlux.Net.OooMatrix

open Lib

variable {Mbuf : Type} {index : Fin maxMbufs}

namespace Matrix

variable {matrix : Matrix Mbuf}

/-- The active slots with a property. -/
def slotsWith (matrix : Matrix Mbuf) (property : MbufSlot Mbuf → Bool) : Finset (Fin maxMbufs) :=
  Finset.univ.filter fun index =>
    matrix.active index = true ∧ property (matrix.slots index) = true

@[simp] theorem mem_slotsWith {property : MbufSlot Mbuf → Bool} :
    index ∈ matrix.slotsWith property ↔
      matrix.active index = true ∧ property (matrix.slots index) = true := by
  simp [slotsWith]

@[simp] theorem slotsWith_reset (matrix : Matrix Mbuf) (expectedNextSeq : BitVec 32)
    (property : MbufSlot Mbuf → Bool) :
    (matrix.reset expectedNextSeq).slotsWith property = ∅ := by
  simp [slotsWith, reset]

/-- A free slot that is filled is one more. -/
theorem card_slotsWith_store (inactive : matrix.active index = false) (segment : MbufSlot Mbuf)
    (safeLen : Nat) (cut : Cut) (property : MbufSlot Mbuf → Bool) :
    ((matrix.store index segment safeLen cut).slotsWith property).card =
      (matrix.slotsWith property).card +
        if property (trimmedSlot segment safeLen cut) then 1 else 0 := by
  have outside : index ∉ matrix.slotsWith property := by simp [inactive]
  have others {other : Fin maxMbufs} (differs : other ≠ index) :
      other ∈ (matrix.store index segment safeLen cut).slotsWith property ↔
        other ∈ matrix.slotsWith property := by
    simp [store, Function.update_of_ne differs]
  have here : index ∈ (matrix.store index segment safeLen cut).slotsWith property ↔
      property (trimmedSlot segment safeLen cut) = true := by
    simp [store]
  by_cases holds : property (trimmedSlot segment safeLen cut) = true
  · rw [if_pos holds, ← Finset.card_insert_of_notMem outside]
    congr 1
    ext other
    by_cases same : other = index
    · simp only [same, here, holds, Finset.mem_insert_self]
    · simp only [others same, Finset.mem_insert, same, false_or]
  · rw [if_neg holds, Nat.add_zero]
    congr 1
    ext other
    by_cases same : other = index
    · simp only [same, here, holds, outside, Bool.false_eq_true]
    · exact others same

/-- A slot that is released is one less. -/
theorem card_slotsWith_release (active : matrix.active index = true) (offset : Nat)
    (property : MbufSlot Mbuf → Bool) :
    ((matrix.release index offset).slotsWith property).card +
        (if property (matrix.slots index) then 1 else 0) =
      (matrix.slotsWith property).card := by
  have erased : (matrix.release index offset).slotsWith property =
      (matrix.slotsWith property).erase index := by
    ext other
    by_cases same : other = index <;> simp [same, release]
  by_cases holds : property (matrix.slots index) = true
  · have member : index ∈ matrix.slotsWith property := by simp [active, holds]
    rw [erased, if_pos holds, Finset.card_erase_add_one member]
  · have outside : index ∉ matrix.slotsWith property := by simp [holds]
    rw [erased, if_neg holds, Finset.erase_eq_of_notMem outside, Nat.add_zero]

variable [DecidableEq Mbuf]

/-- The active slots that hold a buffer. -/
def holders (matrix : Matrix Mbuf) (mbuf : Mbuf) : Finset (Fin maxMbufs) :=
  matrix.slotsWith fun slot => slot.mbuf = some mbuf

/-- How often a buffer is held or was freed. -/
def kept (matrix : Matrix Mbuf) (mbuf : Mbuf) : Nat :=
  (matrix.holders mbuf).card + matrix.freed.count mbuf

theorem count_toList (held : Option Mbuf) (mbuf : Mbuf) :
    held.toList.count mbuf = if decide (held = some mbuf) then 1 else 0 := by
  cases held with
  | none => rfl
  | some other => simp [List.count_singleton]

theorem count_heldMbufs (matrix : Matrix Mbuf) (mbuf : Mbuf) :
    matrix.heldMbufs.count mbuf = (matrix.holders mbuf).card := by
  rw [heldMbufs, List.count, List.countP_filterMap]
  change _ = ((List.finRange maxMbufs).filter _).length
  rw [← List.countP_eq_length_filter]
  apply List.countP_congr
  intro index _
  cases active : matrix.active index with
  | false => simp [active]
  | true => cases held : (matrix.slots index).mbuf <;> simp [active, held]

/-- Freeing moves every held buffer. -/
theorem kept_reset (matrix : Matrix Mbuf) (expectedNextSeq : BitVec 32) (mbuf : Mbuf) :
    (matrix.reset expectedNextSeq).kept mbuf = matrix.kept mbuf := by
  rw [kept, holders, slotsWith_reset, Finset.card_empty, kept, ← count_heldMbufs, reset,
    List.count_append]
  omega

theorem kept_slideWindow (matrix : Matrix Mbuf) (currentRcvNxt : BitVec 32) (mbuf : Mbuf) :
    (matrix.slideWindow currentRcvNxt).kept mbuf = matrix.kept mbuf := by
  obtain ⟨result, -⟩ | ⟨result, -⟩ | ⟨-, -, result⟩ := matrix.slideWindow_cases currentRcvNxt
  · rw [result]
  · rw [result, kept_reset]
  · rw [result]
    rfl

theorem kept_approach (matrix : Matrix Mbuf) (currentRcvNxt : BitVec 32)
    (segment : MbufSlot Mbuf) (mbuf : Mbuf) :
    (matrix.approach currentRcvNxt segment).kept mbuf = matrix.kept mbuf := by
  unfold approach
  split_ifs
  · exact matrix.kept_slideWindow currentRcvNxt mbuf
  · rfl

theorem kept_store (inactive : matrix.active index = false) (segment : MbufSlot Mbuf)
    (safeLen : Nat) (cut : Cut) (mbuf : Mbuf) :
    (matrix.store index segment safeLen cut).kept mbuf =
      matrix.kept mbuf + segment.mbuf.toList.count mbuf := by
  have freed : (matrix.store index segment safeLen cut).freed = matrix.freed := rfl
  have same : (trimmedSlot segment safeLen cut).mbuf = segment.mbuf := rfl
  rw [kept, kept, holders, card_slotsWith_store inactive, freed, same, count_toList, holders]
  omega

theorem kept_place (matrix : Matrix Mbuf) (offset : Nat) (segment : MbufSlot Mbuf) (mbuf : Mbuf) :
    (matrix.place offset segment).1.kept mbuf = matrix.kept mbuf +
      (if (matrix.place offset segment).2 then segment.mbuf.toList else []).count mbuf := by
  obtain result | result | ⟨index, head, tail, inactive, -, -, -, -, result⟩ :=
    matrix.place_cases offset segment
  · rw [result]
    rfl
  · rw [result]
    exact matrix.kept_reset _ mbuf
  · rw [result]
    exact kept_store inactive segment _ _ mbuf

/-- The buffers that a call takes over. -/
def accepts (matrix : Matrix Mbuf) : Operation Mbuf → List Mbuf
  | .insertMbuf currentRcvNxt segment =>
      if (matrix.insertMbuf currentRcvNxt segment).2 then segment.mbuf.toList else []
  | _ => []

/-- The buffers that a call returns. -/
def returns (matrix : Matrix Mbuf) : Operation Mbuf → List Mbuf
  | .extractContiguousMbuf currentRcvNxt =>
      ((matrix.extractContiguousMbuf currentRcvNxt).2.bind MbufSlot.mbuf).toList
  | _ => []

theorem kept_insertMbuf (matrix : Matrix Mbuf) (currentRcvNxt : BitVec 32)
    (segment : MbufSlot Mbuf) (mbuf : Mbuf) :
    (matrix.insertMbuf currentRcvNxt segment).1.kept mbuf = matrix.kept mbuf +
      (if (matrix.insertMbuf currentRcvNxt segment).2 then segment.mbuf.toList
        else []).count mbuf := by
  have approached := matrix.kept_approach currentRcvNxt segment mbuf
  obtain result | ⟨-, -, result | ⟨-, result⟩⟩ := matrix.insertMbuf_cases currentRcvNxt segment
  · rw [result]
    rfl
  · rw [result]
    exact approached
  · rw [result, kept_place, approached]

theorem kept_release (active : matrix.active index = true) (offset : Nat) (mbuf : Mbuf) :
    (matrix.release index offset).kept mbuf + (matrix.slots index).mbuf.toList.count mbuf =
      matrix.kept mbuf := by
  have freed : (matrix.release index offset).freed = matrix.freed := rfl
  rw [kept, kept, holders, holders, ← card_slotsWith_release active offset, freed, count_toList]
  omega

theorem kept_rebase (matrix : Matrix Mbuf) (currentRcvNxt : BitVec 32)
    (offset logicalLen : Nat) (mbuf : Mbuf) :
    (matrix.rebase currentRcvNxt offset logicalLen).kept mbuf = matrix.kept mbuf := by
  unfold rebase
  split_ifs
  · rfl
  · exact matrix.kept_slideWindow _ mbuf
  · rfl

/-- What one call takes over and returns is what it keeps more. -/
theorem kept_step (matrix : Matrix Mbuf) (operation : Operation Mbuf) (mbuf : Mbuf) :
    (matrix.step operation).kept mbuf + (matrix.returns operation).count mbuf =
      matrix.kept mbuf + (matrix.accepts operation).count mbuf := by
  cases operation with
  | reset expectedNextSeq => exact matrix.kept_reset expectedNextSeq mbuf
  | slideWindow currentRcvNxt => exact matrix.kept_slideWindow currentRcvNxt mbuf
  | insertMbuf currentRcvNxt segment => exact matrix.kept_insertMbuf currentRcvNxt segment mbuf
  | extractContiguousMbuf currentRcvNxt =>
      rw [step, returns]
      obtain result | ⟨index, -, -, active, -, result⟩ :=
        matrix.extractContiguousMbuf_cases currentRcvNxt
      · rw [result]
        rfl
      · rw [result, kept_rebase]
        exact kept_release active _ mbuf

end Matrix

variable [DecidableEq Mbuf]

/-- A matrix, with the buffers that it took over and the buffers that it returned. -/
structure Traced (Mbuf : Type) where
  matrix : Matrix Mbuf
  accepted : List Mbuf
  returned : List Mbuf

namespace Traced

def start : Traced Mbuf := ⟨fresh, [], []⟩

def step (state : Traced Mbuf) (operation : Matrix.Operation Mbuf) : Traced Mbuf where
  matrix := state.matrix.step operation
  accepted := state.accepted ++ state.matrix.accepts operation
  returned := state.returned ++ state.matrix.returns operation

/-- How many slots hold a buffer, how many extractions returned it, and how often it was freed. -/
def places (state : Traced Mbuf) (mbuf : Mbuf) : Nat × Nat × Nat :=
  ((state.matrix.holders mbuf).card, state.returned.count mbuf, state.matrix.freed.count mbuf)

/-- Every buffer is where its insertions put it. -/
def Conserves (state : Traced Mbuf) : Prop :=
  ∀ mbuf, state.accepted.count mbuf = state.matrix.kept mbuf + state.returned.count mbuf

theorem conserves_start : (start : Traced Mbuf).Conserves := by
  intro mbuf
  simp [start, Matrix.kept, Matrix.holders, Matrix.slotsWith, fresh]

theorem conserves_step (state : Traced Mbuf) (operation : Matrix.Operation Mbuf)
    (conserves : state.Conserves) : (state.step operation).Conserves := by
  intro mbuf
  have balance := state.matrix.kept_step operation mbuf
  have before := conserves mbuf
  simp only [step, List.count_append]
  omega

end Traced

/-- After any sequence of calls, a buffer that was accepted once is held by one slot, or was
returned once, or was freed once; one that was never accepted is nowhere; and one that was accepted
several times is in as many places. -/
theorem buffers_conserved (operations : List (Matrix.Operation Mbuf)) (mbuf : Mbuf) :
    ((execute Traced.step .start operations).accepted.count mbuf = 1 →
      (execute Traced.step .start operations).places mbuf = (1, 0, 0) ∨
        (execute Traced.step .start operations).places mbuf = (0, 1, 0) ∨
        (execute Traced.step .start operations).places mbuf = (0, 0, 1)) ∧
    ((execute Traced.step .start operations).accepted.count mbuf = 0 →
      (execute Traced.step .start operations).places mbuf = (0, 0, 0)) ∧
    (execute Traced.step .start operations).accepted.count mbuf =
      ((execute Traced.step .start operations).places mbuf).1 +
        ((execute Traced.step .start operations).places mbuf).2.1 +
        ((execute Traced.step .start operations).places mbuf).2.2 := by
  have conserves := execute_invariant Traced.conserves_step
    (Traced.conserves_start : (Traced.start : Traced Mbuf).Conserves) operations mbuf
  rw [Matrix.kept] at conserves
  simp only [Traced.places, Prod.mk.injEq]
  omega

end SlabFlux.Net.OooMatrix
