import SlabFlux.Core.ShardedConduit.Model
import SlabFlux.Lib.Ring

/-!
# What a lane holds

A lane of at least two slots that has been used sequentially holds a list of items from a
position on.  Pushing into a lane that is not full appends, popping from a lane that is not
empty takes the first item, and the two other attempts are refused.
-/

namespace SlabFlux.Core.ShardedConduit

open Lib Parameters
open Core.MpmcConduit (Ticket Lane)

universe u

variable {α : Type u} {p : Parameters}

/-! ## Sizes -/

namespace Parameters

theorem numLanes_pos (p : Parameters) : 0 < p.numLanes := Nat.two_pow_pos _

theorem bitCeil_eq_pow {value : Nat} (bound : value ≤ 2 ^ 63) :
    ∃ exponent ≤ 63, bitCeil value = 2 ^ exponent :=
  ⟨Nat.clog 2 value, Nat.clog_le_of_le_pow bound, rfl⟩

theorem initialCeil_eq_pow (p : Parameters) : ∃ exponent ≤ 63, p.initialCeil = 2 ^ exponent := by
  rw [initialCeil]
  split
  · exact ⟨1, by decide, rfl⟩
  · exact bitCeil_eq_pow p.representable

theorem totalSize_eq_pow (p : Parameters) : ∃ exponent ≤ 63, p.totalSize = 2 ^ exponent := by
  obtain ⟨exponent, fits, same⟩ := p.initialCeil_eq_pow
  rw [totalSize]
  split
  · split
    · exact ⟨p.lanesExponent, p.lanesFit, rfl⟩
    · exact ⟨exponent, fits, same⟩
  · exact ⟨exponent, fits, same⟩

/-- A lane with slots has a power of two of them, and the lanes share the total evenly. -/
theorem laneCapacity_eq_pow (nonempty : p.laneCapacity ≠ 0) :
    ∃ exponent ≤ 63, p.laneCapacity = 2 ^ exponent ∧ p.totalSize = p.numLanes * 2 ^ exponent := by
  obtain ⟨exponent, fits, same⟩ := p.totalSize_eq_pow
  have above : p.lanesExponent ≤ exponent := by
    by_contra below
    apply nonempty
    rw [laneCapacity, same]
    exact Nat.div_eq_of_lt (Nat.pow_lt_pow_right (by decide) (Nat.lt_of_not_le below))
  refine ⟨exponent - p.lanesExponent, by omega, ?_, ?_⟩
  · rw [laneCapacity, same, numLanes, Nat.pow_div above (by decide)]
  · rw [same, numLanes, ← Nat.pow_add]
    congr 1
    omega

theorem totalSize_eq_mul (nonempty : p.laneCapacity ≠ 0) :
    p.totalSize = p.numLanes * p.laneCapacity := by
  obtain ⟨exponent, -, capacity, total⟩ := laneCapacity_eq_pow nonempty
  rw [total, capacity]

theorem slotAt_ofNat (nonempty : p.laneCapacity ≠ 0) (position : Nat) :
    p.slotAt (BitVec.ofNat 64 position) = position % p.laneCapacity := by
  obtain ⟨exponent, fits, capacity, -⟩ := laneCapacity_eq_pow nonempty
  rw [slotAt, laneMask, capacity]
  exact Word.toNat_ofNat_and_sub_one (by omega) position

theorem laneAt_eq_mod (p : Parameters) (core : Ticket) (offset : Nat) :
    p.laneAt core offset = (core.toNat + offset) % p.numLanes := by
  have fits := p.lanesFit
  rw [laneAt, lanesMask, numLanes,
    show core + BitVec.ofNat 64 offset = BitVec.ofNat 64 (core.toNat + offset) by
      rw [BitVec.ofNat_add, BitVec.ofNat_toNat, BitVec.setWidth_eq]]
  exact Word.toNat_ofNat_and_sub_one (by omega) _

end Parameters

/-! ## Lanes -/

/-- A lane holds items from a position on: gates and tickets tell which slots are taken. -/
structure LaneHolds (p : Parameters) (lane : Lane α) (first : Nat) (items : List α) : Prop where
  egress : lane.physicalEgressGate = BitVec.ofNat 64 first
  ingress : lane.physicalIngressGate = BitVec.ofNat 64 (first + items.length)
  bounded : items.length ≤ p.laneCapacity
  taken : ∀ offset < items.length,
    lane.sequences ((first + offset) % p.laneCapacity) = BitVec.ofNat 64 (first + offset + 1)
  free : ∀ offset < p.laneCapacity, items.length ≤ offset →
    lane.sequences ((first + offset) % p.laneCapacity) = BitVec.ofNat 64 (first + offset)
  stored : Ring.Holds p.laneCapacity lane.data first items

/-- A ticket behind the wanted one is refused. -/
theorem slt_zero_of_behind {low high : Nat} (ordered : low < high) (near : high - low ≤ 2 ^ 63) :
    (BitVec.ofNat 64 low - BitVec.ofNat 64 high).slt 0 = true := by
  have distance : (BitVec.ofNat 64 high - BitVec.ofNat 64 low).toNat = high - low :=
    Word.toNat_sub_ofNat (by omega) (by omega)
  have opposite : BitVec.ofNat 64 low - BitVec.ofNat 64 high =
      -(BitVec.ofNat 64 high - BitVec.ofNat 64 low) := by
    rw [BitVec.neg_sub, BitVec.add_comm, ← BitVec.sub_eq_add_neg]
  rw [opposite]
  apply BitVec.slt_zero_iff_msb_cond.mpr
  rw [BitVec.msb_eq_decide, BitVec.toNat_neg]
  simp only [decide_eq_true_eq]
  omega

variable {lane : Lane α} {first : Nat} {items : List α}

theorem LaneHolds.pushAttempt_of_lt (holds : LaneHolds p lane first items)
    (room : items.length < p.laneCapacity) : pushAttempt p lane = .claimed := by
  have ticket := holds.free items.length room (Nat.le_refl _)
  rw [pushAttempt, attempt, holds.ingress, slotAt_ofNat (by omega), ticket]
  exact if_pos rfl

theorem LaneHolds.pushAttempt_of_full (holds : LaneHolds p lane first items)
    (wide : 2 ≤ p.laneCapacity) (full : items.length = p.laneCapacity) :
    pushAttempt p lane = .refused := by
  obtain ⟨exponent, fits, capacity, -⟩ := laneCapacity_eq_pow (p := p) (by omega)
  have largest : p.laneCapacity ≤ 2 ^ 63 := capacity ▸ Nat.pow_le_pow_right (by decide) fits
  have ticket := holds.taken 0 (by omega)
  have wraps : (first + p.laneCapacity) % p.laneCapacity = (first + 0) % p.laneCapacity := by
    rw [Nat.add_mod_right, Nat.add_zero]
  have different : BitVec.ofNat 64 (first + 0 + 1) ≠ BitVec.ofNat 64 (first + p.laneCapacity) := by
    intro equal
    have := (Word.ofNat_inj_of_near (by omega) (by omega)).mp equal
    omega
  rw [pushAttempt, attempt, holds.ingress, slotAt_ofNat (by omega), full, wraps, ticket]
  rw [if_neg different, if_pos (slt_zero_of_behind (by omega) (by omega))]

theorem LaneHolds.popAttempt_cons {item : α} (holds : LaneHolds p lane first (item :: items)) :
    popAttempt p lane = .claimed := by
  have room := holds.bounded
  rw [List.length_cons] at room
  have ticket := holds.taken 0 (by simp)
  rw [Nat.add_zero] at ticket
  rw [popAttempt, attempt, holds.egress, slotAt_ofNat (by omega), ticket, BitVec.ofNat_add]
  exact if_pos rfl

theorem LaneHolds.popAttempt_nil (holds : LaneHolds p lane first [])
    (nonempty : p.laneCapacity ≠ 0) : popAttempt p lane = .refused := by
  have ticket := holds.free 0 (by omega) (Nat.zero_le _)
  rw [Nat.add_zero] at ticket
  have different : BitVec.ofNat 64 first ≠ BitVec.ofNat 64 (first + 1) := by
    intro equal
    have := (Word.ofNat_inj_of_near (by omega) (by omega)).mp equal
    omega
  have next : BitVec.ofNat 64 first + 1 = BitVec.ofNat 64 (first + 1) := by
    rw [BitVec.ofNat_add]
    rfl
  rw [popAttempt, attempt, holds.egress, slotAt_ofNat nonempty, ticket, next]
  rw [if_neg different, if_pos (slt_zero_of_behind (by omega) (by omega))]

theorem LaneHolds.push (holds : LaneHolds p lane first items)
    (room : items.length < p.laneCapacity) (item : α) :
    LaneHolds p (pushInto p lane item) first (items ++ [item]) := by
  have slot : p.slotAt lane.physicalIngressGate = (first + items.length) % p.laneCapacity := by
    rw [holds.ingress, slotAt_ofNat (by omega)]
  have next : lane.physicalIngressGate + 1 = BitVec.ofNat 64 (first + items.length + 1) := by
    rw [holds.ingress, BitVec.ofNat_add (first + items.length)]
    rfl
  constructor
  · exact holds.egress
  · rw [List.length_append]
    exact next
  · rw [List.length_append, List.length_singleton]
    omega
  · intro offset inside
    rw [List.length_append, List.length_singleton] at inside
    rw [pushInto, slot]
    dsimp only
    by_cases last : offset = items.length
    · rw [last, Function.update_self, next]
    · rw [Function.update_of_ne (Ring.slot_ne (by omega) (by omega))]
      exact holds.taken offset (by omega)
  · intro offset inside beyond
    rw [List.length_append, List.length_singleton] at beyond
    rw [pushInto, slot]
    dsimp only
    rw [Function.update_of_ne (Ring.slot_ne (by omega) (by omega)).symm]
    exact holds.free offset inside (by omega)
  · rw [pushInto, slot]
    exact holds.stored.snoc room item

theorem LaneHolds.frontItem_cons {item : α} (holds : LaneHolds p lane first (item :: items)) :
    frontItem p lane = item := by
  have room := holds.bounded
  rw [List.length_cons] at room
  rw [frontItem, holds.egress, slotAt_ofNat (by omega)]
  exact holds.stored.head

theorem LaneHolds.pop {item : α} (holds : LaneHolds p lane first (item :: items)) :
    LaneHolds p (popFrom p lane) (first + 1) items := by
  have room := holds.bounded
  have ingress := holds.ingress
  rw [List.length_cons] at room ingress
  have slot : p.slotAt lane.physicalEgressGate = first % p.laneCapacity := by
    rw [holds.egress, slotAt_ofNat (by omega)]
  have released : lane.physicalEgressGate + p.laneMask + 1 =
      BitVec.ofNat 64 (first + p.laneCapacity) := by
    rw [holds.egress, laneMask, BitVec.add_assoc, BitVec.sub_add_cancel, BitVec.ofNat_add]
  constructor
  · rw [BitVec.ofNat_add, ← holds.egress]
    rfl
  · rw [popFrom]
    rw [ingress, Nat.add_assoc, Nat.add_comm 1]
  · omega
  · intro offset inside
    rw [popFrom, slot, Nat.add_assoc first, Nat.add_comm 1]
    dsimp only
    rw [Function.update_of_ne (Ring.slot_ne (by omega) (by omega)).symm]
    exact holds.taken (offset + 1) (by simpa using inside)
  · intro offset inside beyond
    rw [popFrom, slot, Nat.add_assoc first, Nat.add_comm 1]
    dsimp only
    by_cases last : offset + 1 = p.laneCapacity
    · rw [last, Nat.add_mod_right, Function.update_self, released]
    · rw [Function.update_of_ne (Ring.slot_ne (by omega) (by omega)).symm]
      exact holds.free (offset + 1) (by omega) (by simpa using beyond)
  · exact holds.stored.tail

theorem laneHolds_fresh (p : Parameters) (data : Nat → α) :
    LaneHolds p ⟨fun slot => BitVec.ofNat 64 slot, data, 0, 0⟩ 0 [] where
  egress := rfl
  ingress := rfl
  bounded := Nat.zero_le _
  taken := fun offset inside => absurd inside (Nat.not_lt_zero offset)
  free := by
    intro offset inside _
    rw [Nat.zero_add, Nat.mod_eq_of_lt inside]
  stored := Ring.Holds.nil _ _ _

end SlabFlux.Core.ShardedConduit
