import Mathlib.Data.BitVec
import Mathlib.Data.Nat.Log

/-!
# Counters and sequence numbers in machine words

A ring buffer counts positions with a machine word that is never reset and
wraps silently.  A position is a natural number; the word stores its residue.
Differences of two positions survive the wrap as long as the true distance fits
the word, and masking a position with `2 ^ k - 1` is its remainder.

A sequence number is a machine word and an interval of them is a start and a length.
Membership is measured by the unsigned distance from the start.  Relative to a base
that the interval does not run past, it is membership in an interval of naturals.
-/

namespace SlabFlux.Lib

/-- `std::bit_ceil`: the least power of two that is not below `value`. -/
def bitCeil (value : Nat) : Nat := 2 ^ Nat.clog 2 value

theorem le_bitCeil (value : Nat) : value ≤ bitCeil value :=
  Nat.le_pow_clog (by decide) value

namespace Word

variable {width : Nat}

/-- The unsigned difference of two stored positions is their true distance. -/
theorem toNat_sub_ofNat {low high : Nat} (ordered : low ≤ high) (near : high - low < 2 ^ width) :
    (BitVec.ofNat width high - BitVec.ofNat width low).toNat = high - low := by
  have split : high = low + (high - low) := by omega
  rw [split, BitVec.ofNat_add]
  simp [Nat.mod_eq_of_lt near]

/-- The stored distance is never too large. -/
theorem toNat_sub_ofNat_le {low high : Nat} (ordered : low ≤ high) :
    (BitVec.ofNat width high - BitVec.ofNat width low).toNat ≤ high - low := by
  have split : high = low + (high - low) := by omega
  rw [split, BitVec.ofNat_add]
  simpa using Nat.mod_le (high - low) (2 ^ width)

/-- Two stored positions less than one full turn apart are equal exactly when
the positions are. -/
theorem ofNat_inj_of_near {low high : Nat} (ordered : low ≤ high) (near : high - low < 2 ^ width) :
    BitVec.ofNat width low = BitVec.ofNat width high ↔ low = high := by
  constructor
  · intro equal
    have distance := toNat_sub_ofNat ordered near
    rw [equal] at distance
    simp at distance
    omega
  · intro equal
    rw [equal]

/-- Masking a stored position with `2 ^ exponent - 1` is taking the remainder
of the position, because the ring size divides the word's range. -/
theorem toNat_ofNat_and_mask {exponent : Nat} (fits : exponent ≤ width) (position : Nat) :
    (BitVec.ofNat width position &&& BitVec.ofNat width (2 ^ exponent - 1)).toNat =
      position % 2 ^ exponent := by
  have maskLt : 2 ^ exponent - 1 < 2 ^ width := by
    have := Nat.pow_le_pow_right (show 0 < 2 by decide) fits
    have := Nat.two_pow_pos exponent
    omega
  have divides : 2 ^ exponent ∣ 2 ^ width := Nat.pow_dvd_pow 2 fits
  rw [BitVec.toNat_and, BitVec.toNat_ofNat, BitVec.toNat_ofNat,
    Nat.mod_eq_of_lt maskLt, Nat.and_two_pow_sub_one_eq_mod,
    Nat.mod_mod_of_dvd _ divides]

/-- The same with the mask as the code computes it from the size. -/
theorem toNat_ofNat_and_sub_one {exponent : Nat} (fits : exponent ≤ width) (position : Nat) :
    (BitVec.ofNat width position &&&
        (BitVec.ofNat width (2 ^ exponent) - BitVec.ofNat width 1)).toNat =
      position % 2 ^ exponent := by
  have split : 2 ^ exponent = 2 ^ exponent - 1 + 1 := by
    have positive := Nat.two_pow_pos exponent
    omega
  rw [← toNat_ofNat_and_mask fits, split, BitVec.ofNat_add, BitVec.add_sub_cancel,
    Nat.add_sub_cancel]

end Word

end SlabFlux.Lib

/-! ## Sequence numbers on a circle -/

namespace SlabFlux.Lib.Sequence

variable {width : Nat}

/-- A number lies in the interval of `length` numbers from `start`. -/
abbrev Within (start : BitVec width) (length : Nat) (number : BitVec width) : Prop :=
  (number - start).toNat < length

/-- The distance of the number at a position from its base. -/
theorem toNat_add_ofNat_sub (base : BitVec width) {position : Nat} (bound : position < 2 ^ width) :
    (base + BitVec.ofNat width position - base).toNat = position := by
  rw [BitVec.add_comm, BitVec.add_sub_cancel, BitVec.toNat_ofNat, Nat.mod_eq_of_lt bound]

/-- A number is its base advanced by its distance. -/
theorem add_ofNat_toNat_sub (base number : BitVec width) :
    base + BitVec.ofNat width (number - base).toNat = number := by
  rw [BitVec.ofNat_toNat, BitVec.setWidth_eq, BitVec.add_comm, BitVec.sub_add_cancel]

/-- Distances from one number by distances from another. -/
theorem toNat_sub_eq (base start number : BitVec width) :
    (number - start).toNat = if (start - base).toNat ≤ (number - base).toNat then
        (number - base).toNat - (start - base).toNat
      else 2 ^ width + (number - base).toNat - (start - base).toNat := by
  have regroup : number - start = (number - base) - (start - base) :=
    (sub_sub_sub_cancel_right number start base).symm
  rw [regroup, BitVec.toNat_sub]
  split_ifs with ordered
  · rw [show 2 ^ width - (start - base).toNat + (number - base).toNat =
      (number - base).toNat - (start - base).toNat + 2 ^ width by omega,
      Nat.add_mod_right, Nat.mod_eq_of_lt (by omega)]
  · rw [Nat.mod_eq_of_lt (by omega)]
    omega

/-- Membership relative to a base that the interval does not run past. -/
theorem within_iff {base start : BitVec width} {length : Nat}
    (contained : (start - base).toNat + length ≤ 2 ^ width) {position : Nat}
    (bound : position < 2 ^ width) :
    Within start length (base + BitVec.ofNat width position) ↔
      (start - base).toNat ≤ position ∧ position < (start - base).toNat + length := by
  rw [Within, toNat_sub_eq base start, toNat_add_ofNat_sub base bound]
  split_ifs <;> omega

/-- An interval that is not empty holds its start. -/
theorem within_start {start : BitVec width} {length : Nat} (positive : 0 < length) :
    Within start length start := by
  rw [Within, BitVec.sub_self]
  exact positive

end SlabFlux.Lib.Sequence
