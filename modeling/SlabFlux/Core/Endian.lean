import SlabFlux.Lib.Bytes
import Mathlib.Tactic.IntervalCases

/-!
# Byte order

`byteswap_constexpr` and `endian` for 16-bit, 32-bit and 64-bit values on a little-endian host.
-/

namespace SlabFlux.Core

open Lib

variable (value : BitVec 64)

/-- `byteswap_constexpr` at eight bytes. -/
def byteswapConstexpr : BitVec 64 :=
  ((value &&& 0x00000000000000FF) <<< 56) ||| ((value &&& 0x000000000000FF00) <<< 40) |||
    ((value &&& 0x0000000000FF0000) <<< 24) |||
    ((value &&& 0x00000000FF000000) <<< 8) |||
    ((value &&& 0x000000FF00000000) >>> 8) |||
    ((value &&& 0x0000FF0000000000) >>> 24) |||
    ((value &&& 0x00FF000000000000) >>> 40) |||
    ((value &&& 0xFF00000000000000) >>> 56)

def networkToHost64 : BitVec 64 := byteswapConstexpr value

def hostToNetwork64 : BitVec 64 := networkToHost64 value

/-- `byteswap_constexpr` at two bytes. -/
def byteswapConstexpr16 (value : BitVec 16) : BitVec 16 := (value <<< 8) ||| (value >>> 8)

def networkToHost16 (value : BitVec 16) : BitVec 16 := byteswapConstexpr16 value

def hostToNetwork16 (value : BitVec 16) : BitVec 16 := networkToHost16 value

/-- `byteswap_constexpr` at four bytes. -/
def byteswapConstexpr32 (value : BitVec 32) : BitVec 32 :=
  ((value &&& 0x000000FF) <<< 24) ||| ((value &&& 0x0000FF00) <<< 8) |||
    ((value &&& 0x00FF0000) >>> 8) ||| ((value &&& 0xFF000000) >>> 24)

def networkToHost32 (value : BitVec 32) : BitVec 32 := byteswapConstexpr32 value

def hostToNetwork32 (value : BitVec 32) : BitVec 32 := networkToHost32 value

/-- Swapping the bytes twice restores the value. -/
@[simp] theorem networkToHost16_hostToNetwork16 (value : BitVec 16) :
    networkToHost16 (hostToNetwork16 value) = value := by
  unfold hostToNetwork16 networkToHost16 byteswapConstexpr16
  ext bit bound
  interval_cases bit <;> simp

theorem byteAt_byteswapConstexpr {index : Nat} (inside : index < 8) :
    byteAt (byteswapConstexpr value) index = byteAt value (7 - index) := by
  unfold byteswapConstexpr byteAt
  ext bit bound
  interval_cases index <;> interval_cases bit <;> simp

theorem byteAt_byteswapConstexpr32 (value : BitVec 32) {index : Nat} (inside : index < 4) :
    byteAt (byteswapConstexpr32 value) index = byteAt value (3 - index) := by
  unfold byteswapConstexpr32 byteAt
  ext bit bound
  interval_cases index <;> interval_cases bit <;> simp

/-- A word that holds the bytes of another in reverse order. -/
theorem eq_byteSwap {width count : Nat} {value swapped : BitVec width} (fits : 8 * count = width)
    (mirrored : ∀ index < count, byteAt swapped index = byteAt value (count - 1 - index)) :
    swapped = byteSwap count value := by
  subst fits
  have bytes : ∀ index < count, byteAt swapped (0 + index) =
      byteAt (byteSwap count value) (0 + index) := by
    intro index inside
    rw [Nat.zero_add, byteAt_byteSwap value (Nat.le_refl _) inside, mirrored index inside]
  simpa using forall_byteAt_iff.mp bytes

theorem networkToHost64_eq : networkToHost64 value = byteSwap 8 value :=
  eq_byteSwap rfl fun _ inside => byteAt_byteswapConstexpr value inside

theorem networkToHost32_eq (value : BitVec 32) : networkToHost32 value = byteSwap 4 value :=
  eq_byteSwap rfl fun _ inside => byteAt_byteswapConstexpr32 value inside

end SlabFlux.Core
