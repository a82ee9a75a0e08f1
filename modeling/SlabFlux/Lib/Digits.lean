import Mathlib.Data.BitVec

/-!
# Digits of a number

A number as an array: its digits in base `2 ^ width`, each of which can be replaced.  Shifts and
exclusive or are all it takes, so that an array of any size is one literal to the kernel.
-/

namespace SlabFlux.Lib

/-- The digit of a number at an index, in base `2 ^ width`. -/
def digit (width number index : Nat) : Nat := (number >>> (width * index)) % (1 <<< width)

/-- A number with another digit at an index. -/
def setDigit (width number index value : Nat) : Nat :=
  number ^^^ ((digit width number index ^^^ value) <<< (width * index))

theorem digit_lt (width number index : Nat) : digit width number index < 2 ^ width := by
  rw [digit, Nat.one_shiftLeft]
  exact Nat.mod_lt _ (Nat.two_pow_pos width)

theorem testBit_digit (width number index i : Nat) :
    (digit width number index).testBit i =
      (decide (i < width) && number.testBit (width * index + i)) := by
  rw [digit, Nat.one_shiftLeft, Nat.testBit_mod_two_pow, Nat.testBit_shiftRight]

theorem testBit_of_high {width value i : Nat} (fits : value < 2 ^ width) (high : width ≤ i) :
    value.testBit i = false :=
  Nat.testBit_lt_two_pow (Nat.lt_of_lt_of_le fits (Nat.pow_le_pow_right Nat.two_pos high))

theorem digit_setDigit {width value : Nat} (fits : value < 2 ^ width) (number index other : Nat) :
    digit width (setDigit width number index value) other =
      if other = index then value else digit width number other := by
  refine Nat.eq_of_testBit_eq fun i => ?_
  have small : digit width number index ^^^ value < 2 ^ width :=
    Nat.xor_lt_two_pow (digit_lt width number index) fits
  rw [testBit_digit, setDigit, Nat.testBit_xor, Nat.testBit_shiftLeft]
  by_cases inside : i < width
  · by_cases same : other = index
    · subst same
      rw [if_pos rfl, decide_eq_true inside, decide_eq_true (Nat.le_add_right _ _),
        Nat.add_sub_cancel_left, Nat.testBit_xor, testBit_digit, decide_eq_true inside]
      simp
    · -- the other digits are below the changed one, or above it
      rw [if_neg same, testBit_digit, decide_eq_true inside]
      have clear : (decide (width * other + i ≥ width * index) &&
          (digit width number index ^^^ value).testBit (width * other + i - width * index)) =
          false := by
        rcases Nat.lt_or_gt_of_ne same with below | above
        · have apart : width * other + width ≤ width * index := Nat.mul_le_mul_left width below
          rw [decide_eq_false (by omega), Bool.false_and]
        · have apart : width * index + width ≤ width * other := Nat.mul_le_mul_left width above
          rw [testBit_of_high small (by omega), Bool.and_false]
      rw [clear, Bool.xor_false]
  · rw [decide_eq_false inside, Bool.false_and]
    split_ifs
    · exact (testBit_of_high fits (Nat.le_of_not_lt inside)).symm
    · rw [testBit_digit, decide_eq_false inside, Bool.false_and]

end SlabFlux.Lib
