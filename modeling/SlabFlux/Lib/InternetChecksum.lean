import SlabFlux.Lib.Bytes

/-!
# The Internet checksum

One's complement sums of 16-bit words.  A receiver adds the words of a message in network
order with end-around carry and expects all ones.  A sender may add the words as a
little-endian machine loads them, in a wider accumulator, and fold the carries in later:
both totals stand for the same one's complement number, up to the order of the two bytes.
-/

namespace SlabFlux.Lib.InternetChecksum

/-- Addition with end-around carry. -/
def carryAdd (left right : Nat) : Nat :=
  if left + right < 65536 then left + right else left + right - 65535

/-- The words of a message in network order.  An odd byte is padded with zero. -/
def networkWords : Bytes → List Nat
  | [] => []
  | [byte] => [256 * byte.toNat]
  | high :: low :: rest => (256 * high.toNat + low.toNat) :: networkWords rest

variable (bytes : Bytes)

/-- The receiver's sum. -/
def onesSum : Nat := (networkWords bytes).foldl carryAdd 0

/-- The message and the checksum in it agree. -/
abbrev Verifies : Prop := onesSum bytes = 65535

/-- The total of the words of a message as a little-endian machine loads them. -/
def total : Bytes → Nat
  | [] => 0
  | [byte] => byte.toNat
  | low :: high :: rest => low.toNat + 256 * high.toNat + total rest

/-- Two totals that stand for the same one's complement number. -/
def SameSum (left right : Nat) : Prop :=
  left % 65535 = right % 65535 ∧ (left = 0 ↔ right = 0)

theorem SameSum.refl (sum : Nat) : SameSum sum sum := ⟨rfl, Iff.rfl⟩

theorem SameSum.trans {first second third : Nat} (left : SameSum first second)
    (right : SameSum second third) : SameSum first third :=
  ⟨left.1.trans right.1, left.2.trans right.2⟩

theorem SameSum.add_right {left right : Nat} (same : SameSum left right) (more : Nat) :
    SameSum (left + more) (right + more) := by
  unfold SameSum at *
  omega

/-- Folding the carries of a total. -/
theorem sameSum_fold (sum : Nat) : SameSum (sum % 65536 + sum / 65536) sum := by
  unfold SameSum
  omega

theorem sameSum_complement {folded sum : Nat} (bounded : folded ≤ 65535)
    (same : SameSum folded sum) : SameSum (sum + (65535 - folded)) 65535 := by
  unfold SameSum at *
  omega

/-! ## Little-endian totals -/

theorem total_append {left right : Bytes} (even : left.length % 2 = 0) :
    total (left ++ right) = total left + total right := by
  induction left using total.induct with
  | case1 => exact (Nat.zero_add _).symm
  | case2 byte => exact absurd even (by simp)
  | case3 low high rest ih =>
      have shorter : rest.length % 2 = 0 := by
        rw [List.length_cons, List.length_cons] at even
        omega
      change _ + total (rest ++ right) = _
      rw [ih shorter, total, Nat.add_assoc (low.toNat + 256 * high.toNat)]

theorem total_le : total bytes ≤ 65535 * ((bytes.length + 1) / 2) := by
  induction bytes using total.induct with
  | case1 => exact Nat.zero_le _
  | case2 byte =>
      have small := byte.isLt
      rw [total, List.length_singleton]
      omega
  | case3 low high rest ih =>
      rw [total, List.length_cons, List.length_cons]
      omega

/-- A message of whole words that a machine word holds. -/
theorem total_toBytes {width : Nat} (word : BitVec width) (count : Nat) :
    total (toBytes (2 * count) word) =
      ((List.range count).map fun index => (word.extractLsb' (16 * index) 16).toNat).sum := by
  induction count with
  | zero => rfl
  | succ count ih =>
      have last : toBytes (2 * (count + 1)) word =
          toBytes (2 * count) word ++ [byteAt word (2 * count), byteAt word (2 * count + 1)] := by
        rw [toBytes, toBytes, Nat.mul_succ, List.range_succ, List.range_succ, List.map_append,
          List.map_append, List.append_assoc]
        rfl
      have loaded : (byteAt word (2 * count)).toNat + 256 * (byteAt word (2 * count + 1)).toNat =
          (word.extractLsb' (16 * count) 16).toNat := by
        unfold byteAt
        rw [BitVec.extractLsb'_toNat, BitVec.extractLsb'_toNat, BitVec.extractLsb'_toNat,
          Nat.shiftRight_eq_div_pow, Nat.shiftRight_eq_div_pow, Nat.shiftRight_eq_div_pow]
        have left : 8 * (2 * count) = 16 * count := by omega
        have right : 8 * (2 * count + 1) = 16 * count + 8 := by omega
        rw [left, right, Nat.pow_add, ← Nat.div_div_eq_div_mul]
        omega
      rw [last, total_append (by rw [length_toBytes]; omega), ih, List.range_succ,
        List.map_append, List.sum_append]
      congr 1

/-! ## Both sums -/

theorem carryAdd_spec {left right : Nat} (leftBound : left ≤ 65535) (rightBound : right ≤ 65535) :
    carryAdd left right ≤ 65535 ∧ SameSum (carryAdd left right) (left + right) := by
  unfold carryAdd SameSum
  split <;> omega

/-- The receiver's sum from any start, against the machine's total. -/
theorem foldl_carryAdd_spec {start : Nat} (bounded : start ≤ 65535) :
    (networkWords bytes).foldl carryAdd start ≤ 65535 ∧
      SameSum (256 * (networkWords bytes).foldl carryAdd start) (256 * start + total bytes) := by
  induction bytes using total.induct generalizing start with
  | case1 => exact ⟨bounded, .refl _⟩
  | case2 byte =>
      have small := byte.isLt
      obtain ⟨within, same⟩ := carryAdd_spec bounded (show 256 * byte.toNat ≤ 65535 by omega)
      refine ⟨within, ?_⟩
      change SameSum (256 * carryAdd start (256 * byte.toNat)) (256 * start + byte.toNat)
      unfold SameSum at *
      omega
  | case3 low high rest ih =>
      obtain ⟨within, same⟩ :=
        carryAdd_spec bounded (show 256 * low.toNat + high.toNat ≤ 65535 by omega)
      obtain ⟨within', same'⟩ := ih within
      refine ⟨within', same'.trans ?_⟩
      rw [total]
      unfold SameSum at *
      omega

/-- A receiver accepts exactly the messages whose total is all ones. -/
theorem verifies_iff : Verifies bytes ↔ SameSum (total bytes) 65535 := by
  obtain ⟨bounded, same⟩ := foldl_carryAdd_spec bytes (Nat.zero_le 65535)
  unfold Verifies onesSum
  unfold SameSum at *
  omega

/-! ## The checksum of a machine's words -/

/-- A number with the carries above its 16 bits added in. -/
def foldedWord (number : Nat) : Nat := carryAdd (number % 65536) (number / 65536)

/-- The words of a message as a little-endian machine loads them.  An odd byte is padded with
zero. -/
def littleWords : Bytes → List Nat
  | [] => []
  | [byte] => [byte.toNat]
  | low :: high :: rest => (low.toNat + 256 * high.toNat) :: littleWords rest

/-- The complement of the one's complement sum of a folded start and the words of a message. -/
def checksum (start : Nat) (bytes : Bytes) : Nat :=
  65535 - (littleWords bytes).foldl carryAdd (foldedWord start)

/-- A one's complement number is determined by any total that stands for it. -/
theorem SameSum.eq_of_le {left right : Nat} (same : SameSum left right) (leftBound : left ≤ 65535)
    (rightBound : right ≤ 65535) : left = right := by
  unfold SameSum at same
  omega

theorem SameSum.symm {left right : Nat} (same : SameSum left right) : SameSum right left :=
  ⟨same.1.symm, same.2.symm⟩

theorem foldedWord_spec {number : Nat} (bounded : number < 2 ^ 32) :
    foldedWord number ≤ 65535 ∧ SameSum (foldedWord number) number := by
  obtain ⟨within, same⟩ := carryAdd_spec (show number % 65536 ≤ 65535 by omega)
    (show number / 65536 ≤ 65535 by omega)
  exact ⟨within, same.trans (sameSum_fold number)⟩

/-- The sum with end-around carry against the total. -/
theorem foldl_littleWords_spec {start : Nat} (bounded : start ≤ 65535) :
    (littleWords bytes).foldl carryAdd start ≤ 65535 ∧
      SameSum ((littleWords bytes).foldl carryAdd start) (start + total bytes) := by
  induction bytes using total.induct generalizing start with
  | case1 => exact ⟨bounded, .refl _⟩
  | case2 byte =>
      have small := byte.isLt
      exact carryAdd_spec bounded (show byte.toNat ≤ 65535 by omega)
  | case3 low high rest ih =>
      obtain ⟨within, same⟩ :=
        carryAdd_spec bounded (show low.toNat + 256 * high.toNat ≤ 65535 by omega)
      obtain ⟨within', same'⟩ := ih within
      refine ⟨within', same'.trans ?_⟩
      rw [total, ← Nat.add_assoc]
      exact same.add_right _

/-- A message that starts in the high byte of a word: its total is the total with the bytes of
all words exchanged. -/
theorem sameSum_total_cons (byte : BitVec 8) (rest : Bytes) :
    SameSum (256 * total (byte :: rest)) (256 * byte.toNat + total rest) := by
  induction rest generalizing byte with
  | nil => exact .refl _
  | cons second rest ih =>
      have shifted := ih second
      rw [total]
      unfold SameSum at *
      omega

/-- A word with its two bytes exchanged. -/
def swapped (word : Nat) : Nat := word % 256 * 256 + word / 256

theorem sameSum_swapped {word : Nat} (bounded : word ≤ 65535) :
    swapped word ≤ 65535 ∧ SameSum (swapped word) (256 * word) := by
  unfold swapped SameSum
  omega

/-- Only a word of two equal bytes stands for the same number after the exchange. -/
theorem sameSum_swapped_iff {word more : Nat} (bounded : word ≤ 65535) :
    SameSum (swapped word + more) (word + more) ↔ word % 256 = word / 256 := by
  unfold swapped SameSum
  omega

end SlabFlux.Lib.InternetChecksum
