import Mathlib.Tactic.Ring
import SlabFlux.Lib.Word
import SlabFlux.Transport.Hpack.Strings

/-!
# HPACK integers

`encode_hpack_int` of the HTTP/2 producer, `decode_integer`, and what section 5.1 of RFC 7541
reads, with numbers of any size.
-/

namespace SlabFlux.Transport.Hpack

open Lib

/-- The loop of `encode_hpack_int` and the byte behind it. -/
def encodeContinuation (value : Nat) : Bytes :=
  if value < 128 then [BitVec.ofNat 8 value]
  else (BitVec.ofNat 8 value &&& 0x7F ||| 0x80) :: encodeContinuation (value / 128)

/-- The bytes `encode_hpack_int` appends. -/
def encodeHpackInt (value prefixBits : Nat) (prefixMask : BitVec 8) : Bytes :=
  let mask := BitVec.ofNat 8 (2 ^ prefixBits - 1)
  if value < mask.toNat then [prefixMask ||| BitVec.ofNat 8 value]
  else (prefixMask ||| mask) :: encodeContinuation (value - mask.toNat)

/-- The RFC's number behind a full prefix, and the bytes that follow it. -/
def rfcContinuation : Bytes → Option (Nat × Bytes)
  | [] => none
  | byte :: rest =>
      if byte.toNat < 128 then some (byte.toNat, rest)
      else (rfcContinuation rest).map fun read => (byte.toNat % 128 + 128 * read.1, read.2)

/-- The RFC's number, and the bytes that follow it. -/
def rfcInteger (prefixBits : Nat) : Bytes → Option (Nat × Bytes)
  | [] => none
  | first :: rest =>
      let value := first.toNat % 2 ^ prefixBits
      if value < 2 ^ prefixBits - 1 then some (value, rest)
      else (rfcContinuation rest).map fun read => (value + read.1, read.2)

theorem and_128_eq_zero_iff : ∀ byte : BitVec 8, byte &&& 0x80 = 0 ↔ byte.toNat < 128 := by
  decide

theorem toNat_or_128 :
    ∀ byte : BitVec 8, (byte &&& 0x7F ||| 0x80).toNat = byte.toNat % 128 + 128 := by
  decide

/-- One turn of the loop, which the ninth byte ends at the latest. -/
theorem decodeIntegerLoop_cons {k : Nat} (few : k ≤ 8) (byte : BitVec 8)
    (buffer : Bytes) (value : BitVec 64) :
    decodeIntegerLoop (byte :: buffer) (7 * k) value =
      let value := value + BitVec.ofNat 64 (byte.toNat % 128 * 2 ^ (7 * k))
      if byte.toNat < 128 then some (value, buffer)
      else decodeIntegerLoop buffer (7 * (k + 1)) value := by
  have low : (byte &&& 0x7F).toNat = byte.toNat % 128 :=
    Nat.and_two_pow_sub_one_eq_mod byte.toNat 7
  have group : (byte &&& 0x7F).setWidth 64 <<< (7 * k) =
      BitVec.ofNat 64 (byte.toNat % 128 * 2 ^ (7 * k)) := by
    apply BitVec.eq_of_toNat_eq
    rw [BitVec.toNat_shiftLeft, BitVec.toNat_setWidth, low, Nat.shiftLeft_eq, Nat.mod_mul_mod,
      BitVec.toNat_ofNat]
  rw [decodeIntegerLoop, if_neg (by omega), group]
  simp only [and_128_eq_zero_iff, Nat.mul_succ]

theorem scaled_groups (group number k : Nat) :
    group * 2 ^ (7 * k) + number * 2 ^ (7 * (k + 1)) = (group + 128 * number) * 2 ^ (7 * k) := by
  ring

/-- The loop adds the number that was encoded. -/
theorem decodeIntegerLoop_encodeContinuation {k value : Nat} (start : BitVec 64)
    (rest : Bytes) (few : k ≤ 8) (bound : value * 2 ^ (7 * k) < 2 ^ 63) :
    decodeIntegerLoop (encodeContinuation value ++ rest) (7 * k) start =
      some (start + BitVec.ofNat 64 (value * 2 ^ (7 * k)), rest) := by
  induction value using Nat.strongRecOn generalizing k start with
  | ind value ih =>
      have sum := scaled_groups (value % 128) (value / 128) k
      rw [Nat.mod_add_div] at sum
      rw [encodeContinuation]
      split_ifs with last
      · have byte : value % 2 ^ 8 = value := by omega
        rw [List.singleton_append, decodeIntegerLoop_cons few, BitVec.toNat_ofNat, byte,
          Nat.mod_eq_of_lt last]
        exact if_pos last
      · have byte : value % 2 ^ 8 % 128 = value % 128 := by omega
        have more : k ≠ 8 := by
          rintro rfl
          omega
        rw [List.cons_append, decodeIntegerLoop_cons few, toNat_or_128, BitVec.toNat_ofNat, byte,
          Nat.add_mod_right, Nat.mod_mod]
        refine (if_neg (by omega)).trans ?_
        rw [ih (value / 128) (by omega) _ (by omega) (by omega), ← sum, BitVec.ofNat_add,
          BitVec.add_assoc]

/-- The loop reads the RFC's number in at most nine bytes, without overflow. -/
theorem decodeIntegerLoop_sound {buffer rest : Bytes} {k : Nat}
    {value result : BitVec 64} (small : value.toNat ≤ 254 + 2 ^ (7 * k))
    (accepted : decodeIntegerLoop buffer (7 * k) value = some (result, rest)) :
    ∃ number, rfcContinuation buffer = some (number, rest) ∧
      result.toNat = value.toNat + number * 2 ^ (7 * k) ∧
      ∃ consumed, buffer = consumed ++ rest ∧ consumed.length + k ≤ 9 := by
  induction buffer generalizing k value with
  | nil => exact nomatch accepted
  | cons byte buffer ih =>
      by_cases few : k ≤ 8
      · have power : 2 ^ (7 * k) ≤ 2 ^ 56 := Nat.pow_le_pow_right (by decide) (by omega)
        have group : byte.toNat % 128 * 2 ^ (7 * k) ≤ 127 * 2 ^ (7 * k) :=
          Nat.mul_le_mul_right _ (by omega)
        have sum : (value + BitVec.ofNat 64 (byte.toNat % 128 * 2 ^ (7 * k))).toNat =
            value.toNat + byte.toNat % 128 * 2 ^ (7 * k) := by
          rw [BitVec.toNat_add, BitVec.toNat_ofNat]
          omega
        rw [decodeIntegerLoop_cons few] at accepted
        rw [rfcContinuation]
        dsimp only at accepted
        split_ifs at accepted ⊢ with last
        · obtain ⟨rfl, rfl⟩ := Prod.mk.inj (Option.some.inj accepted)
          rw [Nat.mod_eq_of_lt last] at sum ⊢
          exact ⟨byte.toNat, rfl, sum, [byte], rfl, by rw [List.length_singleton]; omega⟩
        · obtain ⟨number, read, total, consumed, rfl, short⟩ := ih (by
            rw [sum, Nat.mul_succ, Nat.pow_add]
            omega) accepted
          refine ⟨byte.toNat % 128 + 128 * number, by rw [read]; rfl, ?_, byte :: consumed, rfl, ?_⟩
          · rw [total, sum, Nat.add_assoc, scaled_groups]
          · rw [List.length_cons]
            omega
      · rw [decodeIntegerLoop, if_pos (by omega)] at accepted
        exact nomatch accepted

section

variable {prefixBits : Nat} (high : prefixBits ≤ 8)
include high

theorem toNat_mask : (BitVec.ofNat 8 (2 ^ prefixBits - 1)).toNat = 2 ^ prefixBits - 1 := by
  have power : 2 ^ prefixBits ≤ 2 ^ 8 := Nat.pow_le_pow_right (by decide) high
  have positive := Nat.two_pow_pos prefixBits
  rw [BitVec.toNat_ofNat]
  omega

theorem toNat_and_mask (byte : BitVec 8) :
    (byte &&& BitVec.ofNat 8 (2 ^ prefixBits - 1)).toNat = byte.toNat % 2 ^ prefixBits := by
  rw [← Word.toNat_ofNat_and_mask high, BitVec.ofNat_toNat, BitVec.setWidth_eq]

theorem decodeInteger_cons (low : 1 ≤ prefixBits) (first : BitVec 8) (buffer : Bytes) :
    decodeInteger (first :: buffer) prefixBits = let value := first.toNat % 2 ^ prefixBits
      if value < 2 ^ prefixBits - 1 then some (BitVec.ofNat 64 value, buffer)
      else decodeIntegerLoop buffer (7 * 0) (BitVec.ofNat 64 value) := by
  rw [decodeInteger, if_neg (by omega)]
  simp only [BitVec.lt_def, toNat_mask high, ← toNat_and_mask high, BitVec.ofNat_toNat,
    Nat.mul_zero]

/-- Flags above the prefix do not change the number in it. -/
theorem toNat_or_mod {prefixMask : BitVec 8} {number : Nat}
    (apart : prefixMask &&& BitVec.ofNat 8 (2 ^ prefixBits - 1) = 0#8)
    (inside : number < 2 ^ prefixBits) :
    (prefixMask ||| BitVec.ofNat 8 number).toNat % 2 ^ prefixBits = number := by
  rw [← toNat_and_mask high, BitVec.and_comm, BitVec.and_or_distrib_left, BitVec.and_comm, apart,
    BitVec.zero_or, BitVec.and_comm, Word.toNat_ofNat_and_mask high, Nat.mod_eq_of_lt inside]

theorem decodeInteger_encodeHpackInt (low : 1 ≤ prefixBits) {prefixMask : BitVec 8}
    (apart : prefixMask &&& BitVec.ofNat 8 (2 ^ prefixBits - 1) = 0#8) {value : Nat}
    (bound : value < 2 ^ 63) (rest : Bytes) :
    decodeInteger (encodeHpackInt value prefixBits prefixMask ++ rest) prefixBits =
      some (BitVec.ofNat 64 value, rest) := by
  have positive := Nat.two_pow_pos prefixBits
  rw [encodeHpackInt, toNat_mask high]
  split_ifs with short
  · rw [List.singleton_append, decodeInteger_cons high low, toNat_or_mod high apart (by omega)]
    exact if_pos short
  · rw [List.cons_append, decodeInteger_cons high low, toNat_or_mod high apart (by omega)]
    refine (if_neg (Nat.lt_irrefl _)).trans ?_
    rw [decodeIntegerLoop_encodeContinuation _ _ (by decide) (by omega), ← BitVec.ofNat_add,
      Nat.mul_zero, Nat.pow_zero, Nat.mul_one, Nat.add_sub_cancel' (by omega)]

end

/-- What was encoded is decoded, whatever follows; and what is decoded is the RFC's number, in
at most ten bytes. -/
theorem decodeInteger_exact (prefixBits : Nat) :
    (1 ≤ prefixBits → prefixBits ≤ 8 → ∀ prefixMask : BitVec 8,
      prefixMask &&& BitVec.ofNat 8 (2 ^ prefixBits - 1) = 0#8 → ∀ value < 2 ^ 63, ∀ rest,
        decodeInteger (encodeHpackInt value prefixBits prefixMask ++ rest) prefixBits =
          some (BitVec.ofNat 64 value, rest)) ∧
    ∀ buffer result rest, decodeInteger buffer prefixBits = some (result, rest) →
      rfcInteger prefixBits buffer = some (result.toNat, rest) ∧
      ∃ consumed, buffer = consumed ++ rest ∧ 1 ≤ consumed.length ∧ consumed.length ≤ 10 := by
  have positive := Nat.two_pow_pos prefixBits
  constructor
  · intro low high prefixMask apart value bound rest
    exact decodeInteger_encodeHpackInt high low apart bound rest
  · rintro (_ | ⟨first, buffer⟩) result rest accepted
    · exact nomatch accepted
    · have range : 1 ≤ prefixBits ∧ prefixBits ≤ 8 := by
        rw [decodeInteger] at accepted
        split_ifs at accepted
        omega
      have inside := Nat.mod_le first.toNat (2 ^ prefixBits)
      have value : (BitVec.ofNat 64 (first.toNat % 2 ^ prefixBits)).toNat =
          first.toNat % 2 ^ prefixBits := by
        rw [BitVec.toNat_ofNat]
        omega
      rw [decodeInteger_cons range.2 range.1] at accepted
      rw [rfcInteger]
      dsimp only at accepted ⊢
      split_ifs at accepted ⊢ with short
      · obtain ⟨rfl, rfl⟩ := Prod.mk.inj (Option.some.inj accepted)
        exact ⟨by rw [value], [first], rfl, Nat.le_refl 1, by simp⟩
      · obtain ⟨number, read, total, consumed, rfl, few⟩ :=
          decodeIntegerLoop_sound (by omega) accepted
        refine ⟨?_, first :: consumed, rfl, by simp, Nat.succ_le_succ few⟩
        rw [read, total, value, Nat.mul_zero, Nat.pow_zero, Nat.mul_one]
        rfl

/-- The number leaves the flag in the first byte alone. -/
theorem encodeHpackInt_eq_cons (value : Nat) (flag : BitVec 8) :
    ∃ first tail, encodeHpackInt value 7 flag = first :: tail ∧ first &&& 0x80 = flag &&& 0x80 := by
  have apart : ∀ low : BitVec 8, low.toNat < 128 → (flag ||| low) &&& 0x80 = flag &&& 0x80 := by
    intro low small
    rw [BitVec.and_comm, BitVec.and_or_distrib_left, BitVec.and_comm _ low,
      (and_128_eq_zero_iff low).mpr small, BitVec.and_comm]
    exact BitVec.or_zero
  by_cases short : value < 127
  · refine ⟨_, _, if_pos short, apart _ ?_⟩
    rw [BitVec.toNat_ofNat]
    omega
  · exact ⟨_, _, if_neg short, apart _ (by decide)⟩

/-- A string behind its length is read to its end and no further: shown as it stands, or decoded
into the arena if the flag is set. -/
theorem decodeString_encode {flag : BitVec 8} (apart : flag &&& 127#8 = 0#8)
    {body : Bytes} (bound : body.length < 2 ^ 63) (rest arena : Bytes) :
    decodeString (encodeHpackInt body.length 7 flag ++ (body ++ rest)) arena =
      if flag &&& 0x80 = 0 then some ⟨body, rest, arena⟩
      else (decodeHuffman body arena).map fun decoded =>
        ⟨decoded.drop arena.length, rest, decoded⟩ := by
  have size : (BitVec.ofNat 64 body.length).toNat = body.length := by
    rw [BitVec.toNat_ofNat]
    omega
  have enough : ¬(body ++ rest).length < body.length := by simp
  have read := decodeInteger_encodeHpackInt (by decide : 7 ≤ 8) (by decide) apart bound
    (body ++ rest)
  obtain ⟨first, tail, bytes, kept⟩ := encodeHpackInt_eq_cons body.length flag
  rw [bytes, List.cons_append] at read ⊢
  simp only [decodeString, read, size, if_neg enough, kept, List.take_left, List.drop_left]
  cases decodeHuffman body arena <;> rfl

end SlabFlux.Transport.Hpack
