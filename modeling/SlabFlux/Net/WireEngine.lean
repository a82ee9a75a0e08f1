import SlabFlux.Lib.InternetChecksum

/-!
# The checksum engine

`tcp_wire_engine::compute_checksum` on a little-endian host.
-/

namespace SlabFlux.Net.WireEngine

open Lib Lib.InternetChecksum
variable (sum : BitVec 32)

/-- Fold the carries of the accumulator. -/
def fold (sum : BitVec 32) : BitVec 32 := (sum &&& 0xFFFF#32) + (sum >>> 16)

/-- The loops over words, with the trailing odd byte.  The unrolled loop takes whole words
only. -/
def addWords : Bytes → BitVec 32 → BitVec 32
  | [], sum => sum
  | [byte], sum => sum + byte.setWidth 32
  | low :: high :: rest, sum => addWords rest (sum + (high ++ low).setWidth 32)

def chunkLen (len : Nat) : Nat := if 65536 < len then 65536 else len / 32 * 32

/-- The loop over chunks, each folded, and the loop over what is left.  A chunk is not
empty, so the number of bytes is enough fuel. -/
def addChunks : Nat → Bytes → BitVec 32 → BitVec 32
  | 0, bytes, sum => addWords bytes sum
  | fuel + 1, bytes, sum =>
      if 32 ≤ bytes.length then
        let chunkLen := chunkLen bytes.length
        addChunks fuel (bytes.drop chunkLen) (fold (addWords (bytes.take chunkLen) sum))
      else addWords bytes sum

/-- `compute_checksum`.  The data may start at an odd address. -/
def computeChecksum (isUnaligned : Bool) (data : Bytes) (initialSum : BitVec 32) :
    BitVec 16 :=
  let initialSum := fold (fold initialSum)
  let sum :=
    match isUnaligned, data with
    | true, first :: rest =>
        addChunks rest.length rest (initialSum + first.setWidth 32 <<< 8)
    | _, _ => addChunks data.length data initialSum
  let sum := fold (fold sum)
  let sum := if isUnaligned then ((sum &&& 0xFF#32) <<< 8) ||| ((sum >>> 8) &&& 0xFF#32) else sum
  (~~~sum).setWidth 16

/-! ## The sum in the accumulator -/

theorem toNat_fold : (fold sum).toNat = sum.toNat % 65536 + sum.toNat / 65536 := by
  have low : (sum &&& 0xFFFF#32).toNat = sum.toNat % 65536 := by
    exact Nat.and_two_pow_sub_one_eq_mod sum.toNat 16
  rw [fold, BitVec.toNat_add, BitVec.toNat_ushiftRight]
  omega

/-- One fold leaves at most one bit above the word, and a second one none. -/
theorem toNat_fold_le : (fold sum).toNat ≤ 131070 ∧ (fold (fold sum)).toNat ≤ 65535 := by
  rw [toNat_fold (fold sum), toNat_fold]
  omega

theorem sameSum_toNat_fold : SameSum (fold sum).toNat sum.toNat := by
  rw [toNat_fold]
  exact sameSum_fold sum.toNat

/-- The accumulator does not overflow. -/
theorem toNat_addWords (bytes : Bytes) {sum : BitVec 32} (fits : sum.toNat + total bytes < 2 ^ 32) :
    (addWords bytes sum).toNat = sum.toNat + total bytes := by
  induction bytes, sum using addWords.induct with
  | case1 sum => rfl
  | case2 byte sum =>
      rw [total] at fits ⊢
      rw [addWords, BitVec.toNat_add, BitVec.toNat_setWidth]
      omega
  | case3 low high rest sum ih =>
      have word : ((high ++ low).setWidth 32).toNat = low.toNat + 256 * high.toNat := by
        have small := low.isLt
        rw [BitVec.toNat_setWidth, BitVec.toNat_append,
          ← Nat.shiftLeft_add_eq_or_of_lt small, Nat.shiftLeft_eq]
        omega
      have added : (sum + (high ++ low).setWidth 32).toNat =
          sum.toNat + (low.toNat + 256 * high.toNat) := by
        rw [total] at fits
        rw [BitVec.toNat_add]
        omega
      rw [total] at fits ⊢
      rw [addWords]
      omega

/-- The loops add up the words, from an accumulator that has just been folded. -/
theorem sameSum_addChunks {fuel : Nat} {bytes : Bytes} {sum : BitVec 32}
    (enough : bytes.length ≤ fuel) (folded : sum.toNat ≤ 131070) :
    SameSum (addChunks fuel bytes sum).toNat (sum.toNat + total bytes) := by
  induction fuel generalizing bytes sum with
  | zero =>
      have empty : bytes = [] := List.eq_nil_of_length_eq_zero (Nat.le_zero.mp enough)
      subst empty
      exact .refl _
  | succ fuel ih =>
      have size := total_le bytes
      unfold addChunks
      by_cases long : 32 ≤ bytes.length
      · rw [if_pos long]
        dsimp only
        -- A chunk is a whole number of words, at most 65536 bytes.
        have chunk : 32 ≤ chunkLen bytes.length ∧ chunkLen bytes.length ≤ bytes.length ∧
            chunkLen bytes.length ≤ 65536 ∧ chunkLen bytes.length % 2 = 0 := by
          unfold chunkLen
          split <;> omega
        generalize chunkLen bytes.length = length at chunk
        obtain ⟨positive, within, short, even⟩ := chunk
        have taken : (bytes.take length).length = length := by
          rw [List.length_take]
          omega
        have parts : total bytes = total (bytes.take length) + total (bytes.drop length) := by
          rw [← total_append (by rw [taken]; exact even), List.take_append_drop]
        have fits := total_le (bytes.take length)
        have words := toNat_addWords (bytes.take length)
          (show sum.toNat + total (bytes.take length) < 2 ^ 32 by omega)
        have rest : (bytes.drop length).length ≤ fuel := by
          rw [List.length_drop]
          omega
        refine (ih rest (toNat_fold_le _).1).trans ?_
        rw [parts, ← Nat.add_assoc, ← words]
        exact (sameSum_toNat_fold _).add_right _
      · rw [if_neg long, toNat_addWords bytes (by omega)]
        exact .refl _

/-! ## Against the Internet checksum -/

theorem toNat_fold_fold (initialSum : BitVec 32) :
    (fold (fold initialSum)).toNat = foldedWord initialSum.toNat := by
  obtain ⟨within, same⟩ := foldedWord_spec initialSum.isLt
  have folded := (sameSum_toNat_fold (fold initialSum)).trans (sameSum_toNat_fold initialSum)
  exact (folded.trans same.symm).eq_of_le (toNat_fold_le initialSum).2 within

theorem toNat_swap {sum : BitVec 32} (bounded : sum.toNat ≤ 65535) :
    (((sum &&& 0xFF#32) <<< 8) ||| ((sum >>> 8) &&& 0xFF#32)).toNat = swapped sum.toNat := by
  have low : (sum &&& 0xFF#32).toNat = sum.toNat % 256 := by
    exact Nat.and_two_pow_sub_one_eq_mod sum.toNat 8
  have high : ((sum >>> 8) &&& 0xFF#32).toNat = sum.toNat / 256 := by
    have masked : ((sum >>> 8) &&& 0xFF#32).toNat = (sum.toNat >>> 8) % 2 ^ 8 := by
      exact Nat.and_two_pow_sub_one_eq_mod _ 8
    omega
  have shifted : ((sum &&& 0xFF#32) <<< 8).toNat = (sum.toNat % 256) <<< 8 := by
    rw [BitVec.toNat_shiftLeft]
    omega
  rw [BitVec.toNat_or, shifted, high, ← Nat.shiftLeft_add_eq_or_of_lt (by omega), Nat.shiftLeft_eq]
  rfl

/-- The accumulator before the last fold.  From an odd address the bytes of the data stand in
the other half of their words; those of the initial sum do not. -/
theorem sameSum_accumulated (data : Bytes) {start : BitVec 32} (bounded : start.toNat ≤ 65535) :
    SameSum (addChunks data.length data start).toNat (start.toNat + total data) ∧
      ∀ first rest, data = first :: rest →
        SameSum (addChunks rest.length rest (start + first.setWidth 32 <<< 8)).toNat
          (start.toNat + 256 * total data) := by
  refine ⟨sameSum_addChunks (Nat.le_refl _) (by omega), ?_⟩
  rintro first rest rfl
  have added : (start + first.setWidth 32 <<< 8).toNat = start.toNat + 256 * first.toNat := by
    rw [BitVec.toNat_add, BitVec.toNat_shiftLeft, BitVec.toNat_setWidth]
    omega
  refine (sameSum_addChunks (Nat.le_refl _) (by omega)).trans ?_
  rw [added, Nat.add_assoc, Nat.add_comm start.toNat, Nat.add_comm start.toNat]
  exact ((sameSum_total_cons first rest).symm).add_right _

theorem toNat_computeChecksum (isUnaligned : Bool) (data : Bytes) (initialSum : BitVec 32) :
    ∃ sum ≤ 65535,
      SameSum sum (if isUnaligned then swapped (foldedWord initialSum.toNat) + total data
        else foldedWord initialSum.toNat + total data) ∧
      (computeChecksum isUnaligned data initialSum).toNat = 65535 - sum := by
  have start := toNat_fold_fold initialSum
  have bounded := (toNat_fold_le initialSum).2
  obtain ⟨even, odd⟩ := sameSum_accumulated data bounded
  -- Complementing a folded accumulator, for both parities.
  have folded : ∀ sum : BitVec 32, (fold (fold sum)).toNat ≤ 65535 ∧
      SameSum (fold (fold sum)).toNat sum.toNat := fun sum =>
    ⟨(toNat_fold_le sum).2, (sameSum_toNat_fold (fold sum)).trans (sameSum_toNat_fold sum)⟩
  have complement : ∀ word : BitVec 32, word.toNat ≤ 65535 →
      ((~~~word).setWidth 16).toNat = 65535 - word.toNat := by
    intro word small
    rw [BitVec.toNat_setWidth, BitVec.toNat_not]
    omega
  have exchanged : ∀ sum : BitVec 32,
      SameSum sum.toNat ((fold (fold initialSum)).toNat + 256 * total data) →
        ∃ word ≤ 65535, SameSum word (swapped (foldedWord initialSum.toNat) + total data) ∧
          ((~~~(((fold (fold sum) &&& 0xFF#32) <<< 8) |||
            ((fold (fold sum) >>> 8) &&& 0xFF#32))).setWidth 16).toNat = 65535 - word := by
    intro sum same
    obtain ⟨within, stands⟩ := folded sum
    obtain ⟨small, doubled⟩ := sameSum_swapped within
    obtain ⟨-, initial⟩ := sameSum_swapped (start ▸ bounded)
    refine ⟨swapped (fold (fold sum)).toNat, small, doubled.trans ?_, ?_⟩
    · have total := stands.trans same
      unfold SameSum at *
      omega
    · rw [complement _ (by rw [toNat_swap within]; exact small), toNat_swap within]
  cases isUnaligned with
  | false =>
      obtain ⟨within, stands⟩ := folded (addChunks data.length data (fold (fold initialSum)))
      refine ⟨_, within, ?_, ?_⟩
      · rw [← start]
        exact stands.trans even
      · rw [← complement _ within]
        cases data <;> rfl
  | true =>
      cases data with
      | nil => exact exchanged _ (by simpa [total] using even)
      | cons first rest => exact exchanged _ (odd first rest rfl)

/-- The checksum of aligned data completes their total to all ones. -/
theorem sameSum_computeChecksum (data : Bytes) (initialSum : BitVec 32) :
    SameSum (initialSum.toNat + total data + (computeChecksum false data initialSum).toNat)
      65535 := by
  obtain ⟨sum, small, stands, result⟩ := toNat_computeChecksum false data initialSum
  obtain ⟨-, start⟩ := foldedWord_spec initialSum.isLt
  rw [result]
  exact sameSum_complement small (stands.trans (start.add_right _))

/-- The result is the Internet checksum exactly if the data start at an even address or the
two bytes of the folded initial sum are equal. -/
theorem computeChecksum_eq_checksum_iff (isUnaligned : Bool) (data : Bytes)
    (initialSum : BitVec 32) :
    (computeChecksum isUnaligned data initialSum).toNat = checksum initialSum.toNat data ↔
      isUnaligned = false ∨
        foldedWord initialSum.toNat % 256 = foldedWord initialSum.toNat / 256 := by
  obtain ⟨sum, small, stands, result⟩ := toNat_computeChecksum isUnaligned data initialSum
  obtain ⟨start, -⟩ := foldedWord_spec initialSum.isLt
  obtain ⟨within, expected⟩ := foldl_littleWords_spec data start
  rw [result, checksum]
  have complements : 65535 - sum = 65535 - (littleWords data).foldl carryAdd
      (foldedWord initialSum.toNat) ↔
        sum = (littleWords data).foldl carryAdd (foldedWord initialSum.toNat) := by
    omega
  rw [complements]
  cases isUnaligned with
  | false =>
      refine iff_of_true ?_ (Or.inl rfl)
      exact (stands.trans expected.symm).eq_of_le small within
  | true =>
      rw [← sameSum_swapped_iff start]
      constructor
      · intro equal
        right
        rw [equal] at stands
        exact stands.symm.trans expected
      · rintro (impossible | same)
        · exact absurd impossible (by decide)
        · exact ((stands.trans same).trans expected.symm).eq_of_le small within

/-- The initial sum of a pseudo header, and data at an odd address. -/
theorem computeChecksum_odd_address :
    (computeChecksum true [0x12, 0x34] 0x0600).toNat ≠ checksum 0x0600 [0x12, 0x34] := by
  decide

end SlabFlux.Net.WireEngine
