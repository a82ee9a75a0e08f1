import SlabFlux.Dist.CausalSequencer.Model
import SlabFlux.Lib.Word

/-!
# Batched polling

`poll_batch` finds a stretch of presence bits with a trailing-zero count, copies the
slots of the stretch and clears its bits with one mask.  It hands out the same packets,
and leaves the same sequencer behind, as calling `poll_ready` as often as the batch has
room for.
-/

namespace SlabFlux.Dist.CausalSequencer

open Lib
open Net.OooMatrix (Mask)

universe u

variable {α : Type u} (word : BitVec 64) (lsn : BitVec 64) (sequencer : CausalSequencer α)

/-! ## Slots of positions -/

theorem slotOf_ofNat (position : Nat) :
    slotOf (BitVec.ofNat 64 position) = position % windowSize := by
  have masked : (BitVec.ofNat 64 position &&& BitVec.ofNat 64 (2 ^ 11 - 1)).toNat =
      position % 2 ^ 11 :=
    Word.toNat_ofNat_and_mask (by decide) position
  exact masked

theorem slotOf_eq_mod : slotOf lsn = lsn.toNat % windowSize := by
  rw [← slotOf_ofNat, BitVec.ofNat_toNat, BitVec.setWidth_eq]

theorem slotOf_lt : slotOf lsn < windowSize := by
  rw [slotOf_eq_mod]
  exact Nat.mod_lt _ (by decide)

theorem slotOf_add_one : slotOf (lsn + 1) = (slotOf lsn + 1) % windowSize := by
  have next : lsn + 1 = BitVec.ofNat 64 (lsn.toNat + 1) := by
    rfl
  rw [next, slotOf_ofNat, slotOf_eq_mod, Nat.mod_add_mod]

theorem and_windowMask (idx : Nat) : idx &&& windowMask = idx % windowSize :=
  Nat.and_two_pow_sub_one_eq_mod idx 11

/-! ## Presence bits -/

theorem ready_eq_bit :
    sequencer.ready = sequencer.presenceMasks.bit (slotOf sequencer.nextExpectedLsn) :=
  Mask.test_eq_bit _ _

theorem bit_update (mask : Mask) (position : Nat) (word : BitVec 64) (other : Nat) :
    Mask.bit (Function.update mask (position / 64) word) other =
      if other / 64 = position / 64 then word.getLsbD (other % 64)
      else mask.bit other := by
  unfold Mask.bit
  split_ifs with same
  · rw [same, Function.update_self]
  · rw [Function.update_of_ne same]

theorem getLsbD_one_shiftLeft {bit index : Nat} (bound : index < 64) :
    (1#64 <<< bit).getLsbD index = decide (index = bit) := by
  by_cases equal : index = bit
  · subst equal
    simp [bound]
  · simp [bound, equal]
    omega

/-- Storing a packet sets the bit of its slot and no other. -/
theorem bit_store (idx : Nat) (packet : NetworkPacket α) (other : Nat) :
    (sequencer.store idx packet).presenceMasks.bit other =
      (decide (other = idx) || sequencer.presenceMasks.bit other) := by
  have bound : other % 64 < 64 := Nat.mod_lt _ (by decide)
  rw [store, bit_update]
  split_ifs with same
  · rw [BitVec.getLsbD_or, getLsbD_one_shiftLeft bound, ← same, Bool.or_comm]
    congr 2
    rw [eq_iff_iff]
    omega
  · have differ : other ≠ idx := by
      intro equal
      exact same (congrArg (· / 64) equal)
    simp [differ]

/-- Handing out the expected packet clears the bit of its slot and no other. -/
theorem bit_release (other : Nat) :
    sequencer.release.presenceMasks.bit other =
      (decide (other ≠ slotOf sequencer.nextExpectedLsn) && sequencer.presenceMasks.bit other) := by
  have bound : other % 64 < 64 := Nat.mod_lt _ (by decide)
  rw [release, bit_update]
  split_ifs with same
  · rw [BitVec.getLsbD_and, BitVec.getLsbD_not, getLsbD_one_shiftLeft bound, ← same, Bool.and_comm]
    congr 1
    simp only [bound, decide_true, Bool.true_and, ← decide_not]
    congr 1
    rw [eq_iff_iff]
    omega
  · have differ : other ≠ slotOf sequencer.nextExpectedLsn := by
      intro equal
      exact same (congrArg (· / 64) equal)
    simp [differ]

/-! ## A batch is a series of single polls -/

/-- Poll one packet at a time, at most `count` times, until nothing is ready. -/
def pollTimes : Nat → CausalSequencer α → List (Option (NetworkPacket α)) × CausalSequencer α
  | 0, sequencer => ([], sequencer)
  | count + 1, sequencer =>
      if sequencer.ready then
        let rest := pollTimes count sequencer.release
        (sequencer.slots (slotOf sequencer.nextExpectedLsn) :: rest.1, rest.2)
      else ([], sequencer)

theorem pollTimes_of_not_ready {sequencer : CausalSequencer α}
    (waiting : sequencer.ready = false) (count : Nat) :
    pollTimes count sequencer = ([], sequencer) := by
  cases count with
  | zero => rfl
  | succ count => simp [pollTimes, waiting]

/-- A series of polls that all succeed can be cut anywhere. -/
theorem pollTimes_add {first : Nat} {sequencer : CausalSequencer α}
    (whole : (pollTimes first sequencer).1.length = first) (more : Nat) :
    pollTimes (first + more) sequencer =
      ((pollTimes first sequencer).1 ++ (pollTimes more (pollTimes first sequencer).2).1,
        (pollTimes more (pollTimes first sequencer).2).2) := by
  induction first generalizing sequencer with
  | zero => simp [pollTimes]
  | succ first ih =>
      cases isReady : sequencer.ready with
      | false =>
          rw [pollTimes_of_not_ready isReady] at whole
          simp at whole
      | true =>
          simp only [pollTimes, isReady, if_true, List.length_cons,
            Nat.add_right_cancel_iff] at whole
          rw [Nat.succ_add]
          simp only [pollTimes, isReady, if_true, ih whole, List.cons_append]

/-- Clearing a stretch of bits is clearing its first bit and then the others. -/
theorem clear_inWord_succ {bit count : Nat} (within : bit + (count + 1) ≤ 64) :
    word &&& ~~~Mask.inWord bit (count + 1) =
      (word &&& ~~~(1#64 <<< bit)) &&& ~~~Mask.inWord (bit + 1) count := by
  apply BitVec.eq_of_getLsbD_eq
  intro index bound
  rw [BitVec.getLsbD_and, BitVec.getLsbD_and, BitVec.getLsbD_and, BitVec.getLsbD_not,
    BitVec.getLsbD_not, BitVec.getLsbD_not, getLsbD_one_shiftLeft bound,
    Mask.getLsbD_inWord within bound, Mask.getLsbD_inWord (by omega) bound]
  cases word.getLsbD index with
  | false => rfl
  | true =>
      simp only [bound, decide_true, Bool.true_and, ← decide_not, ← Bool.decide_and,
        decide_eq_decide]
      omega

theorem inWord_zero (bit : Nat) : Mask.inWord bit 0 = 0#64 := by
  simp [Mask.inWord, Net.OooMatrix.lowOnes]

theorem and_not_zero : word &&& ~~~0#64 = word := by
  rw [BitVec.not_zero, BitVec.and_allOnes]

theorem fetch_zero : sequencer.fetch 0 = ([], sequencer) := by
  simp only [fetch, takeSlots, inWord_zero, and_not_zero, Function.update_eq_self, BitVec.add_zero]

/-- A round that stays inside one presence word hands out its first packet the way
`poll_ready` does and goes on from there. -/
theorem fetch_succ {count : Nat} {sequencer : CausalSequencer α}
    (within : slotOf sequencer.nextExpectedLsn % 64 + (count + 1) ≤ 64) :
    sequencer.fetch (count + 1) = (sequencer.slots (slotOf sequencer.nextExpectedLsn) ::
          (sequencer.release.fetch count).1,
        (sequencer.release.fetch count).2) := by
  have idxLt := slotOf_lt sequencer.nextExpectedLsn
  have same : slotOf sequencer.nextExpectedLsn &&& windowMask =
      slotOf sequencer.nextExpectedLsn := by
    rw [and_windowMask, Nat.mod_eq_of_lt idxLt]
  have cleared := clear_inWord_succ
    (sequencer.presenceMasks (slotOf sequencer.nextExpectedLsn / 64)) within
  cases count with
  | zero =>
      rw [inWord_zero, and_not_zero] at cleared
      rw [fetch_zero]
      simp only [fetch, takeSlots, same, cleared, release]
      rfl
  | succ count =>
      have next : slotOf (sequencer.nextExpectedLsn + 1) =
          slotOf sequencer.nextExpectedLsn + 1 := by
        rw [slotOf_add_one]
        simp only [windowSize] at idxLt ⊢
        omega
      have word : (slotOf sequencer.nextExpectedLsn + 1) / 64 =
          slotOf sequencer.nextExpectedLsn / 64 := by
        omega
      have bit : (slotOf sequencer.nextExpectedLsn + 1) % 64 =
          slotOf sequencer.nextExpectedLsn % 64 + 1 := by
        omega
      have advance : sequencer.nextExpectedLsn + BitVec.ofNat 64 (count + 1 + 1) =
          sequencer.nextExpectedLsn + 1 + BitVec.ofNat 64 (count + 1) := by
        rw [Nat.add_comm (count + 1) 1, BitVec.ofNat_add, BitVec.add_assoc]
        rfl
      simp only [fetch, takeSlots, same, cleared, release, next, word, bit, advance,
        Function.update_self, Function.update_idem]

/-- A round of `poll_batch` over a stretch of set bits polls them one by one. -/
theorem fetch_eq_pollTimes {count : Nat} {sequencer : CausalSequencer α}
    (within : slotOf sequencer.nextExpectedLsn % 64 + count ≤ 64)
    (present : ∀ offset < count,
      sequencer.presenceMasks.bit (slotOf sequencer.nextExpectedLsn + offset) = true) :
    sequencer.fetch count = pollTimes count sequencer ∧
      (pollTimes count sequencer).1.length = count := by
  induction count generalizing sequencer with
  | zero => exact ⟨fetch_zero sequencer, rfl⟩
  | succ count ih =>
      have isReady : sequencer.ready = true := by
        rw [ready_eq_bit]
        exact present 0 (by omega)
      have rest : sequencer.release.fetch count = pollTimes count sequencer.release ∧
          (pollTimes count sequencer.release).1.length = count := by
        cases count with
        | zero => exact ⟨fetch_zero _, rfl⟩
        | succ count =>
            have idxLt := slotOf_lt sequencer.nextExpectedLsn
            have next : slotOf sequencer.release.nextExpectedLsn =
                slotOf sequencer.nextExpectedLsn + 1 := by
              rw [release, slotOf_add_one]
              simp only [windowSize] at idxLt ⊢
              omega
            apply ih
            · omega
            · intro offset bound
              have held := present (offset + 1) (by omega)
              rw [bit_release, next, Nat.add_assoc, Nat.add_comm 1 offset, held]
              simp
      rw [fetch_succ within, rest.1]
      simp only [pollTimes, isReady, if_true, List.length_cons, rest.2, and_self]

/-- The lowest bit of the shifted presence word is the bit of the expected slot. -/
theorem shifted_and_one (bit : Nat) : (word >>> bit) &&& 1 = 0 ↔ word.getLsbD bit = false := by
  have lowest := BitVec.and_one_eq_setWidth_ofBool_getLsbD (x := word >>> bit)
  rw [BitVec.getLsbD_ushiftRight] at lowest
  change (word >>> bit) &&& 1#64 = 0#64 ↔ _
  rw [lowest]
  cases word.getLsbD bit with
  | false => decide
  | true => decide

/-- The bits of the inverted presence word below its first one are set in the presence
word. -/
theorem getLsbD_of_lt_ctz {word : BitVec 64} {bit offset : Nat} (inside : offset < 64)
    (below : offset < (~~~(word >>> bit)).ctz.toNat) : word.getLsbD (bit + offset) = true := by
  have unset := BitVec.getLsbD_false_of_lt_ctz below
  simpa [inside] using unset

/-- The stretch `poll_batch` finds consists of set bits of one presence word. -/
theorem contiguous_spec {bit : Nat} (bitLt : bit < 64) :
    bit + contiguous (word >>> bit) bit ≤ 64 ∧
      ∀ offset < contiguous (word >>> bit) bit, word.getLsbD (bit + offset) = true := by
  unfold contiguous
  by_cases full : ~~~(word >>> bit) = 0
  · rw [if_pos full]
    refine ⟨by omega, ?_⟩
    intro offset bound
    have unset : (~~~(word >>> bit)).getLsbD offset = false := by
      rw [full]
      exact BitVec.getLsbD_zero
    simpa [show offset < 64 by omega] using unset
  · rw [if_neg full]
    have inWord : (~~~(word >>> bit)).ctz.toNat < 64 :=
      BitVec.ctz_lt_iff_ne_zero.mpr full
    constructor
    · by_contra beyond
      have set : word.getLsbD (bit + (64 - bit)) = true :=
        getLsbD_of_lt_ctz (by omega) (by omega)
      rw [BitVec.getLsbD_of_ge _ _ (by omega)] at set
      simp at set
    · intro offset bound
      exact getLsbD_of_lt_ctz (by omega) bound

theorem contiguous_pos {word : BitVec 64} {bit : Nat} (bitLt : bit < 64)
    (set : word.getLsbD bit = true) : 0 < contiguous (word >>> bit) bit := by
  unfold contiguous
  by_cases full : ~~~(word >>> bit) = 0
  · rw [if_pos full]
    omega
  · rw [if_neg full]
    by_contra zero
    have first := BitVec.getLsbD_true_ctz_of_ne_zero full
    rw [Nat.eq_zero_of_not_pos zero, BitVec.getLsbD_not, BitVec.getLsbD_ushiftRight,
      Nat.add_zero, set] at first
    simp at first

theorem pollRounds_eq_pollTimes {rounds remaining : Nat} (enough : remaining ≤ rounds)
    (sequencer : CausalSequencer α) :
    pollRounds rounds remaining sequencer = pollTimes remaining sequencer := by
  induction rounds generalizing remaining sequencer with
  | zero =>
      obtain rfl : remaining = 0 := by omega
      rfl
  | succ rounds ih =>
      have bitLt : slotOf sequencer.nextExpectedLsn % 64 < 64 := Nat.mod_lt _ (by decide)
      unfold pollRounds
      by_cases done : remaining = 0
      · subst done
        rfl
      · rw [if_neg done]
        cases isReady : sequencer.ready with
        | false =>
            have unset := isReady
            rw [ready_eq_bit] at unset
            rw [if_pos ((shifted_and_one _ _).mpr unset), pollTimes_of_not_ready isReady]
        | true =>
            have set := isReady
            rw [ready_eq_bit] at set
            rw [if_neg (by
              rw [shifted_and_one]
              exact ne_of_eq_of_ne set (by decide))]
            obtain ⟨within, ones⟩ := contiguous_spec
              (sequencer.presenceMasks (slotOf sequencer.nextExpectedLsn / 64)) bitLt
            have positive := contiguous_pos bitLt set
            obtain ⟨count, countEq⟩ : ∃ count, min (contiguous
                (sequencer.presenceMasks (slotOf sequencer.nextExpectedLsn / 64) >>>
                  (slotOf sequencer.nextExpectedLsn % 64))
                (slotOf sequencer.nextExpectedLsn % 64)) remaining = count :=
              ⟨_, rfl⟩
            have present : ∀ offset < count, sequencer.presenceMasks.bit
                (slotOf sequencer.nextExpectedLsn + offset) = true := by
              intro offset bound
              have isSet := ones offset (by omega)
              have word : (slotOf sequencer.nextExpectedLsn + offset) / 64 =
                  slotOf sequencer.nextExpectedLsn / 64 := by
                omega
              have bit : (slotOf sequencer.nextExpectedLsn + offset) % 64 =
                  slotOf sequencer.nextExpectedLsn % 64 + offset := by
                omega
              rw [Mask.bit, word, bit]
              exact isSet
            obtain ⟨fetched, whole⟩ := fetch_eq_pollTimes (by omega) present
            have cut : remaining = count + (remaining - count) := by omega
            dsimp only
            rw [countEq, fetched, ih (by omega)]
            conv_rhs => rw [cut, pollTimes_add whole]

/-- `poll_batch` hands out what `max_count` calls of `poll_ready` hand out. -/
theorem pollBatch_eq_pollTimes (maxCount : Nat) :
    sequencer.pollBatch maxCount = pollTimes maxCount sequencer :=
  pollRounds_eq_pollTimes (Nat.le_refl maxCount) sequencer

end SlabFlux.Dist.CausalSequencer
