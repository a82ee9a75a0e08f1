import SlabFlux.Net.Defragmenter.Model
import Mathlib.Order.Interval.Finset.Nat

/-!
# What a slot holds

The bytes a reassembly slot holds are the positions marked in its mask.  The counters
follow them: `current_bytes_received` is their number and `highest_byte_received`
bounds them.  A slot that passes the reassembly trigger therefore holds exactly the
positions below `total_expected_length`.
-/

namespace SlabFlux.Net.Defragmenter

open SlabFlux.Core Lib Memory
open Net.OooMatrix (Mask)

section

variable {fragment : Fragment} {position : Nat} {frame : Memory} {slot : Slot}

/-! ## Keys and payloads -/

/-- What tells datagrams apart. -/
structure Key where
  src : BitVec 32
  dst : BitVec 32
  protocol : BitVec 8
  id : BitVec 16
deriving DecidableEq

/-- The key in a frame's header. -/
def frameKey (frame : Memory) : Key where
  src := ipSrc frame
  dst := ipDst frame
  protocol := ipProtocol frame
  id := ipId frame

/-- The key a slot was claimed with. -/
def Slot.key (slot : Slot) : Key where
  src := slot.srcIp
  dst := slot.dstIp
  protocol := slot.protocol
  id := slot.ipId

/-- The positions of its datagram a fragment covers. -/
def covered (frame : Memory) : Finset Nat :=
  Finset.Ico (offsetBytes frame).toNat (endBytes frame)

/-- The byte a fragment carries for a position. -/
def payloadByte (frame : Memory) (position : Nat) : BitVec 8 :=
  frame (14 + (headerLen frame).toNat + (position - (offsetBytes frame).toNat))

/-- A fragment with a header of five words that carries a payload from an offset on. -/
def Fragment.ofPayload (key : Key) (offset : Nat) (more : Bool) (payload : Bytes)
    (now : BitVec 64) : Fragment :=
  let length := BitVec.ofNat 16 (20 + payload.length)
  let flags : BitVec 16 := BitVec.ofNat 16 (offset / 8) ||| if more then 0x2000 else 0
  let bytes := List.replicate 14 0 ++ [0x45, 0] ++ toBytes 2 (hostToNetwork16 length) ++
    toBytes 2 key.id ++ toBytes 2 (hostToNetwork16 flags) ++ [64, key.protocol, 0, 0] ++
    toBytes 4 key.src ++ toBytes 4 key.dst ++ payload
  { frame := fun address => bytes.getD address 0
    physicalLength := BitVec.ofNat 64 bytes.length
    now := now }

/-- A platform with 8 slots on which all hashes are equal. -/
def smallPlatform : Platform where
  crc32 := fun _ => 0
  computeChecksum := fun _ => 0
  exponent := 3
  atLeastEight := Nat.le_refl 3

theorem mem_covered :
    position ∈ covered frame ↔ (offsetBytes frame).toNat ≤ position ∧
        position < (offsetBytes frame).toNat + (payloadLen frame).toNat :=
  Finset.mem_Ico

theorem card_covered (frame : Memory) : (covered frame).card = (payloadLen frame).toNat := by
  rw [covered, Nat.card_Ico, endBytes, Nat.add_sub_cancel_left]

theorem Fragment.lengthsValid_iff (fragment : Fragment) :
    fragment.lengthsValid = true ↔ headerLen fragment.frame ≤ ipLenHost fragment.frame ∧
        (ipLenHost fragment.frame).setWidth 64 ≤ fragment.physicalLength - 14 ∧
        endBytes fragment.frame ≤ 65535 ∧ 0 < (payloadLen fragment.frame).toNat := by
  have nonzero : payloadLen fragment.frame ≠ 0 ↔ 0 < (payloadLen fragment.frame).toNat := by
    rw [Nat.pos_iff_ne_zero, ne_eq, ← BitVec.toNat_inj]
    rfl
  simp only [lengthsValid, Bool.and_eq_true, Bool.not_eq_true', decide_eq_false_iff_not,
    bne_iff_ne, nonzero, BitVec.not_lt, Nat.not_lt, and_assoc]

namespace Slot

/-! ## The positions a slot holds -/

/-- The positions marked in a slot's mask. -/
def present (slot : Slot) : Finset Nat :=
  (Finset.range 65536).filter fun position => slot.presenceMask.bit position = true

theorem mem_present :
    position ∈ slot.present ↔ position < 65536 ∧ slot.presenceMask.bit position = true := by
  rw [present, Finset.mem_filter, Finset.mem_range]

@[simp] theorem present_zeroed (buffer : Memory) : (zeroed buffer).present = ∅ := by
  ext position
  rw [mem_present]
  simp [zeroed, Mask.bit]

@[simp] theorem present_claim (slot : Slot) (fragment : Fragment) :
    (slot.claim fragment).present = ∅ :=
  present_zeroed slot.buffer

theorem present_record (slot : Slot) (fits : endBytes frame ≤ 65535) :
    (slot.record frame).present = slot.present ∪ covered frame := by
  ext position
  rw [Finset.mem_union, mem_present, mem_present, mem_covered]
  unfold record
  rw [Mask.bit_mark]
  unfold endBytes at fits
  split_ifs with inside
  · simp only [inside, and_true, or_true, iff_true]
    omega
  · simp only [inside, or_false]

theorem buffer_record_of_mem (slot : Slot) (inside : position ∈ covered frame) :
    (slot.record frame).buffer position = payloadByte frame position := by
  rw [mem_covered] at inside
  exact if_pos inside

theorem buffer_record_of_notMem (slot : Slot) (outside : position ∉ covered frame) :
    (slot.record frame).buffer position = slot.buffer position := by
  rw [mem_covered] at outside
  exact if_neg outside

/-- A fragment is accepted when its lengths are valid and none of its positions is
held yet. -/
theorem accept_eq_some_iff {slot recorded : Slot} :
    slot.accept fragment = some recorded ↔
      fragment.lengthsValid = true ∧ Disjoint slot.present (covered fragment.frame) ∧
        recorded = slot.record fragment.frame := by
  have apart : fragment.lengthsValid = true →
      (slot.presenceMask.overlaps (offsetBytes fragment.frame).toNat
        (payloadLen fragment.frame).toNat = false ↔
      Disjoint slot.present (covered fragment.frame)) := by
    intro valid
    obtain ⟨_, _, fits, _⟩ := fragment.lengthsValid_iff.mp valid
    unfold endBytes at fits
    rw [← Bool.not_eq_true, Mask.overlaps_iff, Finset.disjoint_left]
    constructor
    · intro none position held inside
      exact none ⟨position, mem_covered.mp inside, (mem_present.mp held).2⟩
    · rintro disjoint ⟨position, inside, isSet⟩
      exact disjoint (mem_present.mpr ⟨by omega, isSet⟩) (mem_covered.mpr inside)
  unfold accept
  by_cases valid : fragment.lengthsValid = true
  · rw [← apart valid]
    by_cases overlap : slot.presenceMask.overlaps (offsetBytes fragment.frame).toNat
        (payloadLen fragment.frame).toNat = true
    · simp [overlap]
    · simp [valid, overlap, eq_comm]
  · simp [valid]

/-! ## The counters -/

/-- The counters describe the positions held. -/
structure Accounted (slot : Slot) : Prop where
  counted : slot.currentBytesReceived.toNat = slot.present.card
  below : ∀ position ∈ slot.present, position < slot.highestByteReceived.toNat
  bounded : slot.highestByteReceived.toNat ≤ 65535

namespace Accounted

theorem zeroed (buffer : Memory) : (Slot.zeroed buffer).Accounted where
  counted := by
    rw [present_zeroed]
    rfl
  below position held := by simp at held
  bounded := Nat.zero_le _

theorem claim (slot : Slot) (fragment : Fragment) : (slot.claim fragment).Accounted where
  counted := by
    rw [present_claim]
    rfl
  below position held := by simp at held
  bounded := Nat.zero_le _

/-- The number of positions held is at most the bound on them. -/
theorem card_le (accounted : slot.Accounted) :
    slot.present.card ≤ slot.highestByteReceived.toNat := by
  have inside : slot.present ⊆ Finset.range slot.highestByteReceived.toNat := by
    intro position held
    exact Finset.mem_range.mpr (accounted.below position held)
  simpa using Finset.card_le_card inside

theorem highest_record (slot : Slot) (fits : endBytes frame ≤ 65535) :
    (slot.record frame).highestByteReceived.toNat =
      max slot.highestByteReceived.toNat (endBytes frame) := by
  unfold record
  dsimp only
  split_ifs with higher
  · rw [BitVec.toNat_ofNat]
    omega
  · omega

/-- Recording an accepted fragment keeps the counters in step. -/
theorem record (accounted : slot.Accounted) (valid : fragment.lengthsValid = true)
    (apart : Disjoint slot.present (covered fragment.frame)) :
    (slot.record fragment.frame).Accounted := by
  obtain ⟨_, _, fits, _⟩ := fragment.lengthsValid_iff.mp valid
  have held := present_record slot fits
  have highest := highest_record slot fits
  have below : ∀ position ∈ (slot.record fragment.frame).present,
      position < (slot.record fragment.frame).highestByteReceived.toNat := by
    intro position inside
    rw [held, Finset.mem_union] at inside
    rw [highest]
    rcases inside with before | new
    · exact Nat.lt_of_lt_of_le (accounted.below position before) (Nat.le_max_left _ _)
    · exact Nat.lt_of_lt_of_le (mem_covered.mp new).2 (Nat.le_max_right _ _)
  have bounded : (slot.record fragment.frame).highestByteReceived.toNat ≤ 65535 := by
    rw [highest]
    exact Nat.max_le.mpr ⟨accounted.bounded, fits⟩
  have size : (slot.record fragment.frame).present.card =
      slot.present.card + (payloadLen fragment.frame).toNat := by
    rw [held, Finset.card_union_of_disjoint apart, card_covered]
  have atMost : (slot.record fragment.frame).present.card ≤ 65535 := by
    have inside : (slot.record fragment.frame).present ⊆
        Finset.range (slot.record fragment.frame).highestByteReceived.toNat := by
      intro position isHeld
      exact Finset.mem_range.mpr (below position isHeld)
    exact Nat.le_trans (by simpa using Finset.card_le_card inside) bounded
  refine ⟨?_, below, bounded⟩
  -- the 16-bit sum does not wrap: at most 65535 positions are held
  change (slot.currentBytesReceived + payloadLen fragment.frame).toNat = _
  rw [BitVec.toNat_add, accounted.counted]
  omega

/-- A slot that passes the trigger holds its whole datagram. -/
theorem present_of_complete (accounted : slot.Accounted) (complete : slot.isComplete = true) :
    slot.present = Finset.range slot.totalExpectedLength.toNat := by
  simp only [isComplete, Bool.and_eq_true, beq_iff_eq, decide_eq_true_eq] at complete
  obtain ⟨⟨_, current⟩, highest⟩ := complete
  have highestValue : slot.highestByteReceived.toNat = slot.totalExpectedLength.toNat := by
    rw [highest, BitVec.toNat_setWidth]
    omega
  apply Finset.eq_of_subset_of_card_le
  · intro position held
    rw [Finset.mem_range, ← highestValue]
    exact accounted.below position held
  · rw [Finset.card_range, ← accounted.counted, current]

end Accounted

end Slot

/-! ## The probe -/

theorem setSlot_eq (slots : Nat → Slot) (index : Nat) (slot : Slot) :
    setSlot slots index slot = Function.update slots index slot := by
  funext other
  rw [setSlot, Function.update_apply]

/-- The window wraps around the table. -/
theorem probe_eq (platform : Platform) (frame : Memory) (step : Nat) :
    probe platform frame step = (hash platform frame + step) % 2 ^ min platform.exponent 32 := by
  rw [probe, Platform.capacity, Nat.and_two_pow_sub_one_eq_mod]
  by_cases small : platform.exponent ≤ 32
  · have power : 2 ^ platform.exponent ≤ 2 ^ 32 := Nat.pow_le_pow_right (by decide) small
    rw [Nat.min_eq_left small, Nat.mod_eq_of_lt (by omega)]
  · rw [Nat.min_eq_right (by omega), Nat.mod_mod_of_dvd _ (Nat.pow_dvd_pow 2 (by omega))]

/-- The eight slots of a window are different ones. -/
theorem probe_injective (platform : Platform) (frame : Memory) {first second : Nat}
    (firstIn : first < 8) (secondIn : second < 8)
    (same : probe platform frame first = probe platform frame second) : first = second := by
  have eight : 2 ^ 3 ≤ 2 ^ min platform.exponent 32 :=
    Nat.pow_le_pow_right (by decide) (Nat.le_min.mpr ⟨platform.atLeastEight, by decide⟩)
  rw [probe_eq, probe_eq] at same
  have steps : first ≡ second [MOD 2 ^ min platform.exponent 32] :=
    Nat.ModEq.add_left_cancel' _ same
  exact Nat.ModEq.eq_of_lt_of_lt steps (by omega) (by omega)

/-- The window depends on the key only. -/
theorem probe_congr (platform : Platform) {frame other : Memory}
    (same : frameKey frame = frameKey other) (step : Nat) :
    probe platform frame step = probe platform other step := by
  obtain ⟨src, dst, protocol, id⟩ := Key.mk.injEq .. ▸ same
  unfold probe hash mix
  rw [src, dst, protocol, id]

/-- The probe ends at the first slot that can be used. -/
theorem lookup_of_inspect {platform : Platform} {state : SpatialDefragmenter} {step : Nat}
    {target : Nat × Slot} (inWindow : step < 8)
    (skipped : ∀ earlier < step, state.inspect platform fragment earlier = none)
    (here : state.inspect platform fragment step = some target) :
    state.lookup platform fragment = some target := by
  have split : List.range 8 = List.range step ++ step :: List.range' (step + 1) (7 - step) := by
    interval_cases step <;> rfl
  rw [SpatialDefragmenter.lookup, split, List.findSome?_append]
  have before : (List.range step).findSome? (state.inspect platform fragment) = none :=
    List.findSome?_eq_none_iff.mpr fun earlier member => skipped earlier (List.mem_range.mp member)
  rw [before, List.findSome?_cons, here]
  rfl

/-- The probe finds a slot of the window that matches, or claims one. -/
theorem lookup_eq_some {platform : Platform} {state : SpatialDefragmenter} {index : Nat}
    (found : state.lookup platform fragment = some (index, slot)) :
    ∃ step < 8, index = probe platform fragment.frame step ∧
      ((state.slots index).isMatch fragment = true ∧ slot = state.slots index ∨
        slot = (state.slots index).claim fragment) := by
  obtain ⟨step, inWindow, here⟩ := List.exists_of_findSome?_eq_some found
  refine ⟨step, List.mem_range.mp inWindow, ?_⟩
  unfold SpatialDefragmenter.inspect at here
  dsimp only at here
  split_ifs at here with isMatch isClaimable
  · cases here
    exact ⟨rfl, Or.inl ⟨isMatch, rfl⟩⟩
  · cases here
    exact ⟨rfl, Or.inr rfl⟩

end

/-! ## The frame that is handed on -/

section Reassemble

variable (platform : Platform) (scratch : Memory) (slot : Slot) (frame : Memory)

/-- Outside the fields that are rewritten, the header is the fragment's. -/
theorem reassemble_header {address : Nat} (inside : address < 14 + (headerLen frame).toNat)
    (ipLenKept : address < 16 ∨ 18 ≤ address) (offsetKept : address < 20 ∨ 22 ≤ address)
    (checksumKept : address < 24 ∨ 26 ≤ address) :
    reassemble platform scratch slot frame address = frame address := by
  unfold reassemble
  rw [store_outside _ _ checksumKept, store_outside _ _ checksumKept,
    store_outside _ _ offsetKept, store_outside _ _ ipLenKept,
    copy_outside _ _ (Or.inl inside)]
  have copied : scratch.copy 0 frame 0 (14 + (headerLen frame).toNat) (0 + address) =
      frame (0 + address) :=
    copy_inside scratch frame inside
  rwa [Nat.zero_add] at copied

/-- The payload is the slot's buffer, if the header is a full one. -/
theorem reassemble_payload (full : 20 ≤ (headerLen frame).toNat)
    (inside : position < slot.totalExpectedLength.toNat) :
    reassemble platform scratch slot frame (14 + (headerLen frame).toNat + position) =
      slot.buffer position := by
  unfold reassemble
  rw [store_outside _ _ (by omega), store_outside _ _ (by omega),
    store_outside _ _ (by omega), store_outside _ _ (by omega),
    copy_inside _ _ inside, Nat.zero_add]

/-- The length field is the 16-bit sum of the header's and the payload's lengths. -/
theorem reassemble_ipLenHost :
    ipLenHost (reassemble platform scratch slot frame) =
      headerLen frame + slot.totalExpectedLength := by
  have stored : ipLen (reassemble platform scratch slot frame) =
      hostToNetwork16 (headerLen frame + slot.totalExpectedLength) := by
    unfold ipLen reassemble
    rw [load_store_apart _ _ (by decide), load_store_apart _ _ (by decide),
      load_store_apart _ _ (by decide)]
    exact load_store _ _ _ (by decide)
  rw [ipLenHost, stored, networkToHost16_hostToNetwork16]

variable (full : 20 ≤ (headerLen frame).toNat)

include full

/-- The frame's key is the key of the fragment that completed it. -/
theorem reassemble_key : frameKey (reassemble platform scratch slot frame) = frameKey frame := by
  have keep : ∀ address, address < 34 → (address < 16 ∨ 18 ≤ address) →
      (address < 20 ∨ 22 ≤ address) → (address < 24 ∨ 26 ≤ address) →
      reassemble platform scratch slot frame address = frame address := by
    intro address below
    exact reassemble_header platform scratch slot frame (by omega)
  unfold frameKey ipSrc ipDst ipProtocol ipId
  congr 1
  · exact load_congr fun index inside =>
      keep _ (by omega) (by omega) (by omega) (by omega)
  · exact load_congr fun index inside =>
      keep _ (by omega) (by omega) (by omega) (by omega)
  · exact keep _ (by omega) (by omega) (by omega) (by omega)
  · exact load_congr fun index inside =>
      keep _ (by omega) (by omega) (by omega) (by omega)

/-- So is its header length. -/
theorem reassemble_headerLen :
    headerLen (reassemble platform scratch slot frame) = headerLen frame := by
  unfold headerLen ihlVer
  rw [reassemble_header platform scratch slot frame (by omega) (by omega) (by omega) (by omega)]

end Reassemble

end SlabFlux.Net.Defragmenter
