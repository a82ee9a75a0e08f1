import SlabFlux.Lib.Execution
import SlabFlux.Net.Defragmenter.Slots

/-!
# Datagrams are not mixed

A slot is matched by source address and IP id only, so a slot claimed by one datagram
can take a fragment of another one.  While every matched slot carries the fragment's
whole key, each byte of a returned payload comes from a fragment with the frame's key,
and the length field is right as long as the header and the payload fit in it.
-/

namespace SlabFlux.Net.Defragmenter

open Lib
variable {fed : List Fragment} {slot : Slot}

/-- A fragment carries the given byte for a position of the datagram with a key. -/
def Supplies (fragment : Fragment) (key : Key) (position : Nat) (byte : BitVec 8) : Prop :=
  frameKey fragment.frame = key ∧ position ∈ covered fragment.frame ∧
    payloadByte fragment.frame position = byte

instance (fragment : Fragment) (key : Key) (position : Nat) (byte : BitVec 8) :
    Decidable (Supplies fragment key position byte) := by
  unfold Supplies
  infer_instance

/-- Every payload byte of a returned frame was supplied under the frame's key, and the
length field is the length of the header and the payload. -/
@[mk_iff] structure Reassembled.Faithful (fed : List Fragment) (returned : Reassembled) : Prop where
  payload : ∀ position < returned.length, ∃ fragment ∈ fed,
    Supplies fragment (frameKey returned.frame) position
      (returned.frame (14 + (headerLen returned.frame).toNat + position))
  length : (ipLenHost returned.frame).toNat = (headerLen returned.frame).toNat + returned.length

instance (fed : List Fragment) (returned : Reassembled) : Decidable (returned.Faithful fed) :=
  decidable_of_iff _ (Reassembled.faithful_iff fed returned).symm

theorem Reassembled.Faithful.mono {fed more : List Fragment} {returned : Reassembled}
    (faithful : returned.Faithful fed) : returned.Faithful (fed ++ more) where
  payload position inside := by
    obtain ⟨fragment, isFed, supplies⟩ := faithful.payload position inside
    exact ⟨fragment, List.mem_append_left _ isFed, supplies⟩
  length := faithful.length

/-- The fragment has a full header, every slot of its window that matches it carries its
key, and its header fits in front of what such a slot holds and of its own bytes. -/
@[mk_iff] structure Unmixed (platform : Platform) (state : System) (fragment : Fragment) :
    Prop where
  full : 20 ≤ (headerLen fragment.frame).toNat
  ownFits : (headerLen fragment.frame).toNat + endBytes fragment.frame ≤ 65535
  sameKey : ∀ step < 8, let slot := state.defragmenter.slots (probe platform fragment.frame step)
    slot.isMatch fragment = true → slot.key = frameKey fragment.frame
  heldFits : ∀ step < 8, let slot := state.defragmenter.slots (probe platform fragment.frame step)
    slot.isMatch fragment = true →
      (headerLen fragment.frame).toNat + slot.highestByteReceived.toNat ≤ 65535

instance (platform : Platform) (state : System) (fragment : Fragment) :
    Decidable (Unmixed platform state fragment) :=
  decidable_of_iff _ (unmixed_iff platform state fragment).symm

namespace Slot

/-- Every byte a slot holds was supplied under the slot's key. -/
def Backed (fed : List Fragment) (slot : Slot) : Prop :=
  ∀ position ∈ slot.present, ∃ fragment ∈ fed,
    Supplies fragment slot.key position (slot.buffer position)

namespace Backed

theorem mono {fed more : List Fragment} (backed : slot.Backed fed) : slot.Backed (fed ++ more) := by
  intro position held
  obtain ⟨fragment, isFed, supplies⟩ := backed position held
  exact ⟨fragment, List.mem_append_left _ isFed, supplies⟩

theorem of_empty (empty : slot.present = ∅) : slot.Backed fed := by
  intro position held
  rw [empty] at held
  exact absurd held (Finset.notMem_empty position)

/-- A slot takes a fragment with its own key. -/
theorem record {fragment : Fragment} (backed : slot.Backed fed)
    (fits : endBytes fragment.frame ≤ 65535) (sameKey : slot.key = frameKey fragment.frame) :
    (slot.record fragment.frame).Backed (fed ++ [fragment]) := by
  intro position held
  by_cases inside : position ∈ covered fragment.frame
  · refine ⟨fragment, List.mem_append_right _ (List.mem_singleton_self _), ?_⟩
    exact ⟨sameKey.symm, inside, (slot.buffer_record_of_mem inside).symm⟩
  · rw [present_record slot fits, Finset.mem_union] at held
    have before : position ∈ slot.present := held.resolve_right inside
    rw [slot.buffer_record_of_notMem inside]
    exact backed.mono position before

end Backed

end Slot

/-- What a run keeps: the slots' counters and bytes are in order, and so is every frame
returned so far. -/
structure Separated (state : System) : Prop where
  accounted : ∀ index, (state.defragmenter.slots index).Accounted
  backed : ∀ index, (state.defragmenter.slots index).Backed state.fed
  faithful : ∀ returned, some returned ∈ state.results → returned.Faithful state.fed

namespace Separated

variable {platform : Platform} {state : System} {fragment : Fragment}

theorem initial (scratch : Memory) : Separated (System.initial scratch) where
  accounted _ := Slot.Accounted.zeroed _
  backed _ := Slot.Backed.of_empty (Slot.present_zeroed _)
  faithful _ member := by simp [System.initial] at member

/-- The slot the probe ends at. -/
structure Ready (state : System) (fragment : Fragment) (slot : Slot) : Prop where
  accounted : slot.Accounted
  backed : slot.Backed state.fed
  sameKey : slot.key = frameKey fragment.frame
  fits : (headerLen fragment.frame).toNat + slot.highestByteReceived.toNat ≤ 65535

theorem ready (separated : Separated state) (unmixed : Unmixed platform state fragment)
    {index : Nat} (found : state.defragmenter.lookup platform fragment = some (index, slot)) :
    Ready state fragment slot := by
  obtain ⟨step, inWindow, rfl, ⟨isMatch, rfl⟩ | rfl⟩ := lookup_eq_some found
  · exact ⟨separated.accounted _, separated.backed _, unmixed.sameKey step inWindow isMatch,
      unmixed.heldFits step inWindow isMatch⟩
  · refine ⟨.claim _ _, .of_empty (Slot.present_claim _ _), rfl, ?_⟩
    have nothing : ((state.defragmenter.slots
        (probe platform fragment.frame step)).claim fragment).highestByteReceived.toNat = 0 :=
      rfl
    omega

/-- The frame made from a complete slot. -/
theorem faithful_of_complete (scratch : Memory) (full : 20 ≤ (headerLen fragment.frame).toNat)
    (accounted : slot.Accounted) (backed : slot.Backed fed)
    (sameKey : slot.key = frameKey fragment.frame)
    (fits : (headerLen fragment.frame).toNat + slot.highestByteReceived.toNat ≤ 65535)
    (complete : slot.isComplete = true) :
    Reassembled.Faithful fed
      { frame := reassemble platform scratch slot fragment.frame
        length := slot.totalExpectedLength.toNat } where
  payload position inside := by
    have held : position ∈ slot.present := by
      rw [accounted.present_of_complete complete]
      exact Finset.mem_range.mpr inside
    obtain ⟨supplier, isFed, supplies⟩ := backed position held
    refine ⟨supplier, isFed, ?_⟩
    dsimp only
    rw [reassemble_key _ _ _ _ full, reassemble_headerLen _ _ _ _ full,
      reassemble_payload _ _ _ _ full inside, ← sameKey]
    exact supplies
  length := by
    dsimp only
    have total : slot.totalExpectedLength.toNat ≤ slot.highestByteReceived.toNat := by
      rw [← Finset.card_range slot.totalExpectedLength.toNat,
        ← accounted.present_of_complete complete]
      exact accounted.card_le
    rw [reassemble_ipLenHost, reassemble_headerLen _ _ _ _ full, BitVec.toNat_add]
    omega

/-- A call writes one slot: enough to know what it writes and what it returns. -/
theorem written (separated : Separated state) (index : Nat) (scratch : Memory)
    {result : Option Reassembled} (accounted : slot.Accounted)
    (backed : slot.Backed (state.fed ++ [fragment]))
    (faithful : ∀ returned ∈ result, returned.Faithful (state.fed ++ [fragment])) :
    Separated
      { defragmenter :=
          { slots := setSlot state.defragmenter.slots index slot
            reassembledFrame := scratch }
        fed := state.fed ++ [fragment]
        results := state.results ++ [result] } where
  accounted := by
    rw [setSlot_eq]
    exact (Function.forall_update_iff _ fun _ (slot : Slot) => slot.Accounted).mpr
      ⟨accounted, fun other _ => separated.accounted other⟩
  backed := by
    rw [setSlot_eq]
    exact (Function.forall_update_iff _ fun _ (slot : Slot) => slot.Backed _).mpr
      ⟨backed, fun other _ => (separated.backed other).mono⟩
  faithful returned member := by
    rcases List.mem_append.mp member with before | new
    · exact (separated.faithful returned before).mono
    · exact faithful returned (List.mem_singleton.mp new).symm

theorem step (separated : Separated state) (unmixed : Unmixed platform state fragment) :
    Separated (state.step platform fragment) := by
  unfold System.step SpatialDefragmenter.processFragment
  cases found : state.defragmenter.lookup platform fragment with
  | none =>
      refine ⟨separated.accounted, fun index => (separated.backed index).mono,
        fun returned member => ?_⟩
      have before : some returned ∈ state.results := by simpa using member
      exact (separated.faithful returned before).mono
  | some target =>
      obtain ⟨index, slot⟩ := target
      have ready := separated.ready unmixed found
      dsimp only
      cases outcome : slot.accept fragment with
      | none => exact separated.written _ _ ready.accounted ready.backed.mono (by simp)
      | some recorded =>
          obtain ⟨valid, apart, rfl⟩ := Slot.accept_eq_some_iff.mp outcome
          obtain ⟨_, _, fits, _⟩ := fragment.lengthsValid_iff.mp valid
          have accounted := ready.accounted.record valid apart
          have backed := ready.backed.record fits ready.sameKey
          dsimp only
          split_ifs with complete
          · refine separated.written index _
              ⟨accounted.counted, accounted.below, accounted.bounded⟩ backed ?_
            intro returned isReturned
            cases isReturned
            refine faithful_of_complete _ unmixed.full accounted backed ready.sameKey ?_ complete
            have own := unmixed.ownFits
            have held := ready.fits
            rw [Slot.Accounted.highest_record slot fits]
            omega
          · exact separated.written _ _ accounted backed (by simp)

end Separated

/-- In every run in which each fragment meets `Unmixed`, every returned frame holds only
bytes of its own datagram and states its length right. -/
theorem returned_faithful (platform : Platform) (scratch : Memory) (fragments : List Fragment)
    (unmixed : Admissible (System.step platform) (Unmixed platform) (.initial scratch) fragments) :
    let final := execute (System.step platform) (.initial scratch) fragments
    ∀ returned, some returned ∈ final.results → returned.Faithful final.fed :=
  (execute_invariant_of_admissible (fun _ _ separated unmixed => separated.step unmixed)
    (Separated.initial scratch) unmixed).faithful

/-- Two fragments of one datagram of nine bytes. -/
def twoFragments : List Fragment :=
  [.ofPayload ⟨1, 2, 6, 7⟩ 0 true (List.replicate 8 0xAA) 0,
    .ofPayload ⟨1, 2, 6, 7⟩ 8 false [0xBB] 1]

theorem returned_faithful_two :
    Admissible (System.step smallPlatform) (Unmixed smallPlatform)
      (.initial fun _ => 0) twoFragments ∧
    ∀ returned, some returned ∈ (execute (System.step smallPlatform)
        (.initial fun _ => 0) twoFragments).results →
      returned.Faithful (execute (System.step smallPlatform)
        (.initial fun _ => 0) twoFragments).fed :=
  have unmixed : Admissible (System.step smallPlatform) (Unmixed smallPlatform)
      (.initial fun _ => 0) twoFragments := by decide +kernel
  ⟨unmixed, returned_faithful smallPlatform (fun _ => 0) twoFragments unmixed⟩

/-- Two fragments with the same source and id, for different destinations and
protocols.  The hashed words are equal, so every hash function sends them to the same
window. -/
def mixedFragments : List Fragment :=
  [.ofPayload ⟨1, 2, 6, 7⟩ 0 true (List.replicate 8 0xAA) 0,
    .ofPayload ⟨1, 2 ^^^ 6 ^^^ 17, 17, 7⟩ 8 false [0xBB] 1]

/-- The second fragment completes the first one's slot: the frame that is returned has
the second one's key and the first one's bytes. -/
theorem returned_mixed :
    ∃ returned, some returned ∈ (execute (System.step smallPlatform)
        (.initial fun _ => 0) mixedFragments).results ∧
      ¬returned.Faithful (execute (System.step smallPlatform)
        (.initial fun _ => 0) mixedFragments).fed := by
  refine ⟨((execute (System.step smallPlatform) (.initial fun _ => 0)
    mixedFragments).results.getLastD none).getD ⟨fun _ => 0, 0⟩, ?_, ?_⟩
  · exact List.mem_of_getLast? rfl
  · decide +kernel

end SlabFlux.Net.Defragmenter
