import SlabFlux.Dist.CausalSequencer.Batch
import SlabFlux.Lib.Execution
import SlabFlux.Lib.Ring

/-!
# Delivery in log order

A waiting packet belongs to the expected position or to one less than a window ahead of
it, and its slot is the one of its position; then the slot of the expected position can
only hold the expected packet.

The direct path of `push_and_align` keeps this only when the expected packet is not
already waiting.  Where it is, the second copy is handed out, the first one stays behind
with its bit set, and one window later the poll takes it for the packet of a position
that has not arrived.
-/

namespace SlabFlux.Dist.CausalSequencer

open Lib
open Net.OooMatrix (Mask)

universe u

variable {α : Type u} {packet : NetworkPacket α}

/-- A call of the sequencer's interface. -/
inductive Call (α : Type u)
  | push (packet : NetworkPacket α)
  | pollReady
  | pollBatch (maxCount : Nat)

/-- One pointer handed to the caller and the value of `next_expected_lsn_` it was handed
out for. -/
structure Delivery (α : Type u) where
  expected : BitVec 64
  packet : Option (NetworkPacket α)
  deriving DecidableEq

/-- The sequencer with everything it has returned so far. -/
structure System (α : Type u) where
  sequencer : CausalSequencer α
  returned : List (Delivery α)

/-- The deliveries of a call that hands out these pointers from `expected` on. -/
def deliveries (expected : BitVec 64) :
    List (Option (NetworkPacket α)) → List (Delivery α)
  | [] => []
  | packet :: rest => ⟨expected, packet⟩ :: deliveries (expected + 1) rest

namespace System

def initial : System α where
  sequencer := CausalSequencer.initial
  returned := []

/-- Record what a call hands out; a call of `push_and_align` or `poll_ready` that
returns `nullptr` hands out nothing. -/
def record (system : System α)
    (outcome : List (Option (NetworkPacket α)) × CausalSequencer α) : System α where
  sequencer := outcome.2
  returned := system.returned ++ deliveries system.sequencer.nextExpectedLsn outcome.1

/-- The pointer returned by a call, if it is not `nullptr`. -/
def pointer (outcome : Option (NetworkPacket α) × CausalSequencer α) :
    List (Option (NetworkPacket α)) × CausalSequencer α :=
  (outcome.1.toList.map some, outcome.2)

def step (system : System α) : Call α → System α
  | .push packet => system.record (pointer (system.sequencer.pushAndAlign packet))
  | .pollReady => system.record (pointer system.sequencer.pollReady)
  | .pollBatch maxCount => system.record (system.sequencer.pollBatch maxCount)

/-- The call does not push a second copy of the expected packet while the first copy is
still waiting in the window. -/
def NotAlreadyWaiting (system : System α) : Call α → Prop
  | .push packet => packet.lsn = system.sequencer.nextExpectedLsn →
      system.sequencer.ready = false
  | .pollReady => True
  | .pollBatch _ => True

instance (system : System α) (call : Call α) : Decidable (system.NotAlreadyWaiting call) := by
  cases call <;> unfold NotAlreadyWaiting <;> infer_instance

end System

/-- The packets returned have the numbers `0, 1, 2, …` in this order, each returned for
its own number. -/
def InLogOrder (returned : List (Delivery α)) : Prop :=
  ∀ position, (inBounds : position < returned.length) →
    returned[position].expected = BitVec.ofNat 64 position ∧
      ∃ packet, returned[position].packet = some packet ∧
        packet.lsn = BitVec.ofNat 64 position

/-- What every run keeps: the expected number counts the packets returned, and a waiting
packet is in the slot of its position, at most a window ahead. -/
structure Aligned (system : System α) : Prop where
  counted : system.sequencer.nextExpectedLsn = BitVec.ofNat 64 system.returned.length
  inLogOrder : InLogOrder system.returned
  waiting : ∀ idx < windowSize, system.sequencer.presenceMasks.bit idx = true →
    ∃ packet position, system.sequencer.slots idx = some packet ∧
      packet.lsn = BitVec.ofNat 64 position ∧ position % windowSize = idx ∧
      system.returned.length ≤ position ∧
      position < system.returned.length + windowSize

theorem InLogOrder.snoc {returned : List (Delivery α)} (inOrder : InLogOrder returned)
    (lsn : packet.lsn = BitVec.ofNat 64 returned.length) :
    InLogOrder (returned ++ [⟨BitVec.ofNat 64 returned.length, some packet⟩]) := by
  intro position inBounds
  by_cases earlier : position < returned.length
  · rw [List.getElem_append_left earlier]
    exact inOrder position earlier
  · obtain rfl : position = returned.length := by
      rw [List.length_append, List.length_singleton] at inBounds
      omega
    simp [lsn]

theorem aligned_initial : Aligned (System.initial : System α) where
  counted := rfl
  inLogOrder := by
    intro position inBounds
    exact absurd inBounds (Nat.not_lt_zero position)
  waiting := by
    intro idx _ set
    simp [System.initial, initial, Mask.bit] at set

namespace Aligned

variable {system : System α}

section

variable (aligned : Aligned system)
include aligned

/-- The expected packet is handed out, and the packets that go on waiting are elsewhere. -/
theorem delivered {next : CausalSequencer α}
    (lsn : packet.lsn = BitVec.ofNat 64 system.returned.length)
    (moved : next.nextExpectedLsn = system.sequencer.nextExpectedLsn + 1)
    (waiting : ∀ idx, next.presenceMasks.bit idx = true →
      idx ≠ slotOf system.sequencer.nextExpectedLsn ∧
        system.sequencer.presenceMasks.bit idx = true ∧
        next.slots idx = system.sequencer.slots idx) :
    Aligned (system.record ([some packet], next)) := by
  have counted := aligned.counted
  constructor
  · rw [System.record, moved, counted]
    simp [deliveries, BitVec.ofNat_add]
  · rw [System.record, counted]
    exact aligned.inLogOrder.snoc lsn
  · intro idx idxLt present
    obtain ⟨elsewhere, before, kept⟩ := waiting idx present
    obtain ⟨held, position, slot, heldLsn, place, low, high⟩ := aligned.waiting idx idxLt before
    have beyond : position ≠ system.returned.length := by
      rintro rfl
      rw [counted, slotOf_ofNat] at elsewhere
      exact elsewhere place.symm
    refine ⟨held, position, kept.trans slot, heldLsn, place, ?_, ?_⟩ <;>
      simp only [System.record, deliveries, List.length_append, List.length_singleton] <;>
      omega

/-- The direct path, with the expected packet not waiting. -/
theorem direct (lsn : packet.lsn = system.sequencer.nextExpectedLsn)
    (absent : system.sequencer.ready = false) :
    Aligned (system.record ([some packet],
      { system.sequencer with
        nextExpectedLsn := system.sequencer.nextExpectedLsn + 1 })) := by
  refine aligned.delivered (lsn.trans aligned.counted) rfl fun idx set => ⟨?_, set, rfl⟩
  rintro rfl
  rw [ready_eq_bit] at absent
  exact Bool.noConfusion (absent.symm.trans set)

/-- The position of a packet that the future path accepts. -/
theorem position_of_ahead {lsn : BitVec 64} (ahead : system.sequencer.nextExpectedLsn < lsn)
    (near : lsn < system.sequencer.nextExpectedLsn + BitVec.ofNat 64 windowSize) :
    ∃ position, lsn = BitVec.ofNat 64 position ∧ system.returned.length ≤ position ∧
      position < system.returned.length + windowSize := by
  rw [aligned.counted] at ahead near
  have low : system.returned.length % 2 ^ 64 < lsn.toNat := by
    simpa [BitVec.lt_def] using ahead
  have high : lsn.toNat < (system.returned.length + windowSize) % 2 ^ 64 := by
    simpa [BitVec.lt_def] using near
  refine ⟨system.returned.length + (lsn.toNat - system.returned.length % 2 ^ 64), ?_,
    by omega, by omega⟩
  apply BitVec.eq_of_toNat_eq
  rw [BitVec.toNat_ofNat]
  omega

theorem stored (ahead : system.sequencer.nextExpectedLsn < packet.lsn)
    (near : packet.lsn < system.sequencer.nextExpectedLsn + BitVec.ofNat 64 windowSize) :
    Aligned (system.record ([], system.sequencer.store (slotOf packet.lsn) packet)) := by
  obtain ⟨position, lsn, low, high⟩ := aligned.position_of_ahead ahead near
  have kept : (system.record
      ([], system.sequencer.store (slotOf packet.lsn) packet)).returned =
      system.returned :=
    List.append_nil _
  constructor
  · rw [kept]
    exact aligned.counted
  · rw [kept]
    exact aligned.inLogOrder
  · intro idx idxLt present
    rw [kept]
    have set : (system.sequencer.store (slotOf packet.lsn) packet).presenceMasks.bit idx =
        true := present
    rw [bit_store] at set
    by_cases here : idx = slotOf packet.lsn
    · refine ⟨packet, position, ?_, lsn, ?_, low, high⟩
      · rw [here]
        exact Function.update_self _ _ _
      · rw [here, lsn, slotOf_ofNat]
    · have before : system.sequencer.presenceMasks.bit idx = true := by
        simpa [here] using set
      obtain ⟨held, heldAt, slot, rest⟩ := aligned.waiting idx idxLt before
      refine ⟨held, heldAt, ?_, rest⟩
      exact (Function.update_of_ne here _ _).trans slot

/-- The packet waiting in the expected slot is the expected one. -/
theorem expected_packet (isReady : system.sequencer.ready = true) :
    ∃ packet, system.sequencer.slots (slotOf system.sequencer.nextExpectedLsn) =
        some packet ∧
      packet.lsn = BitVec.ofNat 64 system.returned.length := by
  rw [ready_eq_bit] at isReady
  obtain ⟨packet, position, slot, lsn, place, low, high⟩ :=
    aligned.waiting _ (slotOf_lt _) isReady
  rw [aligned.counted, slotOf_ofNat] at place
  have same : position = system.returned.length := by
    by_contra differ
    exact Ring.slot_ne (Nat.lt_of_le_of_ne low (Ne.symm differ)) high place.symm
  exact ⟨packet, slot, same ▸ lsn⟩

theorem released (isReady : system.sequencer.ready = true) :
    Aligned (system.record
      ([system.sequencer.slots (slotOf system.sequencer.nextExpectedLsn)],
        system.sequencer.release)) := by
  obtain ⟨packet, slot, lsn⟩ := aligned.expected_packet isReady
  rw [slot]
  refine aligned.delivered lsn rfl fun idx set => ?_
  rw [bit_release, Bool.and_eq_true, decide_eq_true_iff] at set
  exact ⟨set.1, set.2, Function.update_of_ne set.1 _ _⟩

theorem polled (count : Nat) : Aligned (system.record (pollTimes count system.sequencer)) := by
  induction count generalizing system with
  | zero => simpa [System.record, pollTimes, deliveries] using aligned
  | succ count ih =>
      cases isReady : system.sequencer.ready with
      | false =>
          rw [pollTimes_of_not_ready isReady]
          simpa [System.record, deliveries] using aligned
      | true =>
          have later := ih (aligned.released isReady)
          simpa [System.record, pollTimes, isReady, deliveries, release] using later

theorem pollReady : Aligned (system.record (System.pointer system.sequencer.pollReady)) := by
  have same : System.pointer system.sequencer.pollReady =
      pollTimes 1 system.sequencer := by
    cases isReady : system.sequencer.ready with
    | false => simp [System.pointer, CausalSequencer.pollReady, pollTimes, isReady]
    | true =>
        obtain ⟨packet, slot, -⟩ := aligned.expected_packet isReady
        simp [System.pointer, CausalSequencer.pollReady, pollTimes, isReady, slot]
  rw [same]
  exact aligned.polled 1

theorem step {call : Call α} (fresh : system.NotAlreadyWaiting call) :
    Aligned (system.step call) := by
  cases call with
  | push packet =>
      rw [System.step, pushAndAlign]
      split_ifs with expected ahead
      · exact aligned.direct expected (fresh expected)
      · exact aligned.stored ahead.1 ahead.2
      · simpa [System.record, System.pointer, deliveries] using aligned
  | pollReady => exact aligned.pollReady
  | pollBatch maxCount =>
      rw [System.step, pollBatch_eq_pollTimes]
      exact aligned.polled maxCount

end

end Aligned

/-- Along every run that never pushes a second copy of the expected packet while the
first one waits, the packets come out in log order. -/
theorem returned_inLogOrder (calls : List (Call α))
    (fresh : Admissible System.step System.NotAlreadyWaiting System.initial calls) :
    InLogOrder (execute System.step (System.initial : System α) calls).returned := by
  have aligned : Aligned (execute System.step (System.initial : System α) calls) :=
    execute_invariant_of_admissible (fun _ _ aligned fresh => aligned.step fresh)
      aligned_initial fresh
  exact aligned.inLogOrder

/-- A packet that carries nothing but its number. -/
def numbered (lsn : Nat) : NetworkPacket Unit := ⟨BitVec.ofNat 64 lsn, ()⟩

/-- A reordered window with a late duplicate, a packet too far ahead and both polls. -/
def reorderedCalls : List (Call Unit) :=
  [.push (numbered 2), .push (numbered 1), .push (numbered 5000), .push (numbered 0),
    .pollReady, .push (numbered 0), .push (numbered 3), .pollBatch 64]

theorem returned_inLogOrder_reordered :
    Admissible System.step System.NotAlreadyWaiting System.initial reorderedCalls ∧
      InLogOrder (execute System.step System.initial reorderedCalls).returned :=
  have fresh : Admissible System.step System.NotAlreadyWaiting System.initial
      reorderedCalls := by decide +kernel
  ⟨fresh, returned_inLogOrder reorderedCalls fresh⟩

/-- Packets that arrive in order are handed out directly: slots and presence bits stay
as they were. -/
theorem execute_push_range (system : System Unit) {first : Nat} (count : Nat)
    (expected : system.sequencer.nextExpectedLsn = BitVec.ofNat 64 first) :
    let final := execute System.step system
      ((List.range' first count).map fun lsn => .push (numbered lsn))
    final.sequencer = { system.sequencer with
        nextExpectedLsn := BitVec.ofNat 64 (first + count) } ∧
      final.returned.length = system.returned.length + count := by
  induction count generalizing system first with
  | zero =>
      rw [Nat.add_zero, ← expected]
      exact ⟨rfl, rfl⟩
  | succ count ih =>
      have direct : system.step (.push (numbered first)) =
          { sequencer := { system.sequencer with
              nextExpectedLsn := BitVec.ofNat 64 (first + 1) }
            returned := system.returned ++
              [⟨BitVec.ofNat 64 first, some (numbered first)⟩] } := by
        have lsn : (numbered first).lsn = system.sequencer.nextExpectedLsn := expected.symm
        rw [System.step, pushAndAlign, if_pos lsn, BitVec.ofNat_add]
        simp [System.record, System.pointer, deliveries, expected]
      rw [List.range'_succ, List.map_cons, execute_cons, direct]
      obtain ⟨sequencer, length⟩ := ih
        { sequencer := { system.sequencer with
            nextExpectedLsn := BitVec.ofNat 64 (first + 1) }
          returned := system.returned ++
            [⟨BitVec.ofNat 64 first, some (numbered first)⟩] } rfl
      refine ⟨?_, ?_⟩
      · rw [sequencer, Nat.add_assoc, Nat.add_comm 1 count]
      · rw [length, List.length_append, List.length_singleton]
        omega

/-- Packet `1` waits, and its duplicate is handed out by the direct path. -/
def duplicateCalls : List (Call Unit) :=
  [.push (numbered 1), .push (numbered 0), .push (numbered 1)]

/-- The packets up to the end of the window then arrive in order. -/
def windowCalls : List (Call Unit) :=
  (List.range' 2 2047).map fun lsn => .push (numbered lsn)

/-- The next poll returns packet `1` a second time, for position `2049`. -/
theorem duplicate_returned_again :
    ¬InLogOrder (execute System.step System.initial
      (duplicateCalls ++ windowCalls ++ [.pollReady])).returned := by
  have expected : (execute System.step System.initial
      duplicateCalls).sequencer.nextExpectedLsn = BitVec.ofNat 64 2 := by
    decide +kernel
  obtain ⟨sequencer, length⟩ := execute_push_range
    (execute System.step System.initial duplicateCalls) 2047 expected
  rw [execute_append, execute_append, windowCalls]
  obtain ⟨final, finalEq⟩ : ∃ final, execute System.step
      (execute System.step System.initial duplicateCalls)
      ((List.range' 2 2047).map fun lsn => .push (numbered lsn)) = final := ⟨_, rfl⟩
  rw [finalEq] at sequencer length ⊢
  have count : (execute System.step System.initial duplicateCalls).returned.length = 2 := by
    decide +kernel
  have polled : final.sequencer.pollReady.1 = some (numbered 1) := by
    rw [sequencer]
    decide +kernel
  intro inOrder
  have last : (final.step .pollReady).returned = final.returned ++
      [⟨final.sequencer.nextExpectedLsn, some (numbered 1)⟩] := by
    rw [System.step, System.pointer, polled]
    rfl
  rw [execute_cons, execute_nil, last] at inOrder
  obtain ⟨-, packet, returned, lsn⟩ := inOrder 2049 (by
    rw [List.length_append, length, List.length_singleton]
    decide)
  rw [List.getElem_append_right (by omega)] at returned
  simp only [List.getElem_singleton] at returned
  cases returned
  exact absurd lsn (by decide)

end SlabFlux.Dist.CausalSequencer
