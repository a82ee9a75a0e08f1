import SlabFlux.Net.OooMatrix.Mask

/-!
# The causal sequencer

`causal_sequencer` puts log packets that arrive in any order back into the order of
their log sequence numbers.  A packet with the expected number is handed out at once;
a packet up to one window ahead waits in a slot, and one bit per slot records that it
does.  The waiting packets are handed out one at a time by `poll_ready` or by whole
stretches of presence bits by `poll_batch`.
-/

namespace SlabFlux.Dist

open Net.OooMatrix (Mask)

universe u

/-- The part of `network_packet` the sequencer reads, and what the packet carries. -/
structure NetworkPacket (α : Type u) where
  lsn : BitVec 64
  contents : α
  deriving DecidableEq

def windowSize : Nat := 2048

/-- `MASK`. -/
def windowMask : Nat := windowSize - 1

/-- `slots_`, `presence_masks_` and `next_expected_lsn_`; an empty slot is `nullptr`. -/
structure CausalSequencer (α : Type u) where
  slots : Nat → Option (NetworkPacket α)
  presenceMasks : Mask
  nextExpectedLsn : BitVec 64

namespace CausalSequencer

variable {α : Type u}

/-- The constructor. -/
def initial : CausalSequencer α where
  slots := fun _ => none
  presenceMasks := fun _ => 0
  nextExpectedLsn := 0

/-- The slot of a log sequence number. -/
def slotOf (lsn : BitVec 64) : Nat :=
  (lsn &&& BitVec.ofNat 64 windowMask).toNat

variable (sequencer : CausalSequencer α)

/-- Put a packet into a slot and set the slot's presence bit. -/
def store (idx : Nat) (packet : NetworkPacket α) :
    CausalSequencer α :=
  { sequencer with
    slots := Function.update sequencer.slots idx (some packet)
    presenceMasks := Function.update sequencer.presenceMasks (idx / 64)
      (sequencer.presenceMasks (idx / 64) ||| (1#64 <<< (idx % 64))) }

def pushAndAlign (packet : NetworkPacket α) :
    Option (NetworkPacket α) × CausalSequencer α :=
  let lsn := packet.lsn
  if lsn = sequencer.nextExpectedLsn then
    (some packet, { sequencer with nextExpectedLsn := sequencer.nextExpectedLsn + 1 })
  else if sequencer.nextExpectedLsn < lsn ∧
      lsn < sequencer.nextExpectedLsn + BitVec.ofNat 64 windowSize then
    (none, sequencer.store (slotOf lsn) packet)
  else
    (none, sequencer)

/-- The test of `poll_ready`: the presence bit of the expected number is set. -/
def ready : Bool :=
  sequencer.presenceMasks.test (slotOf sequencer.nextExpectedLsn)

/-- What `poll_ready` does to the slot, the presence bit and the expected number. -/
def release : CausalSequencer α :=
  let idx := slotOf sequencer.nextExpectedLsn
  { slots := Function.update sequencer.slots idx none
    presenceMasks := Function.update sequencer.presenceMasks (idx / 64)
      (sequencer.presenceMasks (idx / 64) &&& ~~~(1#64 <<< (idx % 64)))
    nextExpectedLsn := sequencer.nextExpectedLsn + 1 }

def pollReady :
    Option (NetworkPacket α) × CausalSequencer α :=
  if sequencer.ready then
    (sequencer.slots (slotOf sequencer.nextExpectedLsn), sequencer.release)
  else
    (none, sequencer)

/-- The inner loop of `poll_batch`: read and empty `count` slots from `idx` on. -/
def takeSlots (slots : Nat → Option (NetworkPacket α)) (idx : Nat) :
    Nat → List (Option (NetworkPacket α)) × (Nat → Option (NetworkPacket α))
  | 0 => ([], slots)
  | count + 1 =>
      let slot := idx &&& windowMask
      let rest := takeSlots (Function.update slots slot none) (idx + 1) count
      (slots slot :: rest.1, rest.2)

/-- The length of the stretch of ones at the bottom of the shifted presence word. -/
def contiguous (currentMask : BitVec 64) (bitIdx : Nat) : Nat :=
  let invMask := ~~~currentMask
  if invMask = 0 then 64 - bitIdx else invMask.ctz.toNat

/-- One round of `poll_batch` that hands out `toFetch` packets. -/
def fetch (toFetch : Nat) :
    List (Option (NetworkPacket α)) × CausalSequencer α :=
  let idx := slotOf sequencer.nextExpectedLsn
  let taken := takeSlots sequencer.slots idx toFetch
  let clearMask := Mask.inWord (idx % 64) toFetch
  (taken.1,
    { slots := taken.2
      presenceMasks := Function.update sequencer.presenceMasks (idx / 64)
        (sequencer.presenceMasks (idx / 64) &&& ~~~clearMask)
      nextExpectedLsn := sequencer.nextExpectedLsn + BitVec.ofNat 64 toFetch })

/-- The loop of `poll_batch` with `remaining = max_count - count`.  Every round hands
out at least one packet, so `remaining` rounds are enough. -/
def pollRounds : (rounds remaining : Nat) → CausalSequencer α →
    List (Option (NetworkPacket α)) × CausalSequencer α
  | 0, _, sequencer => ([], sequencer)
  | rounds + 1, remaining, sequencer =>
      let idx := slotOf sequencer.nextExpectedLsn
      let currentMask := sequencer.presenceMasks (idx / 64) >>> (idx % 64)
      if remaining = 0 then ([], sequencer)
      else if currentMask &&& 1 = 0 then ([], sequencer)
      else
        let toFetch := min (contiguous currentMask (idx % 64)) remaining
        let fetched := sequencer.fetch toFetch
        let rest := pollRounds rounds (remaining - toFetch) fetched.2
        (fetched.1 ++ rest.1, rest.2)

/-- `poll_batch`: the packets written to `out_batch`. -/
def pollBatch (maxCount : Nat) :
    List (Option (NetworkPacket α)) × CausalSequencer α :=
  pollRounds maxCount maxCount sequencer

end CausalSequencer

end SlabFlux.Dist
