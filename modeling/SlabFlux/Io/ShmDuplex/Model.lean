import SlabFlux.Lib.Execution
import SlabFlux.Lib.Memory

/-!
# The shared memory duplex

`shm_duplex` connects two processes by two rings of slots in shared memory.  A sender copies
frames into slots and publishes a tail, a receiver hands out pointers into the slots and
publishes a head.  Which counter each side reads and writes is set up in the constructor.

Each side runs an egress and an ingress loop; one move is at most one access to a shared
counter or one slot.  A receiving application finishes with the pointers handed to it in
any order.

The fused metadata word has the connection in its upper half, but the frame has it in
front: a reader finds the two header fields exchanged.  The payload is copied as it is.
-/

namespace SlabFlux.Io.ShmDuplex

open Lib

/-- `raw_tcp_frame`. -/
structure RawTcpFrame where
  connectionId : BitVec 32
  payloadLength : BitVec 16
  /-- `data[1460]`. -/
  data : Memory
  payload_le : payloadLength.toNat ≤ 1460

/-- What an application can read of a frame. -/
@[ext]
structure FrameView where
  connectionId : BitVec 32
  payloadLength : BitVec 16
  payload : Bytes
  deriving DecidableEq

variable (frame : RawTcpFrame)

def RawTcpFrame.view : FrameView where
  connectionId := frame.connectionId
  payloadLength := frame.payloadLength
  payload := frame.data.bytes 0 frame.payloadLength.toNat

/-! ## Slots -/

/-- The fused metadata word. -/
def RawTcpFrame.meta : BitVec 64 :=
  (frame.connectionId.setWidth 64 <<< 32) ||| frame.payloadLength.setWidth 64

/-- `offsetof(raw_tcp_frame, data)`. -/
def dataOffset : Nat := 6

/-- The loop over vectors of 64 bytes. -/
def copyVectors (slot source : Memory) : Nat → Memory
  | 0 => slot
  | v + 1 => (copyVectors slot source v).copy (dataOffset + v * 64) source (v * 64) 64

/-- The vectors and the remaining bytes. -/
def copyPayload (slot source : Memory) (bytesToCopy : Nat) : Memory :=
  let slot := copyVectors slot source (bytesToCopy / 64)
  if bytesToCopy % 64 ≠ 0 then
    slot.copy (dataOffset + bytesToCopy / 64 * 64) source (bytesToCopy / 64 * 64)
      (bytesToCopy % 64)
  else slot

/-- One round of the loop of `process_egress_burst`. -/
def writeFrame (slot : Memory) (frame : RawTcpFrame) : Memory :=
  copyPayload (slot.store 8 0 frame.meta) frame.data frame.payloadLength.toNat

/-- A slot read through a pointer to its `frame`. -/
def readFrame (slot : Memory) : FrameView where
  connectionId := slot.load 32 4 0
  payloadLength := slot.load 16 2 4
  payload := slot.bytes dataOffset (slot.load 16 2 4).toNat

/-! ## Roles -/

inductive Role
  | primary
  | secondary
  deriving DecidableEq

def Role.other : Role → Role
  | .primary => .secondary
  | .secondary => .primary

/-- The counters of `shm_control_block`. -/
inductive Counter
  | txTail
  | txHead
  | rxTail
  | rxHead
  deriving DecidableEq

/-- The slot arrays of `shm_data_matrix`. -/
inductive SlotArray
  | txSlots
  | rxSlots
  deriving DecidableEq

namespace Role

def remoteTxHead : Role → Counter
  | .primary => .rxHead
  | .secondary => .txHead

def localTxTailPtr : Role → Counter
  | .primary => .txTail
  | .secondary => .rxTail

def localTxSlots : Role → SlotArray
  | .primary => .txSlots
  | .secondary => .rxSlots

def remoteRxTail : Role → Counter
  | .primary => .txTail
  | .secondary => .rxHead

def localRxHeadPtr : Role → Counter
  | .primary => .rxHead
  | .secondary => .txHead

def localRxSlots : Role → SlotArray
  | .primary => .rxSlots
  | .secondary => .txSlots

end Role

/-! ## The loops -/

/-- `Capacity` is a power of two. -/
structure Instantiation where
  exponent : Nat
  representable : exponent < 64

namespace Instantiation

variable (inst : Instantiation)

def capacity : Nat := 2 ^ inst.exponent

/-- `cursor & MASK`. -/
def slotAt (cursor : BitVec 64) : Nat :=
  (cursor &&& BitVec.ofNat 64 (2 ^ inst.exponent - 1)).toNat

end Instantiation

/-- The egress loop between two bursts, or with part of a burst written. -/
inductive EgressPhase
  | idle
  | writing (written todo : List RawTcpFrame)

/-- The ingress loop between two bursts, with the pointers of a burst to hand over, or with
the head to publish. -/
inductive IngressPhase
  | idle
  | pushing (burstCount : Nat)
  | storing

/-- The sending half of an endpoint, and the frames it has published. -/
structure Egress where
  localTxTail : BitVec 64
  localTxHead : BitVec 64
  phase : EgressPhase
  sent : List RawTcpFrame

/-- The receiving half of an endpoint, the frames it has handed out in order, and which of
them the application has finished with. -/
structure Ingress where
  localRxHead : BitVec 64
  localRxTail : BitVec 64
  phase : IngressPhase
  taken : List FrameView
  finished : Nat → Bool

/-- The segment and both endpoints. -/
structure State where
  counter : Counter → BitVec 64
  slots : SlotArray → Nat → Memory
  egress : Role → Egress
  ingress : Role → Ingress

inductive Move
  /-- `process_egress_burst` up to its loop; `popped` is what `pop_batch` returns. -/
  | beginEgress (popped : List RawTcpFrame)
  /-- One round of its loop. -/
  | writeSlot
  /-- The store of the tail. -/
  | publishTail
  /-- `process_ingress_burst` up to `push_batch`. -/
  | beginIngress
  /-- `push_batch` takes up to `accepted` pointers. -/
  | handOver (accepted : Nat)
  /-- The store of the head. -/
  | publishHead
  /-- The application is done with a frame. -/
  | finish (position : Nat)

namespace State

variable (inst : Instantiation)

/-- The segment after the `memset` of the primary. -/
def initial : State where
  counter := fun _ => 0
  slots := fun _ _ _ => 0
  egress := fun _ => { localTxTail := 0, localTxHead := 0, phase := .idle, sent := [] }
  ingress := fun _ =>
    { localRxHead := 0, localRxTail := 0, phase := .idle, taken := []
      finished := fun _ => false }

variable (state : State)

variable (role : Role)

def setEgress (egress : Egress) : State :=
  { state with egress := Function.update state.egress role egress }

def setIngress (ingress : Ingress) : State :=
  { state with ingress := Function.update state.ingress role ingress }

/-- `process_egress_burst` up to its loop. -/
def beginEgress (popped : List RawTcpFrame) : State :=
  let egress := state.egress role
  match egress.phase with
  | .idle =>
      let currentTail := egress.localTxTail
      let localTxHead :=
        if inst.capacity ≤ (currentTail - egress.localTxHead).toNat then
          state.counter role.remoteTxHead
        else egress.localTxHead
      let distance := (currentTail - localTxHead).toNat
      let egress := { egress with localTxHead := localTxHead }
      if inst.capacity ≤ distance then state.setEgress role egress
      else
        let maxFillable := inst.capacity - distance
        let desiredBurst := if maxFillable < 32 then maxFillable else 32
        -- `pop_batch` returns no more than it is asked for
        if popped.length = 0 ∨ desiredBurst < popped.length then state.setEgress role egress
        else state.setEgress role { egress with phase := .writing [] popped }
  | .writing _ _ => state

/-- One round of the loop of `process_egress_burst`. -/
def writeSlot : State :=
  let egress := state.egress role
  match egress.phase with
  | .writing written (frame :: todo) =>
      let targetIdx := inst.slotAt (egress.localTxTail + BitVec.ofNat 64 written.length)
      let slots := state.slots role.localTxSlots
      { state with
        slots := Function.update state.slots role.localTxSlots
          (Function.update slots targetIdx (writeFrame (slots targetIdx) frame)) }.setEgress role
        { egress with phase := .writing (written ++ [frame]) todo }
  | _ => state

/-- The store of the tail. -/
def publishTail : State :=
  let egress := state.egress role
  match egress.phase with
  | .writing written [] =>
      let localTxTail := egress.localTxTail + BitVec.ofNat 64 written.length
      { state with
        counter := Function.update state.counter role.localTxTailPtr localTxTail }.setEgress role
        { egress with
          localTxTail := localTxTail, phase := .idle, sent := egress.sent ++ written }
  | _ => state

/-- `process_ingress_burst` up to `push_batch`. -/
def beginIngress : State :=
  let ingress := state.ingress role
  match ingress.phase with
  | .idle =>
      let currentHead := ingress.localRxHead
      let localRxTail :=
        if currentHead = ingress.localRxTail then state.counter role.remoteRxTail
        else ingress.localRxTail
      let ingress := { ingress with localRxTail := localRxTail }
      if currentHead = localRxTail then state.setIngress role ingress
      else
        let available := (localRxTail - currentHead).toNat
        let burstCount := if available < 32 then available else 32
        state.setIngress role { ingress with phase := .pushing burstCount }
  | _ => state

/-- `push_batch` takes pointers to the slots from the head on. -/
def handOver (accepted : Nat) : State :=
  let ingress := state.ingress role
  match ingress.phase with
  | .pushing burstCount =>
      let pushed := min accepted burstCount
      let frames := (List.range pushed).map fun i =>
        readFrame (state.slots role.localRxSlots
          (inst.slotAt (ingress.localRxHead + BitVec.ofNat 64 i)))
      state.setIngress role { ingress with
        localRxHead := ingress.localRxHead + BitVec.ofNat 64 pushed
        phase := .storing
        taken := ingress.taken ++ frames }
  | _ => state

/-- The store of the head. -/
def publishHead : State :=
  let ingress := state.ingress role
  match ingress.phase with
  | .storing =>
      { state with
        counter := Function.update state.counter role.localRxHeadPtr
          ingress.localRxHead }.setIngress role { ingress with phase := .idle }
  | _ => state

/-- The application is done with a frame. -/
def finish (position : Nat) : State :=
  let ingress := state.ingress role
  if position < ingress.taken.length then
    state.setIngress role { ingress with
      finished := Function.update ingress.finished position true }
  else state

def step (move : Role × Move) : State :=
  match move.2 with
  | .beginEgress popped => state.beginEgress inst move.1 popped
  | .writeSlot => state.writeSlot inst move.1
  | .publishTail => state.publishTail move.1
  | .beginIngress => state.beginIngress move.1
  | .handOver accepted => state.handOver inst move.1 accepted
  | .publishHead => state.publishHead move.1
  | .finish position => state.finish move.1 position

end State

/-! ## Frames in slots -/

/-- A frame whose header is the same with its fields exchanged. -/
abbrev RawTcpFrame.Symmetric : Prop :=
  frame.connectionId = frame.payloadLength.setWidth 32

theorem copyVectors_eq (slot source : Memory) (count : Nat) :
    copyVectors slot source count = slot.copy dataOffset source 0 (count * 64) := by
  induction count with
  | zero =>
      funext address
      exact (Memory.copy_outside slot source (by omega)).symm
  | succ count ih =>
      have joined := Memory.copy_copy slot source dataOffset 0 (count * 64) 64
      rw [Nat.zero_add] at joined
      rw [copyVectors, ih, joined, Nat.succ_mul]

/-- The vector loop and the rest copy exactly the payload. -/
theorem copyPayload_eq (slot source : Memory) (bytesToCopy : Nat) :
    copyPayload slot source bytesToCopy = slot.copy dataOffset source 0 bytesToCopy := by
  have whole := Nat.div_add_mod' bytesToCopy 64
  unfold copyPayload
  rw [copyVectors_eq]
  split_ifs with rest
  · have joined := Memory.copy_copy slot source dataOffset 0 (bytesToCopy / 64 * 64)
      (bytesToCopy % 64)
    rw [Nat.zero_add, whole] at joined
    exact joined
  · have multiple : bytesToCopy / 64 * 64 = bytesToCopy := by omega
    rw [multiple]

theorem byteAt_meta_low {index : Nat} (inside : index < 4) :
    byteAt frame.meta (0 + index) = byteAt (frame.payloadLength.setWidth 32) index := by
  unfold RawTcpFrame.meta byteAt
  ext bit bound
  have low : 8 * (0 + index) + bit < 32 := by omega
  have same : 8 * (0 + index) + bit = 8 * index + bit := by omega
  simp [same ▸ low, show 8 * index + bit < 64 by omega]

theorem byteAt_meta_high {index : Nat} (inside : index < 2) :
    byteAt frame.meta (4 + index) = byteAt (frame.connectionId.setWidth 16) index := by
  unfold RawTcpFrame.meta byteAt
  ext bit bound
  have above : frame.payloadLength.getLsbD (8 * (4 + index) + bit) = false :=
    BitVec.getLsbD_of_ge _ _ (by omega)
  have position : 8 * (4 + index) + bit - 32 = 8 * index + bit := by omega
  simp [above, position, show ¬8 * (4 + index) + bit < 32 by omega,
    show 8 * (4 + index) + bit < 64 by omega, show 8 * index + bit < 16 by omega]

/-- The header of a written frame has its fields exchanged. -/
theorem readFrame_writeFrame_header (slot : Memory) (frame : RawTcpFrame) :
    (readFrame (writeFrame slot frame)).connectionId = frame.payloadLength.setWidth 32 ∧
      (readFrame (writeFrame slot frame)).payloadLength = frame.connectionId.setWidth 16 := by
  unfold readFrame writeFrame
  rw [copyPayload_eq]
  have untouched : ∀ {width count base : Nat}, base + count ≤ dataOffset →
      ((slot.store 8 0 frame.meta).copy dataOffset frame.data 0
        frame.payloadLength.toNat).load width count base =
        (slot.store 8 0 frame.meta).load width count base := by
    intro width count base before
    exact Memory.load_congr fun index inside => Memory.copy_outside _ _ (by omega)
  have low : (slot.store 8 0 frame.meta).load 32 4 0 = frame.payloadLength.setWidth 32 := by
    refine (Memory.load_store_inside slot 0 frame.meta (show 0 + 4 ≤ 8 by decide)).trans ?_
    rw [List.map_congr_left fun index member =>
      byteAt_meta_low frame (List.mem_range.mp member)]
    exact ofBytes_toBytes _ rfl
  have high : (slot.store 8 0 frame.meta).load 16 2 4 = frame.connectionId.setWidth 16 := by
    refine (Memory.load_store_inside slot 0 frame.meta (show 4 + 2 ≤ 8 by decide)).trans ?_
    rw [List.map_congr_left fun index member =>
      byteAt_meta_high frame (List.mem_range.mp member)]
    exact ofBytes_toBytes _ rfl
  exact ⟨(untouched (by decide)).trans low, (untouched (by decide)).trans high⟩

/-- A frame is read back as it was written when exchanging the header fields does not
matter. -/
theorem readFrame_writeFrame (slot : Memory) {frame : RawTcpFrame}
    (symmetric : frame.Symmetric) : readFrame (writeFrame slot frame) = frame.view := by
  obtain ⟨connectionId, payloadLength⟩ := readFrame_writeFrame_header slot frame
  have length : (readFrame (writeFrame slot frame)).payloadLength = frame.payloadLength := by
    rw [payloadLength, show frame.connectionId = _ from symmetric]
    ext bit bound
    simp
  have payload : (readFrame (writeFrame slot frame)).payload = frame.view.payload := by
    have copied := Memory.bytes_copy (slot.store 8 0 frame.meta) frame.data dataOffset 0
      frame.payloadLength.toNat
    rw [← copyPayload_eq] at copied
    refine Eq.trans ?_ copied
    exact congrArg (fun count : BitVec 16 =>
      (writeFrame slot frame).bytes dataOffset count.toNat) length
  rw [← show frame.connectionId = _ from symmetric] at connectionId
  exact FrameView.ext connectionId length payload

end SlabFlux.Io.ShmDuplex
