import SlabFlux.Net.Tcp.Inbound
import SlabFlux.Net.Tcp.Outbound

/-!
# The receive path of the gateway

`tcp_gateway::on_raw_frame` for an IPv4 packet that belongs to the block of a connection:
`process_inbound`, the loop that takes contiguous segments out of the matrix, the late
allocation of the matrix, and `dispatch_control_frames`.  The SYN cookies of a listening
block and what the defragmenter does with the bytes are left out.

The path is also cut into moves, so that a run can be looked at between any two of them.
-/

namespace SlabFlux.Net.Tcp

open Lib Net.OooMatrix

variable {Mbuf : Type}

namespace Tcb

/-- What one turn of the extraction loop takes out of the matrix. -/
def extracted (tcb : Tcb Mbuf) : Option (Matrix Mbuf × MbufSlot Mbuf) :=
  match tcb.oooMatrix with
  | none => none
  | some matrix =>
      match matrix.extractContiguousMbuf tcb.rcvNxt with
      | (_, none) => none
      | (matrix, some slot) => some (matrix, slot)

/-- One turn of the extraction loop, if it takes a segment. -/
def extractTurn (tcb : Tcb Mbuf) : Option (Tcb Mbuf) :=
  match tcb.extracted with
  | none => none
  | some (matrix, slot) =>
      let tcb := { tcb with oooMatrix := some matrix, rcvNxt := tcb.rcvNxt + slot.len }
      some (if has slot.flags Flag.fin then acceptFin tcb else tcb)

/-- The extraction loop.  Every turn frees a slot, so the number of slots is enough
fuel. -/
def extractLoop : Nat → Tcb Mbuf → Tcb Mbuf
  | 0, tcb => tcb
  | fuel + 1, tcb =>
      match tcb.extractTurn with
      | none => tcb
      | some tcb => extractLoop fuel tcb

/-- Whether the gateway allocates a matrix: the segment had payload or a FIN, nothing of
it is left for the layer above, an ACK is pending, and there is no matrix yet. -/
def needsMatrix (tcb : Tcb Mbuf) (packet : Packet Mbuf) (payloadLen : BitVec 32) : Bool :=
  (0 < packet.payloadLen ∨ packet.flagged Flag.fin = true) ∧ payloadLen = 0 ∧
    has tcb.flagsPending Flag.ack = true ∧ tcb.oooMatrix.isNone = true

/-- The late allocation of the matrix, which takes the segment at once.  `available` says
whether the pool has a matrix left. -/
def allocateMatrix (tcb : Tcb Mbuf) (packet : Packet Mbuf) (payloadLen : BitVec 32)
    (available : Bool) : Tcb Mbuf :=
  if tcb.needsMatrix packet payloadLen ∧ available = true then
    let matrix : Matrix Mbuf := fresh.reset tcb.rcvNxt
    if (packet.payloadSeq - tcb.rcvNxt).toNat ≤ 0x7FFFFFFF ∧ packet.mbuf.isSome = true then
      { tcb with oooMatrix := some (matrix.insertMbuf tcb.rcvNxt packet.slot).1 }
    else { tcb with oooMatrix := some matrix }
  else tcb

/-- The checks of the gateway on the flags, and on the phase of the block. -/
def gatewayDrops (tcb : Tcb Mbuf) (packet : Packet Mbuf) : Bool :=
  tcb.phase = .closed ∨ tcb.phase = .listen ∨
    (packet.flagged Flag.syn = true ∧ packet.flagged Flag.fin = true) ∨
    packet.flagged (Flag.syn ||| Flag.ack ||| Flag.rst) = false

def onRawFrame (platform : Platform) (available : Bool) (packet : Packet Mbuf)
    (tcb : Tcb Mbuf) : Tcb Mbuf :=
  if tcb.gatewayDrops packet then tcb
  else
    let result := processInbound platform packet tcb 0 (some false)
    if result.accepted then
      ((extractLoop maxMbufs result.call.tcb).allocateMatrix packet result.call.payloadLen
        available).dispatchControlFrames platform
    else result.call.tcb

end Tcb

/-! ## Moves -/

/-- One part of the receive path. -/
inductive GatewayMove (Mbuf : Type) where
  | receive (platform : Platform) (packet : Packet Mbuf)
  | extract
  | allocate (packet : Packet Mbuf) (payloadLen : BitVec 32) (available : Bool)
  | dispatch (platform : Platform)

namespace Tcb

/-- The block after a move. -/
def gatewayStep (tcb : Tcb Mbuf) : GatewayMove Mbuf → Tcb Mbuf
  | .receive platform packet => (processInbound platform packet tcb 0 (some false)).call.tcb
  | .extract => tcb.extractTurn.getD tcb
  | .allocate packet payloadLen available => tcb.allocateMatrix packet payloadLen available
  | .dispatch platform => tcb.dispatchControlFrames platform

/-- The extraction loop is a row of turns. -/
theorem extractLoop_eq_execute (fuel : Nat) (tcb : Tcb Mbuf) :
    ∃ turns, extractLoop fuel tcb = execute gatewayStep tcb (List.replicate turns .extract) := by
  induction fuel generalizing tcb with
  | zero => exact ⟨0, rfl⟩
  | succ fuel ih =>
      rw [extractLoop]
      cases turn : tcb.extractTurn with
      | none => exact ⟨0, rfl⟩
      | some next =>
          obtain ⟨turns, same⟩ := ih next
          refine ⟨turns + 1, ?_⟩
          rw [List.replicate_succ, execute_cons, gatewayStep, turn]
          exact same

/-- A frame is a row of moves. -/
theorem onRawFrame_eq_execute (platform : Platform) (available : Bool)
    (packet : Packet Mbuf) (tcb : Tcb Mbuf) :
    ∃ moves, tcb.onRawFrame platform available packet = execute gatewayStep tcb moves := by
  unfold onRawFrame
  dsimp only
  split_ifs
  · exact ⟨[], rfl⟩
  · obtain ⟨turns, same⟩ := extractLoop_eq_execute maxMbufs
      (processInbound platform packet tcb 0 (some false)).call.tcb
    refine ⟨.receive platform packet :: (List.replicate turns .extract ++
      [.allocate packet (processInbound platform packet tcb 0 (some false)).call.payloadLen
        available, .dispatch platform]), ?_⟩
    rw [execute_cons, execute_append]
    dsimp only [gatewayStep]
    rw [← same]
    rfl
  · exact ⟨[.receive platform packet], rfl⟩

end Tcb

end SlabFlux.Net.Tcp
