import SlabFlux.Lib.Reservation
import SlabFlux.Net.Tcp.Inbound
import SlabFlux.Net.Tcp.Outbound
import SlabFlux.Net.Tcp.TemporalWheel

/-!
# The transmit rings

The egress conduit and the unacknowledged ring have 1024 slots each.  Every sender takes
the slot of `get_reserved_slot(0)`, which is never null, writes its buffer there and calls
`commit_n(1)`, unless a reference count or the pool fails in between.  This module says
which of these events each operation causes, in their order.
-/

namespace SlabFlux.Net.Tcp

open Lib SlabFlux.Core Lib.Reservation

variable {Mbuf : Type}
variable (platform : Platform) (packet : Packet Mbuf) (tcb : Tcb Mbuf)

/-- The two conduits of a block that are filled by the engine. -/
inductive TransmitRing where
  | egress
  | unacked
deriving DecidableEq

/-- An event on one of the two rings. -/
structure RingEvent where
  ring : TransmitRing
  event : Event
deriving DecidableEq

/-- The events on one ring. -/
def onRing (ring : TransmitRing) (log : List RingEvent) : List Event :=
  (log.filter (·.ring = ring)).map (·.event)

/-- Entries of the unacknowledged ring are consumed. -/
def consumeLog (count : Nat) : List RingEvent := List.replicate count ⟨.unacked, .consume⟩

/-- A segment is put on the wire once more.  Its buffer is in the slot before `retain` is
called. -/
def retransmitLog : List RingEvent :=
  ⟨.egress, .write⟩ :: if platform.retains then [⟨.egress, .commit⟩] else []

/-! ## Acknowledgements -/

/-- Whether fast retransmit has a segment to send. -/
def fastRetransmits : Bool :=
  match tcb.txUnackedRing, tcb.txEgressConduit with
  | some ring, some _ => 0 < ring.refresh.available
  | _, _ => false

/-- Whether a partial ACK has a segment to send. -/
def partialRetransmits : Bool :=
  if tcb.highestRtxSeq ≠ 0 ∧ (packet.tcpAck - tcb.highestRtxSeq).toInt < 0 then false
  else
    match tcb.txUnackedRing, tcb.txEgressConduit with
    | some ring, some _ => (firstUnsacked ring.refresh).isSome
    | _, _ => false

/-- How many segments the loop that releases acknowledged ones consumes. -/
def countAcked (sndUna : BitVec 32) : Nat → UnackedRing → Nat
  | 0, _ => 0
  | fuel + 1, ring =>
      if ring.refresh.available = 0 then 0
      else if fullyAcked sndUna (ring.refresh.peekSlot 0).frame then
        countAcked sndUna fuel
          (ring.refresh.modifyPeekSlot 0 OutboundSegment.release).consume + 1
      else 0

/-- The block with the new count of duplicates. -/
def counted : Tcb Mbuf :=
  { tcb with dupAcks := countDup tcb packet }

/-- The ACK is neither the third nor a later duplicate, and it moves `snd_una`. -/
def advances : Bool :=
  countDup tcb packet ≠ 3 ∧ ¬ 3 < countDup tcb packet ∧ ackProgresses (counted packet tcb) packet

/-- Whether an ACK after the handshake has a segment sent once more: as the third
duplicate, or as a partial one. -/
def ackRetransmits : Bool :=
  if countDup tcb packet = 3 then fastRetransmits (enterRecovery (counted packet tcb))
  else
    advances packet tcb ∧ isPartialAck (counted packet tcb) packet (3 ≤ tcb.dupAcks) ∧
      partialRetransmits packet (acknowledged packet (3 ≤ tcb.dupAcks) (counted packet tcb))

/-- How many segments an ACK after the handshake releases. -/
def ackConsumes : Nat :=
  if advances packet tcb then
    match tcb.txUnackedRing with
    | none => 0
    | some ring => countAcked packet.tcpAck ring.occupancy ring
  else 0

/-- The block that an ACK meets after the handshake, if the call gets that far. -/
def ackBlock (call : Call Mbuf) : Option (Tcb Mbuf) :=
  if packet.flagged Flag.ack then
    match completeHandshake platform packet call with
    | .ok call => some call.tcb
    | .error _ => none
  else none

/-- The stages of `process_inbound` before the ACK. -/
def earlyStages (call : Call Mbuf) : Stage Mbuf :=
  (checkWindow platform packet call).bind fun call =>
    (checkTtl packet call).bind fun call =>
      (reactToEcn packet call).bind fun call =>
        (guardSyn platform packet call).bind (parseOptions platform packet)

/-- The block that the ACK of an inbound segment meets. -/
def inboundBlock (trimOffset : BitVec 32) (mbufAbsorbed : Option Bool) : Option (Tcb Mbuf) :=
  match earlyStages platform packet
      { tcb := tcb
        payloadLen := packet.payloadLen
        trimOffset := trimOffset
        mbufAbsorbed := mbufAbsorbed } with
  | .ok call => ackBlock platform packet call
  | .error _ => none

/-- The events of `process_inbound`. -/
def inboundLog (platform : Platform) (packet : Packet Mbuf) (block : Option (Tcb Mbuf)) :
    List RingEvent :=
  match block with
  | none => []
  | some tcb =>
      consumeLog (ackConsumes packet tcb) ++
        if ackRetransmits packet tcb then retransmitLog platform else []

/-! ## Control frames, the socket and the timers -/

variable (now : BitVec 64) (trackerRto : BitVec 32)

namespace Tcb

/-- Whether `dispatch_control_frames` has something to send. -/
def dispatchDue : Bool :=
  tcb.txEgressConduit.isSome ∧ tcb.flagsPending ≠ 0 ∧ tcb.txMbufPool

/-- Whether a control frame is kept for retransmission. -/
def tracksControl : Bool :=
  has tcb.dispatchFlags (Flag.syn ||| Flag.fin) ∧ tcb.txUnackedRing.isSome

/-- The events of `dispatch_control_frames`. -/
def dispatchLog : List RingEvent :=
  if tcb.dispatchDue then
    ⟨.egress, .write⟩ :: if 0 < platform.buffers then
        (if tcb.tracksControl then
          ⟨.unacked, .write⟩ :: if platform.retains then [⟨.unacked, .commit⟩] else []
        else []) ++ [⟨.egress, .commit⟩]
      else []
  else []

/-- The events of one turn of the loop of `send` that gets a buffer. -/
def chunkLog (tracked : Bool) : List RingEvent :=
  ⟨.egress, .write⟩ ::
    (if tracked then [⟨.unacked, .write⟩, ⟨.unacked, .commit⟩] else []) ++ [⟨.egress, .commit⟩]

/-- The events of the loop of `send`.  A turn for which the pool has no buffer leaves a
null pointer in the slot. -/
def chunksLog (mss : Nat) (tracked : Bool) : Nat → Bytes → List RingEvent
  | 0, bytes => if bytes = [] then [] else [⟨.egress, .write⟩]
  | buffers + 1, bytes =>
      if bytes = [] then []
      else chunkLog tracked ++ chunksLog mss tracked buffers (bytes.drop mss)

/-- How many bytes `send` tries to send. -/
def toSend (length : Nat) : Nat :=
  if tcb.isEstablished = false ∨ tcb.avoidsSillyWindow length then 0
  else min length tcb.usableWindow.toNat

/-- The events of `send`. -/
def sendLog (buffer : Bytes) (tcb : Tcb Mbuf) : List RingEvent :=
  chunksLog tcb.effectiveMss tcb.txUnackedRing.isSome platform.buffers
    (buffer.take (tcb.toSend buffer.length))

/-- The retransmission timer has run out, and the connection is not given up. -/
def timesOut : Bool :=
  tcb.phase ≠ .closed ∧ tcb.sndUna ≠ tcb.sndNxt ∧ tcb.rtoDeadlineTsc ≠ 0 ∧
    tcb.rtoDeadlineTsc ≤ now ∧ ¬ 15 ≤ tcb.rtoRetries

/-- Whether a timeout has a segment to send. -/
def awaitsAck : Bool :=
  match tcb.txUnackedRing, tcb.txEgressConduit with
  | some ring, some _ => 0 < (clearSacked ring).refresh.available
  | _, _ => false

/-- Whether `on_tick` has a segment sent once more. -/
def tickRetransmits : Bool :=
  tcb.timesOut now ∧ tcb.awaitsAck

/-- How many entries the loop that releases every segment consumes. -/
def countReleased : Nat → UnackedRing → Nat
  | 0, _ => 0
  | fuel + 1, ring =>
      if ring.refresh.available = 0 then 0
      else countReleased fuel
        (ring.refresh.modifyPeekSlot 0 OutboundSegment.release).consume + 1

/-- The sections of `on_tick` before the one for address resolution. -/
def tickBeforeArp : Except (Tcb Mbuf) (Tcb Mbuf) := do
  let tcb ← tcb.tickRetransmission platform now trackerRto
  let tcb ← (tcb.tickDelayedAck now).tickPersist now
  (tcb.tickTimeWait now).tickKeepalive now

/-- How many segments the timeout of address resolution releases. -/
def arpConsumes : Nat :=
  if tcb.temporal TemporalFlag.arpWait = true ∧ tcb.rtoDeadlineTsc ≠ 0 ∧
      tcb.rtoDeadlineTsc ≤ now then
    match tcb.txUnackedRing with
    | none => 0
    | some ring => countReleased ring.occupancy ring
  else 0

/-- How many segments `on_tick` releases. -/
def tickConsumes : Nat :=
  if tcb.phase = .closed then 0
  else
    match tcb.tickBeforeArp platform now trackerRto with
    | .ok tcb => tcb.arpConsumes now
    | .error _ => 0

/-- The events of `on_tick`. -/
def tickLog : List RingEvent :=
  (if tcb.tickRetransmits now then retransmitLog platform else []) ++
    consumeLog (tcb.tickConsumes platform now trackerRto)

end Tcb

/-! ## All operations -/

/-- The operations that use the transmit rings. -/
inductive TransmitOperation (Mbuf : Type) where
  | inbound (packet : Packet Mbuf) (trimOffset : BitVec 32) (mbufAbsorbed : Option Bool)
  | dispatch
  | send (buffer : Bytes)
  | tick (now : BitVec 64) (trackerRto : BitVec 32)

namespace TransmitOperation

/-- The block after the operation. -/
def run (platform : Platform) (tcb : Tcb Mbuf) : TransmitOperation Mbuf → Tcb Mbuf
  | .inbound packet trimOffset mbufAbsorbed =>
      (processInbound platform packet tcb trimOffset mbufAbsorbed).call.tcb
  | .dispatch => tcb.dispatchControlFrames platform
  | .send buffer => (tcb.send platform buffer).1
  | .tick now trackerRto => tcb.onTick platform now trackerRto

/-- The events of the operation. -/
def log (platform : Platform) (tcb : Tcb Mbuf) : TransmitOperation Mbuf → List RingEvent
  | .inbound packet trimOffset mbufAbsorbed =>
      inboundLog platform packet (inboundBlock platform packet tcb trimOffset mbufAbsorbed)
  | .dispatch => tcb.dispatchLog platform
  | .send buffer => tcb.sendLog platform buffer
  | .tick now trackerRto => tcb.tickLog platform now trackerRto

end TransmitOperation

end SlabFlux.Net.Tcp
