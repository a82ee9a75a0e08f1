import SlabFlux.Core.SpscRingConduit
import SlabFlux.Lib.Bytes
import SlabFlux.Net.OooMatrix.Model

/-!
# Segments and control blocks

TCP flags, the packets `process_inbound` reads, and the segments the engine builds.  An
outbound segment is a value: the egress conduit and the unacknowledged ring share its
buffer by reference count in the source, and every write through one of them is made to
both here.  Checksums are a function of the other fields and are left out.

The fields of `tcp_transmission_control_block` that the IPv4 engine, the socket and the
temporal wheel use.  Pointers to conduits and to the out-of-order matrix are optional
values.  The fields of the OTSP manifold (compiled out) and of IPv6 are left out.
-/

namespace SlabFlux.Net.Tcp

open Lib

namespace Flag

/-! The bits of `tcp_flags`. -/

def fin : BitVec 8 := 0x01
def syn : BitVec 8 := 0x02
def rst : BitVec 8 := 0x04
def psh : BitVec 8 := 0x08
def ack : BitVec 8 := 0x10
def ece : BitVec 8 := 0x40
def cwr : BitVec 8 := 0x80

end Flag

/-- Whether one of the bits of `mask` is set. -/
def has (flags mask : BitVec 8) : Bool := flags &&& mask ≠ 0

/-- Setting other bits. -/
theorem has_or_of_disjoint {mask other : BitVec 8} (disjoint : other &&& mask = 0#8)
    (flags : BitVec 8) : has (flags ||| other) mask = has flags mask := by
  unfold has
  rw [BitVec.and_or_distrib_right, disjoint, BitVec.or_zero]

theorem has_and_of_subset {mask kept : BitVec 8} (subset : kept &&& mask = mask)
    (flags : BitVec 8) : has (flags &&& kept) mask = has flags mask := by
  unfold has
  rw [BitVec.and_assoc, subset]

/-- The options the engine writes: the fixed block of a SYN, a timestamp, and SACK
blocks. -/
structure OutboundOptions where
  synBlock : Bool
  timestamp : Option (BitVec 32 × BitVec 32)
  sackBlocks : List (BitVec 32 × BitVec 32)
deriving DecidableEq

/-- `raw_tcp_ipv4_frame` with its options and payload, as the engine fills it. -/
structure Frame where
  destMac : BitVec 48
  ipIhlVer : BitVec 8
  ipTos : BitVec 8
  ipLen : BitVec 16
  ipTtl : BitVec 8
  ipSrc : BitVec 32
  ipDst : BitVec 32
  tcpSrcPort : BitVec 16
  tcpDstPort : BitVec 16
  tcpSeq : BitVec 32
  tcpAck : BitVec 32
  tcpDataOffset : BitVec 8
  tcpFlags : BitVec 8
  tcpWindow : BitVec 16
  options : OutboundOptions
  payload : Bytes
deriving DecidableEq

namespace Frame

/-- A zero-filled buffer. -/
def zero : Frame where
  destMac := 0
  ipIhlVer := 0
  ipTos := 0
  ipLen := 0
  ipTtl := 0
  ipSrc := 0
  ipDst := 0
  tcpSrcPort := 0
  tcpDstPort := 0
  tcpSeq := 0
  tcpAck := 0
  tcpDataOffset := 0
  tcpFlags := 0
  tcpWindow := 0
  options := { synBlock := false, timestamp := none, sackBlocks := [] }
  payload := []

/-- `get_payload_length` for IPv4. -/
def payloadLength (frame : Frame) : Nat :=
  let headers :=
    (frame.ipIhlVer &&& 0x0F).toNat * 4 + (frame.tcpDataOffset >>> 4).toNat * 4
  if headers < frame.ipLen.toNat then frame.ipLen.toNat - headers else 0

/-- The sequence numbers the segment takes: its payload, and one for SYN or FIN. -/
def seqLength (frame : Frame) : Nat :=
  frame.payloadLength + if has frame.tcpFlags (Flag.syn ||| Flag.fin) then 1 else 0

/-- The sequence number after the segment. -/
def seqEnd (frame : Frame) : BitVec 32 :=
  frame.tcpSeq + BitVec.ofNat 32 frame.seqLength

end Frame

/-- `outbound_tcp_segment`.  `frame` is what the buffer pointer points to, or pointed to
before it was set to null; reading through the null pointer is undefined behaviour in the
source. -/
structure OutboundSegment where
  frame : Frame
  held : Bool
  isSacked : Bool
deriving DecidableEq

namespace OutboundSegment

def release (segment : OutboundSegment) : OutboundSegment := { segment with held := false }

/-- Point the segment to a buffer.  The SACK mark of the slot's last segment stays. -/
def hold (frame : Frame) (segment : OutboundSegment) : OutboundSegment :=
  { segment with frame := frame, held := true }

end OutboundSegment

/-- `tx_unacked_ring`. -/
abbrev UnackedRing := Core.SpscRingConduit OutboundSegment

/-- What `process_inbound` reads of an IPv4 packet and its other arguments.  `options`
are the `(data_offset - 5) * 4` bytes after the fixed header. -/
structure Packet (Mbuf : Type) where
  tcpSeq : BitVec 32
  tcpAck : BitVec 32
  tcpWindow : BitVec 16
  tcpFlags : BitVec 8
  options : Bytes
  ipTtl : BitVec 8
  ipTos : BitVec 8
  payloadLen : BitVec 32
  payloadOffset : BitVec 16
  mbuf : Option Mbuf

namespace Packet

variable {Mbuf : Type}

/-- Whether one of the bits of `mask` is set in the packet's flags. -/
def flagged (packet : Packet Mbuf) (mask : BitVec 8) : Bool := has packet.tcpFlags mask

def endSeq (packet : Packet Mbuf) : BitVec 32 := packet.tcpSeq + packet.payloadLen

def payloadSeq (packet : Packet Mbuf) : BitVec 32 :=
  packet.tcpSeq + if packet.flagged Flag.syn then 1 else 0

end Packet

/-! ## Options of a packet -/

/-- One option of a packet: its kind and the bytes after its length byte. -/
structure OptionToken where
  kind : BitVec 8
  data : Bytes
deriving DecidableEq

/-- The walk over the option bytes, up to an end marker or a malformed length.  Every
turn takes at least one byte, so the length of the list is enough fuel. -/
def walkOptions : Nat → Bytes → List OptionToken
  | 0, _ => []
  | _, [] => []
  | fuel + 1, kind :: rest =>
      if kind = 0 then []
      else if kind = 1 then walkOptions fuel rest
      else
        match rest with
        | [] => []
        | length :: tail =>
            if length.toNat < 2 ∨ tail.length + 2 < length.toNat then []
            else
              { kind := kind, data := tail.take (length.toNat - 2) } ::
                walkOptions fuel (tail.drop (length.toNat - 2))

/-- The options of a packet. -/
def Packet.tokens {Mbuf : Type} (packet : Packet Mbuf) : List OptionToken :=
  walkOptions packet.options.length packet.options

/-- A big-endian word of an option. -/
def OptionToken.word (token : OptionToken) (offset : Nat) : BitVec 32 :=
  token.data.getD offset 0 ++ token.data.getD (offset + 1) 0 ++
    token.data.getD (offset + 2) 0 ++ token.data.getD (offset + 3) 0

/-- The blocks of a SACK option. -/
def OptionToken.sackBlocks (token : OptionToken) : List (BitVec 32 × BitVec 32) :=
  (List.range (token.data.length / 8)).map fun block =>
    (token.word (8 * block), token.word (8 * block + 4))

/-! ## The control block -/

open Net.OooMatrix

/-- `tcp_phase_bits`.  A block is in exactly one phase; the bit masks of the source only
serve to test for several phases at once. -/
inductive Phase where
  | closed
  | listen
  | synSent
  | synRcvd
  | established
  | finWait1
  | finWait2
  | timeWait
  | closeWait
  | lastAck
  | closing
deriving DecidableEq

namespace Phase

/-- The phases in which a SYN is suspicious. -/
def guardsSyn : Phase → Bool
  | .established | .finWait1 | .finWait2 | .closeWait | .closing | .timeWait
  | .lastAck => true
  | _ => false

/-- The phases in which every segment must carry an ACK. -/
def requiresAck : Phase → Bool
  | .synRcvd | .established | .finWait1 | .finWait2 | .closeWait | .closing | .lastAck
  | .timeWait => true
  | _ => false

/-- The phases in which payload is received. -/
def receives : Phase → Bool
  | .established | .finWait1 | .finWait2 | .synRcvd => true
  | _ => false

/-- The phases from which a connection has been open. -/
def synchronized (phase : Phase) : Bool := phase.guardsSyn

end Phase

namespace TemporalFlag

/-! The bits of `tcp_temporal_flags`. -/

def ackPending : BitVec 8 := 0x01
def zwpActive : BitVec 8 := 0x02
def keepalive : BitVec 8 := 0x04
def arpWait : BitVec 8 := 0x08
def retransmit : BitVec 8 := 0x10
def keepaliveProbe : BitVec 8 := 0x20
def ecnEcho : BitVec 8 := 0x40
def cwr : BitVec 8 := 0x80

end TemporalFlag

/-- One entry of `sack_left_edges`, `sack_right_edges` and `sack_valid`. -/
structure SackBlock where
  left : BitVec 32
  right : BitVec 32
  valid : Bool
deriving DecidableEq

/-- `tcp_transmission_control_block`, with its initial values.  `rxStreamRing` is the
number of characters that wait in the receive ring, and `txEgressConduit` everything
committed to the wire.  The source gives `target_mac` no initial value. -/
structure Tcb (Mbuf : Type) where
  sndUna : BitVec 32 := 0
  sndNxt : BitVec 32 := 0
  rcvNxt : BitVec 32 := 0
  sndWnd : BitVec 32 := 0
  rcvWnd : BitVec 32 := 0
  cwnd : BitVec 32 := 0
  ssthresh : BitVec 32 := 0
  remoteIpv4 : BitVec 32 := 0
  localIpv4 : BitVec 32 := 0
  remotePort : BitVec 16 := 0
  localPort : BitVec 16 := 0
  phase : Phase := .closed
  remoteMss : BitVec 16 := 0
  dupAcks : BitVec 8 := 0
  sndWscale : BitVec 8 := 0
  rcvWscale : BitVec 8 := 0
  temporalFlags : BitVec 8 := 0
  rtoDeadlineTsc : BitVec 64 := 0
  flagsPending : BitVec 8 := 0
  rtoRetries : BitVec 8 := 0
  zwpRetries : BitVec 8 := 0
  sackPermitted : BitVec 8 := 0
  tsPermitted : BitVec 8 := 0
  keepaliveRetries : BitVec 8 := 0
  ecnPermitted : BitVec 8 := 0
  controlPayloadLen : BitVec 8 := 0
  rxStreamRing : Option Nat := none
  txEgressConduit : Option (List Frame) := none
  txUnackedRing : Option UnackedRing := none
  txMbufPool : Bool := false
  oooMatrix : Option (Matrix Mbuf) := none
  targetMac : BitVec 48 := 0
  expectedTtl : BitVec 8 := 0
  challengeAckCnt : BitVec 8 := 0
  lastChallengeTsc : BitVec 64 := 0
  highestRtxSeq : BitVec 32 := 0
  delayedAckDeadlineTsc : BitVec 64 := 0
  persistDeadlineTsc : BitVec 64 := 0
  timeWaitDeadlineTsc : BitVec 64 := 0
  keepaliveDeadlineTsc : BitVec 64 := 0
  srtt : BitVec 64 := 0
  rttvar : BitVec 64 := 0
  recover : BitVec 32 := 0
  tsRecent : BitVec 32 := 0
  tsVal : BitVec 32 := 0
  sackBlocks : Fin 3 → SackBlock := fun _ => ⟨0, 0, false⟩
  quickAckCnt : BitVec 8 := 0
  idleStartMs : BitVec 32 := 0

/-- What a call takes from outside the repository: the time stamp counter, the hash a
recycled connection starts from, whether the reference count of a buffer leaves room for
one more reference, and how many buffers the pool gives. -/
structure Platform where
  now : BitVec 64 := 0
  mac : BitVec 32 := 0
  retains : Bool := true
  buffers : Nat := 1

namespace Tcb

variable {Mbuf : Type}

variable (tcb : Tcb Mbuf)

/-- Whether one of the bits of `mask` is set in the temporal flags. -/
def temporal (mask : BitVec 8) : Bool := has tcb.temporalFlags mask

/-- `flags_pending |= mask`. -/
def pend (mask : BitVec 8) : Tcb Mbuf :=
  { tcb with flagsPending := tcb.flagsPending ||| mask }

/-- `temporal_flags |= mask`. -/
def raise (mask : BitVec 8) : Tcb Mbuf :=
  { tcb with temporalFlags := tcb.temporalFlags ||| mask }

/-- `temporal_flags &= ~mask`. -/
def lower (mask : BitVec 8) : Tcb Mbuf :=
  { tcb with temporalFlags := tcb.temporalFlags &&& ~~~mask }

/-- The part of `trigger_challenge_ack` that restarts its interval. -/
def restartChallenges (now : BitVec 64) : Tcb Mbuf :=
  if 3000000000 < now - tcb.lastChallengeTsc then
    { tcb with challengeAckCnt := 0, lastChallengeTsc := now }
  else tcb

def triggerChallengeAck (now : BitVec 64) : Tcb Mbuf :=
  let tcb := tcb.restartChallenges now
  if tcb.challengeAckCnt < 2 then
    { tcb with challengeAckCnt := tcb.challengeAckCnt + 1 }.pend Flag.ack
  else tcb

/-- `cwnd`, but at least one segment. -/
def safeCwnd : BitVec 32 :=
  if 1460 ≤ tcb.cwnd then tcb.cwnd else 1460

/-- Half a window, but at least two segments. -/
def halved (window : BitVec 32) : BitVec 32 :=
  if 2920 < window >>> 1 then window >>> 1 else 2920

/-- The window field of a retransmitted header. -/
def advertisedWindow : BitVec 16 :=
  let window := tcb.rcvWnd >>> tcb.rcvWscale.toNat
  if 65535 < window then 65535 else window.setWidth 16

/-- Put the segment at an offset of the unacknowledged ring on the wire once more, with
the current acknowledgement and window. -/
def resend (ring : UnackedRing) (egress : List Frame) (offset : Nat) : Tcb Mbuf :=
  let refreshed : Frame :=
    { (ring.peekSlot offset).frame with
      tcpAck := tcb.rcvNxt, tcpWindow := tcb.advertisedWindow }
  { tcb with
    txUnackedRing :=
      some (ring.modifyPeekSlot offset fun segment => { segment with frame := refreshed })
    txEgressConduit := some (egress ++ [refreshed]) }

end Tcb

end SlabFlux.Net.Tcp
