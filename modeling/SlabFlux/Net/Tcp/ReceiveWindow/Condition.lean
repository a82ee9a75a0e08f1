import SlabFlux.Net.Tcp.Arrival

/-!
# Segments across the edge of the receive window

A segment is let through if one of its ends lies in the window.  What is handed to the layer
above is then its whole payload, in three cases: it starts at `rcv_nxt` in a phase that
receives, the phase does not receive any more and nobody hides the payload, or the call returns
early because a retransmission cannot retain its buffer.
-/

namespace SlabFlux.Net.Tcp

open SlabFlux.Core Lib

variable {Mbuf : Type}

/-! ## What the window promises -/

/-- `rcv_nxt` has come to a number, and past it only by a FIN. -/
def AdvancesTo (packet : Packet Mbuf) (next rcvNxt : BitVec 32) : Prop :=
  rcvNxt = next ∨ packet.flagged Flag.fin = true ∧
    packet.payloadSeq + packet.payloadLen = next ∧ rcvNxt = next + 1

/-- The bytes that the output parameters describe are bytes of the segment inside the
window. -/
def DescribesInside (packet : Packet Mbuf) (rcvNxt rcvWnd : BitVec 32) (call : Call Mbuf) : Prop :=
  ∀ i, call.trimOffset.toNat ≤ i → i < call.trimOffset.toNat + call.payloadLen.toNat →
    i < packet.payloadLen.toNat ∧
      (packet.payloadSeq + BitVec.ofNat 32 i - rcvNxt).toNat < rcvWnd.toNat

/-- A result that stays inside the window.  The output parameters of a segment that is not
accepted are not looked at. -/
structure StaysInside (packet : Packet Mbuf) (rcvNxt rcvWnd : BitVec 32) (result : Return Mbuf) :
    Prop where
  advance : ∃ next, (next - rcvNxt).toNat ≤ rcvWnd.toNat ∧
    AdvancesTo packet next result.call.tcb.rcvNxt
  describes : result.accepted = true → DescribesInside packet rcvNxt rcvWnd result.call

/-- The call never accepts beyond the window.  The callers start with a trim offset of zero. -/
def RespectsWindow (platform : Platform) (packet : Packet Mbuf) (tcb : Tcb Mbuf)
    (mbufAbsorbed : Option Bool) : Prop :=
  StaysInside packet tcb.rcvNxt tcb.rcvWnd (processInbound platform packet tcb 0 mbufAbsorbed)

/-! ## When it is broken -/

/-- The whole payload lies in the window. -/
def fitsWindow (packet : Packet Mbuf) (tcb : Tcb Mbuf) : Bool :=
  (packet.payloadSeq - tcb.rcvNxt).toNat + packet.payloadLen.toNat ≤ tcb.rcvWnd.toNat

/-- The ACK acknowledges what was not sent. -/
def acksUnsent (packet : Packet Mbuf) (tcb : Tcb Mbuf) : Bool :=
  ackProgresses tcb packet = false ∧ 0 < (packet.tcpAck - tcb.sndUna).toInt

/-- The first segment without a SACK mark that the ACK leaves in a ring. -/
def firstLeft (ack : BitVec 32) (ring : UnackedRing) : Option Nat :=
  firstUnsacked (consumeAcked ack ring.occupancy ring).refresh

/-- A partial ACK finds a segment to retransmit in the ring, and its buffer cannot be
retained. -/
def losesBuffer (platform : Platform) (packet : Packet Mbuf) (tcb : Tcb Mbuf)
    (ring : Option UnackedRing) : Bool :=
  platform.retains = false ∧ 3 ≤ tcb.dupAcks ∧ ackProgresses tcb packet ∧
    0 < (tcb.recover - packet.tcpAck).toInt ∧
    ¬(tcb.highestRtxSeq ≠ 0 ∧ (packet.tcpAck - tcb.highestRtxSeq).toInt < 0) ∧
    tcb.txEgressConduit.isSome ∧ (ring.bind (firstLeft packet.tcpAck)).isSome

/-- The phase after the acknowledgement. -/
def ackedPhase (packet : Packet Mbuf) (tcb : Tcb Mbuf) : Phase :=
  if ackProgresses tcb packet ∧ packet.tcpAck = tcb.sndNxt then
    match tcb.phase with
    | .finWait1 => .finWait2
    | .closing => .timeWait
    | .lastAck => .closed
    | phase => phase
  else tcb.phase

/-- A FIN behind the payload closes the circle of sequence numbers, and ends a connection that
hides the payload then.  No packet is that long. -/
def closesCircle (packet : Packet Mbuf) (phase : Phase) : Bool :=
  phase = .finWait2 ∧ packet.flagged Flag.fin ∧ packet.payloadLen + 1 = 0

/-- The phase receives no payload, and does not hide it either. -/
def overlooksPayload (packet : Packet Mbuf) (tcb : Tcb Mbuf) : Bool :=
  tcb.phase = .closeWait ∨ tcb.phase = .lastAck ∨
    tcb.phase = .closing ∧ ¬(ackProgresses tcb packet ∧ packet.tcpAck = tcb.sndNxt)

/-- A segment that does not fit is handed on as a whole. -/
def oversteps (platform : Platform) (packet : Packet Mbuf) (tcb : Tcb Mbuf) : Bool :=
  passes packet tcb ∧ packet.flagged Flag.ack ∧ 0 < packet.payloadLen ∧
    fitsWindow packet tcb = false ∧
    (losesBuffer platform packet tcb (afterOptions packet packet.tokens tcb).txUnackedRing ∨
      packet.flagged Flag.rst = false ∧ acksUnsent packet tcb = false ∧
        (tcb.phase.receives ∧ packet.payloadSeq = tcb.rcvNxt ∧
            closesCircle packet (ackedPhase packet tcb) = false ∨
          overlooksPayload packet tcb))

/-- There is no payload, or the whole of it lies in the window. -/
def WholeInside (packet : Packet Mbuf) (rcvNxt rcvWnd : BitVec 32) : Prop :=
  packet.payloadLen = 0 ∨
    (packet.payloadSeq - rcvNxt).toNat + packet.payloadLen.toNat ≤ rcvWnd.toNat

/-! ## Bytes -/

section Bytes

variable {packet : Packet Mbuf} {rcvNxt rcvWnd : BitVec 32} {call : Call Mbuf}

theorem DescribesInside.congr {other : Call Mbuf}
    (inside : DescribesInside packet rcvNxt rcvWnd call)
    (trimOffset : other.trimOffset = call.trimOffset)
    (payloadLen : other.payloadLen = call.payloadLen) :
    DescribesInside packet rcvNxt rcvWnd other := by
  unfold DescribesInside
  rw [trimOffset, payloadLen]
  exact inside

theorem describesInside_of_hidden (hidden : call.payloadLen = 0) :
    DescribesInside packet rcvNxt rcvWnd call := by
  intro i lower upper
  rw [hidden] at upper
  exact absurd upper (Nat.not_lt.mpr lower)

theorem staysInside_of_hidden {result : Return Mbuf} (unmoved : result.call.tcb.rcvNxt = rcvNxt)
    (hidden : result.accepted = true → result.call.payloadLen = 0) :
    StaysInside packet rcvNxt rcvWnd result := by
  refine ⟨⟨rcvNxt, ?_, .inl unmoved⟩, fun accepted => ?_⟩
  · rw [BitVec.sub_self]
    exact Nat.zero_le _
  · exact describesInside_of_hidden (hidden accepted)

/-- The whole payload is described. -/
theorem describesInside_whole (untrimmed : call.trimOffset = 0)
    (whole : call.payloadLen = packet.payloadLen) :
    DescribesInside packet rcvNxt rcvWnd call ↔ WholeInside packet rcvNxt rcvWnd := by
  have position (i : Nat) : (packet.payloadSeq + BitVec.ofNat 32 i - rcvNxt).toNat =
      ((packet.payloadSeq - rcvNxt).toNat + i) % 2 ^ 32 := by
    bv_omega
  have offset := (packet.payloadSeq - rcvNxt).isLt
  have none : (0 : BitVec 32).toNat = 0 := rfl
  unfold DescribesInside WholeInside
  rw [untrimmed, whole, none]
  simp only [position, Nat.zero_add]
  generalize (packet.payloadSeq - rcvNxt).toNat = distance at *
  have zero : packet.payloadLen = 0 ↔ packet.payloadLen.toNat = 0 :=
    ⟨fun empty => by rw [empty]; rfl, fun empty => BitVec.eq_of_toNat_eq empty⟩
  rw [zero]
  generalize packet.payloadLen.toNat = bytes at *
  constructor
  · intro inside
    by_contra outside
    -- the last number before the circle closes, or else the last byte, is outside
    by_cases wraps : 2 ^ 32 ≤ distance + bytes
    · have last := (inside (2 ^ 32 - 1 - distance) (Nat.zero_le _) (by omega)).2
      omega
    · have last := (inside (bytes - 1) (Nat.zero_le _) (by omega)).2
      omega
  · intro fits i _ below
    rcases fits with empty | fits
    · omega
    · refine ⟨below, ?_⟩
      omega

theorem describesInside_tail {overlap : Nat}
    (start : rcvNxt = packet.payloadSeq + BitVec.ofNat 32 overlap)
    (short : overlap < packet.payloadLen.toNat)
    (fits : packet.payloadLen.toNat - overlap ≤ rcvWnd.toNat)
    (trimmed : call.trimOffset = BitVec.ofNat 32 overlap)
    (rest : call.payloadLen = packet.payloadLen - BitVec.ofNat 32 overlap) :
    DescribesInside packet rcvNxt rcvWnd call := by
  intro i lower upper
  rw [trimmed, rest] at upper
  have trim : (BitVec.ofNat 32 overlap).toNat = overlap := by
    rw [BitVec.toNat_ofNat, Nat.mod_eq_of_lt (by omega)]
  have left : (packet.payloadLen - BitVec.ofNat 32 overlap).toNat =
      packet.payloadLen.toNat - overlap := by
    bv_omega
  have position : (packet.payloadSeq + BitVec.ofNat 32 i - rcvNxt).toNat = i - overlap := by
    bv_omega
  omega

end Bytes

end SlabFlux.Net.Tcp
