import SlabFlux.Lib.Outcome
import SlabFlux.Net.Reassembly.Model
import SlabFlux.Net.Tcp.ControlBlock

/-!
# Inbound segments

`tcp_flow_engine::process_inbound` for IPv4, cut at its comments into stages.  A stage
either hands the call on or returns from `process_inbound`.
-/

namespace SlabFlux.Net.Tcp

open SlabFlux.Core Lib Net.OooMatrix

variable {Mbuf : Type}

/-- The block and the output parameters of a call.  `mbufAbsorbed` is what the pointer of
that name points to, if it is not null. -/
structure Call (Mbuf : Type) where
  tcb : Tcb Mbuf
  payloadLen : BitVec 32
  trimOffset : BitVec 32
  mbufAbsorbed : Option Bool

variable (tcb : Tcb Mbuf) (platform : Platform) (packet : Packet Mbuf) (call : Call Mbuf)

/-- The return value with the block and the output parameters. -/
structure Return (Mbuf : Type) where
  accepted : Bool
  call : Call Mbuf

/-- What a stage comes to: a return, or the call handed on. -/
abbrev Stage (Mbuf : Type) := Except (Return Mbuf) (Call Mbuf)

namespace Call

/-- Return from `process_inbound`. -/
def exit (accepted : Bool) : Stage Mbuf := .error ⟨accepted, call⟩

/-- Change the block. -/
def on (change : Tcb Mbuf → Tcb Mbuf) : Call Mbuf :=
  { call with tcb := change call.tcb }

/-- Hide the payload from the caller. -/
def hide : Call Mbuf := { call with payloadLen := 0 }

/-- Answer with a challenge ACK, hide the payload and return `true`. -/
def challenge (platform : Platform) : Stage Mbuf :=
  ((call.on (·.triggerChallengeAck platform.now)).hide).exit true

end Call

/-! ## Window -/

def seqValid : Bool :=
  if tcb.phase = .synSent then
    if packet.flagged Flag.ack then packet.tcpAck = tcb.sndNxt
    else packet.flagged Flag.syn
  else if tcb.rcvWnd = 0 then packet.payloadLen = 0 ∧ packet.tcpSeq = tcb.rcvNxt
  else
    let distHead := packet.tcpSeq - tcb.rcvNxt
    let distTail := packet.endSeq - 1 - tcb.rcvNxt
    (0 ≤ distHead.toInt ∧ distHead < tcb.rcvWnd) ∨
      (0 < packet.payloadLen ∧ 0 ≤ distTail.toInt ∧ distTail < tcb.rcvWnd)

/-- The answer to a segment outside the window. -/
def rejectOutOfWindow : Stage Mbuf :=
  if packet.flagged Flag.rst then call.exit false
  else if call.tcb.phase = .synSent ∧ packet.flagged Flag.ack then
    ((call.on (·.pend Flag.rst)).hide).exit true
  else if packet.payloadLen = 0 ∧ packet.tcpFlags = Flag.ack then
    if (call.tcb.rcvNxt - packet.tcpSeq).toInt = 1 then call.challenge platform
    else call.exit false
  else call.challenge platform

/-- The sequence check. -/
def checkWindow : Stage Mbuf :=
  if seqValid call.tcb packet then .ok call else rejectOutOfWindow platform packet call

/-! ## TTL, ECN and blind SYN -/

/-- Whether the hop count is close to the one seen before. -/
def ttlPlausible : Bool :=
  ((packet.ipTtl.toNat : Int) - tcb.expectedTtl.toNat).natAbs ≤ 6

/-- The hop count check. -/
def checkTtl : Stage Mbuf :=
  if call.tcb.expectedTtl = 0 then .ok call
  else if ttlPlausible call.tcb packet then
    .ok (call.on fun tcb => { tcb with expectedTtl := packet.ipTtl })
  else call.exit false

/-- A packet that met congestion, in order: echo it. -/
def echoCongestion (tcb : Tcb Mbuf) : Tcb Mbuf :=
  if packet.ipTos &&& 0x03 = 0x03 ∧ 0 < packet.payloadLen ∧ packet.tcpSeq = tcb.rcvNxt then
    (tcb.raise TemporalFlag.ecnEcho).pend Flag.ack
  else tcb

/-- An echo from the peer: cut the congestion window once. -/
def obeyEcho (tcb : Tcb Mbuf) : Tcb Mbuf :=
  if packet.flagged Flag.ece ∧ tcb.ssthresh < tcb.cwnd then
    { tcb with
      ssthresh := Tcb.halved tcb.safeCwnd
      cwnd := Tcb.halved tcb.safeCwnd }.raise TemporalFlag.cwr
  else tcb

/-- The peer cut its window: stop echoing. -/
def stopEcho (tcb : Tcb Mbuf) : Tcb Mbuf :=
  if packet.flagged Flag.cwr then tcb.lower TemporalFlag.ecnEcho else tcb

/-- Explicit congestion notification. -/
def reactToEcn : Stage Mbuf :=
  if call.tcb.ecnPermitted = 0 then .ok call
  else .ok (call.on fun tcb => stopEcho packet (obeyEcho packet (echoCongestion packet tcb)))

/-- A SYN that recycles a connection in `TIME_WAIT`. -/
def recycles : Bool :=
  tcb.phase = .timeWait ∧ 0 < (packet.tcpSeq - tcb.rcvNxt).toInt

/-- A SYN on a connection that is already open. -/
def guardSyn : Stage Mbuf :=
  if packet.flagged Flag.syn ∧ call.tcb.phase.guardsSyn then
    if recycles call.tcb packet then
      .ok (call.on fun tcb =>
        { tcb with
          sndUna := platform.mac
          sndNxt := platform.mac
          dupAcks := 0
          temporalFlags := 0
          flagsPending := 0
          rtoRetries := 0
          timeWaitDeadlineTsc := 0
          rtoDeadlineTsc := 0 })
    else call.challenge platform
  else .ok call

/-! ## Options -/

/-- An option of a SYN. -/
def synOption (token : OptionToken) (tcb : Tcb Mbuf) : Tcb Mbuf :=
  if token.kind = 2 ∧ token.data.length = 2 then
    let mss := token.data.getD 0 0 ++ token.data.getD 1 0
    { tcb with remoteMss := if mss < 536 then 536 else mss }
  else if token.kind = 3 ∧ token.data.length = 1 then
    { tcb with
      sndWscale := if 14 < token.data.getD 0 0 then 14 else token.data.getD 0 0
      rcvWscale := 7 }
  else if token.kind = 4 ∧ token.data.length = 0 then { tcb with sackPermitted := 1 }
  else tcb

variable (block : BitVec 32 × BitVec 32)

/-- Whether a SACK block lies in the flight. -/
def sackPlausible (block : BitVec 32 × BitVec 32) : Bool :=
  let inflight := tcb.sndNxt - tcb.sndUna
  (block.1 - tcb.sndUna).toInt ≤ inflight.toInt ∧
    (block.2 - tcb.sndUna).toInt ≤ inflight.toInt ∧ 0 < (block.2 - block.1).toInt

/-- Whether a SACK block covers a segment. -/
def sackCovers (frame : Frame) : Bool :=
  0 ≤ (frame.tcpSeq - block.1).toInt ∧ 0 ≤ (block.2 - frame.seqEnd).toInt

/-- Mark the segment at an offset if the block covers it. -/
def markSacked (ring : UnackedRing) (offset : Nat) : UnackedRing :=
  if sackCovers block (ring.peekSlot offset).frame then
    ring.modifyPeekSlot offset fun segment => { segment with isSacked := true }
  else ring

/-- One SACK block, over every segment that can be peeked at. -/
def applySackBlock (ring : UnackedRing) (block : BitVec 32 × BitVec 32) : UnackedRing :=
  if sackPlausible tcb block then
    (List.range ring.refresh.available).foldl (markSacked block) ring.refresh
  else ring

/-- A SACK option. -/
def sackOption (token : OptionToken) (tcb : Tcb Mbuf) : Tcb Mbuf :=
  match tcb.txUnackedRing with
  | none => tcb
  | some ring =>
      { tcb with txUnackedRing := some (token.sackBlocks.foldl (applySackBlock tcb) ring) }

/-- Whether a timestamp is older than the last one. -/
def tsOld (tcb : Tcb Mbuf) (tsval : BitVec 32) : Bool :=
  0 < (tcb.tsRecent - tsval).toInt ∨ tcb.tsRecent - tsval = 0x80000000

/-- Whether the packet acknowledges something in flight. -/
def ackInFlight : Bool :=
  packet.tcpAck - tcb.sndUna ≤ tcb.sndNxt - tcb.sndUna ∧ packet.tcpAck ≠ tcb.sndUna

/-- Whether PAWS rejects a timestamp.  The comparisons of sequence numbers are those of
unsigned integers. -/
def pawsRejects (tsval : BitVec 32) : Bool :=
  tsOld tcb tsval ∧ packet.tcpSeq ≤ tcb.rcvNxt ∧
    ¬(packet.endSeq ≤ tcb.rcvNxt ∧ ackInFlight tcb packet)

/-- A timestamp that is not rejected. -/
def recordTimestamp (tsval : BitVec 32) (tcb : Tcb Mbuf) : Tcb Mbuf :=
  if packet.tcpSeq ≤ tcb.rcvNxt then { tcb with tsRecent := tsval } else tcb

/-- The options of a packet, one after the other.  A SACK option of the wrong length
ends the walk. -/
def processOptions (platform : Platform) (packet : Packet Mbuf) :
    List OptionToken → Call Mbuf → Stage Mbuf
  | [], call => .ok call
  | token :: rest, call =>
      if packet.flagged Flag.syn then
        processOptions platform packet rest (call.on (synOption token))
      else if token.kind = 5 ∧ call.tcb.sackPermitted ≠ 0 then
        if token.data.length % 8 ≠ 0 then .ok call
        else processOptions platform packet rest (call.on (sackOption token))
      else if token.kind = 8 ∧ token.data.length = 8 ∧ call.tcb.tsPermitted ≠ 0 then
        if pawsRejects call.tcb packet (token.word 0) then call.challenge platform
        else
          processOptions platform packet rest
            (call.on (recordTimestamp packet (token.word 0)))
      else processOptions platform packet rest call

/-- The option part of the header. -/
def parseOptions : Stage Mbuf :=
  processOptions platform packet packet.tokens call

/-! ## Acknowledgements -/

/-- The SYN-ACK that answers our SYN. -/
def completeOpen (tcb : Tcb Mbuf) : Tcb Mbuf :=
  { tcb with
    expectedTtl := packet.ipTtl
    ecnPermitted := if packet.flagged Flag.ece then 1 else tcb.ecnPermitted
    phase := .established
    rcvNxt := packet.tcpSeq + 1
    sndUna := packet.tcpAck
    cwnd := 14600
    ssthresh := 65535
    sndWnd := packet.tcpWindow.setWidth 32 }.pend Flag.ack

/-- Whether the packet acknowledges more than before and no more than was sent. -/
def ackProgresses : Bool :=
  0 < (packet.tcpAck - tcb.sndUna).toInt ∧ packet.tcpAck - tcb.sndUna ≤ tcb.sndNxt - tcb.sndUna

/-- The ACK of our SYN-ACK. -/
def completeAccept (tcb : Tcb Mbuf) : Tcb Mbuf :=
  { tcb with
    phase := .established
    cwnd := 14600
    ssthresh := 65535
    sndUna := packet.tcpAck
    sndNxt := packet.tcpAck
    expectedTtl := packet.ipTtl
    oooMatrix := tcb.oooMatrix.map (·.reset tcb.rcvNxt) }

/-- The handshake part of ACK processing. -/
def completeHandshake : Stage Mbuf :=
  if call.tcb.phase = .synSent then
    if packet.flagged Flag.syn then ((call.on (completeOpen packet)).hide).exit true
    else .ok call
  else if call.tcb.phase = .synRcvd then
    if ackProgresses call.tcb packet then .ok (call.on (completeAccept packet))
    else call.challenge platform
  else .ok call

def currentWnd : BitVec 32 :=
  packet.tcpWindow.setWidth 32 <<<
    (if packet.flagged Flag.syn then 0 else tcb.sndWscale.toNat)

def isDup : Bool :=
  packet.tcpAck = tcb.sndUna ∧ packet.payloadLen = 0 ∧
    currentWnd tcb packet = tcb.sndWnd ∧ packet.flagged (Flag.syn ||| Flag.fin) = false

/-- The new `dup_acks`. -/
def countDup : BitVec 8 :=
  if isDup tcb packet then tcb.dupAcks + 1 else 0

/-- Retransmit the segment at an offset of the ring and remember how far retransmission
has come.  A buffer whose reference count is exhausted closes the connection. -/
def retransmit (ring : UnackedRing) (egress : List Frame) (offset : Nat) (call : Call Mbuf) :
    Stage Mbuf :=
  let tcb :=
    { call.tcb with
      txUnackedRing := some ring
      highestRtxSeq := (ring.peekSlot offset).frame.seqEnd }
  if platform.retains then .ok { call with tcb := tcb.resend ring egress offset }
  else { call with tcb := { tcb with phase := .closed }.pend Flag.rst }.exit true

/-- Entry to fast recovery on the third duplicate. -/
def enterRecovery : Tcb Mbuf :=
  { tcb with
    ssthresh := Tcb.halved tcb.safeCwnd
    cwnd := Tcb.halved tcb.safeCwnd + 4380
    recover := tcb.sndNxt
    highestRtxSeq := 0 }

/-- Fast retransmit. -/
def fastRetransmit : Stage Mbuf :=
  let call := call.on enterRecovery
  match call.tcb.txUnackedRing, call.tcb.txEgressConduit with
  | some ring, some egress =>
      if 0 < ring.refresh.available then
        retransmit platform ring.refresh egress 0 call
      else .ok (call.on fun tcb => { tcb with txUnackedRing := some ring.refresh })
  | _, _ => .ok call

/-- Further duplicates inflate the window. -/
def inflate : Tcb Mbuf :=
  if tcb.cwnd ≤ 0xFFFFFFFF - 1460 then { tcb with cwnd := tcb.cwnd + 1460 } else tcb

variable (wasFastRecovery : Bool)

/-- Whether the ACK that ends or continues fast recovery is partial. -/
def isPartialAck : Bool :=
  wasFastRecovery ∧ 0 < (tcb.recover - packet.tcpAck).toInt

/-- A full ACK ends fast recovery. -/
def leaveRecovery (tcb : Tcb Mbuf) : Tcb Mbuf :=
  if wasFastRecovery ∧ isPartialAck tcb packet wasFastRecovery = false then
    { tcb with cwnd := tcb.ssthresh, dupAcks := 0 }
  else tcb

/-- The move of `snd_una`. -/
def advanceUna (tcb : Tcb Mbuf) : Tcb Mbuf :=
  { tcb with
    sndUna := packet.tcpAck
    rtoRetries := 0
    temporalFlags :=
      if packet.tcpAck = tcb.sndNxt then tcb.temporalFlags &&& ~~~TemporalFlag.retransmit
      else tcb.temporalFlags
    rtoDeadlineTsc := 0 }

/-- Whether an acknowledgement covers the whole of a segment. -/
def fullyAcked (sndUna : BitVec 32) (frame : Frame) : Bool :=
  (sndUna - frame.seqEnd).toNat ≤ 0x7FFFFFFF

/-- The loop that releases segments the ACK covers.  Every turn consumes an entry, so the
occupancy is enough fuel. -/
def consumeAcked (sndUna : BitVec 32) : Nat → UnackedRing → UnackedRing
  | 0, ring => ring.refresh
  | fuel + 1, ring =>
      if ring.refresh.available = 0 then ring.refresh
      else if fullyAcked sndUna (ring.refresh.peekSlot 0).frame then
        consumeAcked sndUna fuel
          (ring.refresh.modifyPeekSlot 0 OutboundSegment.release).consume
      else ring.refresh

/-- Sliding window consumption. -/
def slideUnacked : Tcb Mbuf :=
  { tcb with
    txUnackedRing :=
      tcb.txUnackedRing.map fun ring => consumeAcked tcb.sndUna ring.occupancy ring }

/-- Phase changes once everything sent is acknowledged. -/
def teardown : Tcb Mbuf :=
  if tcb.phase = .finWait1 ∧ tcb.sndUna = tcb.sndNxt then
    { tcb with phase := .finWait2, timeWaitDeadlineTsc := 0 }
  else if tcb.phase = .closing ∧ tcb.sndUna = tcb.sndNxt then
    { tcb with phase := .timeWait, timeWaitDeadlineTsc := 0 }
  else if tcb.phase = .lastAck ∧ tcb.sndUna = tcb.sndNxt then
    { tcb with phase := .closed }
  else tcb

/-- The block once an ACK has moved `snd_una`. -/
def acknowledged (tcb : Tcb Mbuf) : Tcb Mbuf :=
  teardown (slideUnacked (advanceUna packet (leaveRecovery packet wasFastRecovery tcb)))

/-- The first segment that no SACK block has covered. -/
def firstUnsacked (ring : UnackedRing) : Option Nat :=
  (List.range ring.available).find? fun offset => !(ring.peekSlot offset).isSacked

/-- Retransmission on a partial ACK, unless the last one is still to be acknowledged. -/
def partialRetransmit : Stage Mbuf :=
  if call.tcb.highestRtxSeq ≠ 0 ∧ (packet.tcpAck - call.tcb.highestRtxSeq).toInt < 0 then
    .ok call
  else
    match call.tcb.txUnackedRing, call.tcb.txEgressConduit with
    | some ring, some egress =>
        match firstUnsacked ring.refresh with
        | some offset => retransmit platform ring.refresh egress offset call
        | none => .ok (call.on fun tcb => { tcb with txUnackedRing := some ring.refresh })
    | _, _ => .ok call

/-- Slow start and congestion avoidance. -/
def growCwnd : Tcb Mbuf :=
  let caInc := (1460 * 1460 : BitVec 32) / tcb.safeCwnd
  let caInc := if caInc = 0 then 1 else caInc
  { tcb with
    cwnd := tcb.safeCwnd + if tcb.safeCwnd < tcb.ssthresh then 1460 else caInc }

/-- An ACK that moves `snd_una`. -/
def progressAck (call : Call Mbuf) : Stage Mbuf :=
  let isPartial := isPartialAck call.tcb packet wasFastRecovery
  let window := currentWnd call.tcb packet
  let call := call.on (acknowledged packet wasFastRecovery)
  (if isPartial then partialRetransmit platform packet call else .ok (call.on growCwnd)).map
    fun call => call.on fun tcb => { tcb with sndWnd := window }

/-- An ACK that is no duplicate, or one of the first two. -/
def plainAck (wasFastRecovery isDup : Bool) (call : Call Mbuf) : Stage Mbuf :=
  if ackProgresses call.tcb packet then
    progressAck platform packet wasFastRecovery call
  else if 0 < (packet.tcpAck - call.tcb.sndUna).toInt then call.challenge platform
  else if isDup = false ∧ packet.tcpSeq = call.tcb.rcvNxt then
    .ok (call.on fun tcb => { tcb with sndWnd := currentWnd tcb packet })
  else .ok call

/-- ACK processing after the handshake. -/
def applyAck : Stage Mbuf :=
  let wasFastRecovery : Bool := 3 ≤ call.tcb.dupAcks
  let isDup := isDup call.tcb packet
  let call := call.on fun tcb => { tcb with dupAcks := countDup tcb packet }
  if call.tcb.dupAcks = 3 then fastRetransmit platform call
  else if 3 < call.tcb.dupAcks then .ok (call.on inflate)
  else plainAck platform packet wasFastRecovery isDup call

/-- ACK processing. -/
def processAck : Stage Mbuf :=
  if packet.flagged Flag.ack then
    (completeHandshake platform packet call).bind (applyAck platform packet)
  else .ok call

/-! ## RST and SYN -/

/-- RST processing. -/
def processRst : Stage Mbuf :=
  if packet.flagged Flag.rst then
    if call.tcb.phase = .timeWait then call.hide.exit true
    else if packet.tcpSeq = call.tcb.rcvNxt ∨ call.tcb.phase = .synSent then
      ((call.on fun tcb => { tcb with phase := .closed }).hide).exit true
    else call.challenge platform
  else .ok call

/-- SYN processing. -/
def processSyn : Stage Mbuf :=
  if packet.flagged Flag.syn then
    let call := call.on fun tcb => { tcb with rcvNxt := packet.tcpSeq + 1 }
    let wasSynSent := call.tcb.phase = .synSent
    let call := call.on fun tcb =>
      { tcb with phase := .synRcvd }.pend (Flag.syn ||| Flag.ack)
    if wasSynSent then call.hide.exit true
    else
      ((call.on fun tcb =>
        { tcb with oooMatrix := tcb.oooMatrix.map (·.reset tcb.rcvNxt) }).hide).exit true
  else .ok call

/-- Segments of an open connection carry an ACK. -/
def requireAck : Stage Mbuf :=
  if packet.flagged Flag.ack = false ∧ call.tcb.phase.requiresAck then call.hide.exit false
  else .ok call

/-! ## Payload -/

/-- Move a SACK block out of the way of `rcv_nxt`. -/
def SackBlock.trim (rcvNxt : BitVec 32) (block : SackBlock) : SackBlock :=
  if block.valid then
    if 0 ≤ (rcvNxt - block.right).toInt then { block with valid := false }
    else if 0 ≤ (rcvNxt - block.left).toInt then { block with left := rcvNxt }
    else block
  else block

/-- Schedule the acknowledgement of payload: at once for a push or a FIN and for every
second segment, else delayed. -/
def scheduleAck (tcb : Tcb Mbuf) : Tcb Mbuf :=
  if packet.flagged (Flag.psh ||| Flag.fin) then
    { tcb with quickAckCnt := 0 }.pend Flag.ack
  else if 2 ≤ tcb.quickAckCnt + 1 then { tcb with quickAckCnt := 0 }.pend Flag.ack
  else { tcb with quickAckCnt := tcb.quickAckCnt + 1 }.raise TemporalFlag.ackPending

/-- Payload that starts at `rcv_nxt`. -/
def acceptInOrder (payloadLen : BitVec 32) (tcb : Tcb Mbuf) : Tcb Mbuf :=
  let rcvNxt := tcb.rcvNxt + payloadLen
  scheduleAck packet
    { tcb with
      rcvNxt := rcvNxt
      sackBlocks := fun index => (tcb.sackBlocks index).trim rcvNxt }

/-- Whether a SACK block touches a range. -/
def SackBlock.touches (block : SackBlock) (left right : BitVec 32) : Bool :=
  block.valid ∧ (left - block.right).toInt ≤ 0 ∧ 0 ≤ (right - block.left).toInt

/-- Extend a SACK block over a range. -/
def SackBlock.extend (block : SackBlock) (left right : BitVec 32) : SackBlock :=
  { block with
    left := if (left - block.left).toInt < 0 then left else block.left
    right := if 0 < (right - block.right).toInt then right else block.right }

/-- Add a range to the SACK blocks: to the first it touches, else in front. -/
def recordSack (blocks : Fin 3 → SackBlock) (left right : BitVec 32) : Fin 3 → SackBlock :=
  match (List.finRange 3).find? fun index => (blocks index).touches left right with
  | some index => Function.update blocks index ((blocks index).extend left right)
  | none => fun index =>
      match index with
      | 0 => { left := left, right := right, valid := true }
      | 1 => blocks 0
      | 2 => blocks 1

/-- A packet's segment as the matrix takes it. -/
def Packet.slot : MbufSlot Mbuf where
  seq := packet.payloadSeq
  len := packet.payloadLen
  mbuf := packet.mbuf
  payloadOffset := packet.payloadOffset
  flags := packet.tcpFlags

/-- Payload that starts after `rcv_nxt` goes to the matrix, if there is one. -/
def bufferOutOfOrder : Call Mbuf :=
  match call.tcb.oooMatrix, packet.mbuf, call.mbufAbsorbed with
  | some matrix, some mbuf, some _ =>
      let slot : MbufSlot Mbuf :=
        { seq := packet.payloadSeq
          len := call.payloadLen
          mbuf := some mbuf
          payloadOffset := packet.payloadOffset
          flags := packet.tcpFlags }
      let result := matrix.insertMbuf call.tcb.rcvNxt slot
      { call with
        tcb :=
          { call.tcb with
            oooMatrix := some result.1
            sackBlocks := recordSack call.tcb.sackBlocks packet.payloadSeq
              (packet.payloadSeq + call.payloadLen) }
        mbufAbsorbed := some result.2 }
  | _, _, _ => call

/-- Payload whose tail is new. -/
def acceptTail (overlap : Nat) (call : Call Mbuf) : Call Mbuf :=
  let payloadLen := call.payloadLen - BitVec.ofNat 32 overlap
  { call with
    trimOffset := BitVec.ofNat 32 overlap
    payloadLen := payloadLen
    tcb := scheduleAck packet { call.tcb with rcvNxt := call.tcb.rcvNxt + payloadLen } }

/-- The three-way split on where the payload starts. -/
def processPayload : Stage Mbuf :=
  if call.tcb.phase.receives ∧ (0 < call.payloadLen ∨ packet.flagged Flag.fin) then
    match placement call.tcb.rcvNxt packet.payloadSeq call.payloadLen.toNat with
    | .inOrder => .ok (call.on (acceptInOrder packet call.payloadLen))
    | .outOfOrder =>
        .ok (((bufferOutOfOrder packet call).on (·.pend Flag.ack)).hide)
    | .leap => call.exit false
    | .tail overlap => .ok (acceptTail packet overlap call)
    | .duplicate => .ok ((call.on (·.pend Flag.ack)).hide)
  else .ok call

/-! ## FIN -/

/-- The phase after the peer's FIN. -/
def acceptFinPhase : Tcb Mbuf :=
  if tcb.phase = .established ∨ tcb.phase = .synRcvd then { tcb with phase := .closeWait }
  else if tcb.phase = .finWait1 then { tcb with phase := .closing }
  else if tcb.phase = .finWait2 then
    { tcb with phase := .timeWait, timeWaitDeadlineTsc := 0 }
  else tcb

/-- The FIN takes one sequence number. -/
def acceptFin : Tcb Mbuf :=
  acceptFinPhase ({ tcb with rcvNxt := tcb.rcvNxt + 1 }.pend Flag.ack)

/-- FIN processing, strictly in order. -/
def processFin : Stage Mbuf :=
  if packet.flagged Flag.fin then
    if packet.payloadSeq + packet.payloadLen = call.tcb.rcvNxt then
      .ok (call.on acceptFin)
    else if call.tcb.phase = .timeWait then
      .ok (call.on fun tcb => { tcb with timeWaitDeadlineTsc := 0 }.pend Flag.ack)
    else .ok call
  else .ok call

/-- Payload in `TIME_WAIT` is answered with a challenge. -/
def challengeTimeWait : Stage Mbuf :=
  if call.tcb.phase = .timeWait ∧ 0 < packet.payloadLen then
    .ok ((call.on (·.triggerChallengeAck platform.now)).hide)
  else .ok call

/-! ## The whole call -/

/-- The stages in the order of the source. -/
def stages : List (Call Mbuf → Stage Mbuf) :=
  [checkWindow platform packet, checkTtl packet, reactToEcn packet,
    guardSyn platform packet, parseOptions platform packet, processAck platform packet,
    processRst platform packet, processSyn packet, requireAck packet,
    processPayload packet, processFin packet, challengeTimeWait platform packet]

/-- Run stages until one returns. -/
def runStages : List (Call Mbuf → Stage Mbuf) → Call Mbuf → Return Mbuf
  | [], call => ⟨true, call⟩
  | stage :: rest, call =>
      match stage call with
      | .error result => result
      | .ok call => runStages rest call

/-- The rule for a row of stages: a stage that returns ends it. -/
theorem runStages_cons {stage : Call Mbuf → Stage Mbuf}
    {rest : List (Call Mbuf → Stage Mbuf)} {call : Call Mbuf} {next : Call Mbuf → Prop}
    {result : Return Mbuf → Prop} (ensured : Ensures (stage call) next result)
    (continued : ∀ call, next call → result (runStages rest call)) :
    result (runStages (stage :: rest) call) := by
  rw [runStages]
  cases outcome : stage call with
  | error early =>
      rw [outcome] at ensured
      exact ensured
  | ok value =>
      rw [outcome] at ensured
      exact continued value ensured

def processInbound (tcb : Tcb Mbuf) (trimOffset : BitVec 32) (mbufAbsorbed : Option Bool) :
    Return Mbuf :=
  runStages (stages platform packet)
    { tcb := tcb
      payloadLen := packet.payloadLen
      trimOffset := trimOffset
      mbufAbsorbed := mbufAbsorbed }

end SlabFlux.Net.Tcp
