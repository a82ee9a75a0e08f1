import SlabFlux.Net.Tcp.ControlBlock

/-!
# Sending

`tcp_flow_engine::prepare_outbound_header` for IPv4 and
`tcp_flow_engine::dispatch_control_frames`.

`virtual_tcp_socket::connect` and `send` for IPv4, on a socket with a block.
-/

namespace SlabFlux.Net.Tcp

open Lib

variable {Mbuf : Type}

namespace Tcb

variable (tcb : Tcb Mbuf)

/-- The valid SACK blocks, if the segment may carry them. -/
def outboundSack (flags : BitVec 8) : List (BitVec 32 × BitVec 32) :=
  if tcb.sackPermitted ≠ 0 ∧ has flags Flag.syn = false then
    (((List.finRange 3).map tcb.sackBlocks).filter (·.valid)).map fun block =>
      (block.left, block.right)
  else []

/-- `opt_len`.  Every part is a multiple of four, so there is no padding. -/
def optLen (flags : BitVec 8) : Nat :=
  let sack := (tcb.outboundSack flags).length
  (if has flags Flag.syn then 12 else 0) + (if tcb.tsPermitted ≠ 0 then 12 else 0) +
    if 0 < sack then 4 + sack * 8 else 0

variable (payloadLen : Nat)

/-- The payload length, clamped to what an IPv4 packet can hold. -/
def clampPayload (flags : BitVec 8) : Nat :=
  if 65535 - 40 - tcb.optLen flags < payloadLen then 65535 - 40 - tcb.optLen flags
  else payloadLen

/-- `is_probe`: the segment is a keep-alive probe. -/
def isProbe : Bool := tcb.temporal TemporalFlag.keepaliveProbe

def outFlags (flags : BitVec 8) : BitVec 8 :=
  let flags' := if tcb.phase = .synSent ∧ flags = Flag.syn then flags else flags ||| Flag.ack
  let flags' := if tcb.temporal TemporalFlag.ecnEcho then flags' ||| Flag.ece else flags'
  let flags' := if tcb.temporal TemporalFlag.cwr then flags' ||| Flag.cwr else flags'
  if has flags Flag.syn ∧ tcb.ecnPermitted ≠ 0 then flags' ||| (Flag.ece ||| Flag.cwr)
  else flags'

/-- The new `rcv_wnd`: the room in the receive ring, or zero where it is too little to
announce. -/
def receiveWindow : BitVec 32 :=
  match tcb.rxStreamRing with
  | none => tcb.rcvWnd
  | some used =>
      let wnd : BitVec 32 := if used < 4096 then BitVec.ofNat 32 (4096 - used) else 0
      let mss : BitVec 32 := if 0 < tcb.remoteMss then tcb.remoteMss.setWidth 32 else 1460
      let scaledWnd := wnd >>> tcb.rcvWscale.toNat
      let scaledMss := mss >>> tcb.rcvWscale.toNat
      let scaledThreshold := (2048 : BitVec 32) >>> tcb.rcvWscale.toNat
      if tcb.rcvWnd >>> tcb.rcvWscale.toNat = 0 then
        if scaledWnd < scaledThreshold then 0 else wnd
      else if scaledWnd < scaledMss ∧ scaledWnd < scaledThreshold then 0
      else wnd

/-- `seq`: a probe repeats the last number sent. -/
def outboundSeq : BitVec 32 :=
  if tcb.isProbe then tcb.sndNxt - 1 else tcb.sndNxt

/-- The block after `prepare_outbound_header`, for a clamped payload length. -/
def afterOutbound (flags : BitVec 8) : Tcb Mbuf :=
  { tcb with
    temporalFlags :=
      tcb.temporalFlags &&& ~~~TemporalFlag.keepaliveProbe &&& ~~~TemporalFlag.cwr
    rcvWnd := tcb.receiveWindow
    tsVal := if tcb.tsPermitted ≠ 0 then tcb.tsVal + 1 else tcb.tsVal
    sndNxt :=
      if tcb.isProbe then tcb.sndNxt
      else tcb.sndNxt + BitVec.ofNat 32
        (payloadLen + if has flags (Flag.syn ||| Flag.fin) then 1 else 0) }

/-- The header `prepare_outbound_header` writes, for a clamped payload length.  The
payload is zero until the caller copies its own. -/
def outboundFrame (flags : BitVec 8) : Frame where
  destMac := tcb.targetMac
  ipIhlVer := 0x45
  ipTos := if tcb.ecnPermitted ≠ 0 then 0x02 else 0
  ipLen := BitVec.ofNat 16 (40 + tcb.optLen flags + payloadLen)
  ipTtl := 64
  ipSrc := tcb.localIpv4
  ipDst := tcb.remoteIpv4
  tcpSrcPort := tcb.localPort
  tcpDstPort := tcb.remotePort
  tcpSeq := tcb.outboundSeq
  tcpAck := tcb.rcvNxt
  tcpDataOffset := BitVec.ofNat 8 ((20 + tcb.optLen flags) / 4) <<< 4
  tcpFlags := tcb.outFlags flags
  tcpWindow :=
    let window := tcb.receiveWindow >>> tcb.rcvWscale.toNat
    if 65535 < window then 65535 else window.setWidth 16
  options :=
    { synBlock := has flags Flag.syn
      timestamp := if tcb.tsPermitted ≠ 0 then some (tcb.tsVal + 1, tcb.tsRecent) else none
      sackBlocks := tcb.outboundSack flags }
  payload := List.replicate payloadLen 0

def prepareOutboundHeader (flags : BitVec 8) :
    Tcb Mbuf × Frame :=
  let payloadLen := tcb.clampPayload payloadLen flags
  (tcb.afterOutbound payloadLen flags, tcb.outboundFrame payloadLen flags)

/-- A RST drives out every other pending flag. -/
def dispatchFlags : BitVec 8 :=
  if has tcb.flagsPending Flag.rst then Flag.rst else tcb.flagsPending

/-- Keep a SYN or FIN for retransmission.  A buffer whose reference count is exhausted
closes the connection. -/
def trackControl (platform : Platform) (frame : Frame) (flags : BitVec 8)
    (tcb : Tcb Mbuf) : Tcb Mbuf :=
  if has flags (Flag.syn ||| Flag.fin) then
    match tcb.txUnackedRing with
    | none => tcb
    | some ring =>
        if platform.retains then
          { tcb with txUnackedRing := some (ring.commit (OutboundSegment.hold frame)) }
        else { tcb with phase := .closed }.pend Flag.rst
  else tcb

/-- `dispatch_control_frames`.  The reserved slots are never null. -/
def dispatchControlFrames (platform : Platform) (tcb : Tcb Mbuf) : Tcb Mbuf :=
  match tcb.txEgressConduit with
  | none => tcb
  | some egress =>
      if tcb.flagsPending ≠ 0 ∧ tcb.txMbufPool = true then
        if 0 < platform.buffers then
          let flags := tcb.dispatchFlags
          let pLen := tcb.controlPayloadLen.toNat
          let prepared := { tcb with flagsPending := flags, controlPayloadLen := 0
            }.prepareOutboundHeader pLen flags
          let tracked := prepared.1.trackControl platform prepared.2 flags
          { tracked with
            txEgressConduit := some (egress ++ [prepared.2])
            flagsPending := 0 }
        else { tcb with flagsPending := 0 }
      else tcb

end Tcb

/-! ## The header and its lengths -/

section Headers

variable (tcb : Tcb Mbuf) (flags : BitVec 8)

theorem length_outboundSack_le : (tcb.outboundSack flags).length ≤ 3 := by
  unfold Tcb.outboundSack
  split_ifs
  · rw [List.length_map]
    refine (List.length_filter_le _ _).trans ?_
    rw [List.length_map, List.length_finRange]
  · exact Nat.zero_le 3

/-- The options fit the header and leave no remainder. -/
theorem optLen_bounds : tcb.optLen flags ≤ 40 ∧ tcb.optLen flags % 4 = 0 := by
  have sack := length_outboundSack_le tcb flags
  have none : has flags Flag.syn = true → (tcb.outboundSack flags).length = 0 := by
    intro syn
    unfold Tcb.outboundSack
    rw [if_neg (by simp [syn])]
    rfl
  unfold Tcb.optLen
  dsimp only
  cases syn : has flags Flag.syn with
  | true =>
      split_ifs <;> simp_all
  | false => split_ifs <;> simp_all <;> omega

theorem clampPayload_of_le {payloadLen : Nat} (short : payloadLen ≤ 1460) :
    tcb.clampPayload payloadLen flags = payloadLen := by
  have bound := (optLen_bounds tcb flags).1
  exact if_neg (by omega)

/-- The data offset is read back as it was written. -/
theorem toNat_dataOffset :
    ((BitVec.ofNat 8 ((20 + tcb.optLen flags) / 4) <<< 4) >>> 4).toNat =
      (20 + tcb.optLen flags) / 4 := by
  have bound := (optLen_bounds tcb flags).1
  rw [BitVec.toNat_ushiftRight, BitVec.toNat_shiftLeft, BitVec.toNat_ofNat,
    Nat.shiftLeft_eq, Nat.shiftRight_eq_div_pow]
  omega

/-- A probe is sent once. -/
theorem isProbe_afterOutbound (payloadLen : Nat) (flags : BitVec 8) :
    (tcb.afterOutbound payloadLen flags).isProbe = false := by
  have cleared : ~~~TemporalFlag.keepaliveProbe &&& ~~~TemporalFlag.cwr &&&
      TemporalFlag.keepaliveProbe = 0#8 := by decide
  change has (tcb.temporalFlags &&& ~~~TemporalFlag.keepaliveProbe &&&
    ~~~TemporalFlag.cwr) TemporalFlag.keepaliveProbe = false
  unfold has
  rw [BitVec.and_assoc, BitVec.and_assoc, ← BitVec.and_assoc (~~~_), cleared, BitVec.and_zero]
  rfl

end Headers

/-! ## The virtual socket -/

namespace Tcb

/-- Put a segment on the wire. -/
def transmit (tcb : Tcb Mbuf) (frame : Frame) : Tcb Mbuf :=
  { tcb with txEgressConduit := tcb.txEgressConduit.map (· ++ [frame]) }

def connect (platform : Platform) (targetIp : BitVec 32) (targetPort : BitVec 16)
    (tcb : Tcb Mbuf) : Tcb Mbuf × Bool :=
  if tcb.phase ≠ .closed then (tcb, false)
  else if tcb.txEgressConduit.isNone then (tcb, false)
  else if tcb.txMbufPool = false then (tcb, false)
  else if platform.buffers = 0 then (tcb, false)
  else
    let tcb :=
      { tcb with phase := .synSent, remoteIpv4 := targetIp, remotePort := targetPort }
    if tcb.targetMac = 0 then (tcb.raise TemporalFlag.arpWait, false)
    else
      let prepared := tcb.prepareOutboundHeader 0 Flag.syn
      (prepared.1.transmit prepared.2, true)

def isEstablished (tcb : Tcb Mbuf) : Bool :=
  tcb.phase = .established ∨ tcb.phase = .closeWait

def effectiveMss (tcb : Tcb Mbuf) : Nat :=
  let currentMss :=
    if 0 < tcb.remoteMss ∧ tcb.remoteMss < 1460 then tcb.remoteMss.toNat else 1460
  if tcb.optLen Flag.psh < currentMss then currentMss - tcb.optLen Flag.psh else 536

def inflight (tcb : Tcb Mbuf) : BitVec 32 := tcb.sndNxt - tcb.sndUna

def usableWindow (tcb : Tcb Mbuf) : BitVec 32 :=
  let rwndLimit := if tcb.inflight < tcb.sndWnd then tcb.sndWnd - tcb.inflight else 0
  let cwndLimit := if tcb.inflight < tcb.cwnd then tcb.cwnd - tcb.inflight else 0
  if rwndLimit < cwndLimit then rwndLimit else cwndLimit

/-- The guard against small segments: the window is too small to be worth a segment. -/
def avoidsSillyWindow (tcb : Tcb Mbuf) (length : Nat) : Bool :=
  (0 < tcb.usableWindow ∧ tcb.usableWindow.toNat < tcb.effectiveMss ∧
    tcb.usableWindow < tcb.sndWnd / 2) ∧ 0 < tcb.inflight ∧ tcb.usableWindow.toNat < length

/-- One turn of the loop of `send`.  The result of `retain` is not looked at. -/
def sendChunk (tcb : Tcb Mbuf) (chunk : Bytes) : Tcb Mbuf :=
  let prepared := tcb.prepareOutboundHeader chunk.length Flag.psh
  let frame := { prepared.2 with payload := chunk }
  { prepared.1 with
    txUnackedRing := tcb.txUnackedRing.map (·.commit (OutboundSegment.hold frame))
    txEgressConduit := tcb.txEgressConduit.map (· ++ [frame]) }

/-- The loop of `send` with the number of bytes sent, while the pool gives buffers. -/
def sendChunks (mss : Nat) : Nat → Bytes → Tcb Mbuf → Tcb Mbuf × Nat
  | 0, _, tcb => (tcb, 0)
  | buffers + 1, bytes, tcb =>
      if bytes = [] then (tcb, 0)
      else
        let rest := sendChunks mss buffers (bytes.drop mss) (tcb.sendChunk (bytes.take mss))
        (rest.1, (bytes.take mss).length + rest.2)

/-- `send`.  The return value `-1` is `none`.  Unlike `connect`, the source checks neither that
`tx_egress_conduit` nor that `tx_mbuf_pool` is bound: a null pool goes to `rte_pktmbuf_alloc`, which
is outside the repository.  The model is of a block whose pool is bound and gives
`platform.buffers`. -/
def send (platform : Platform) (buffer : Bytes) (tcb : Tcb Mbuf) :
    Tcb Mbuf × Option Nat :=
  if tcb.isEstablished = false then (tcb, none)
  else if tcb.avoidsSillyWindow buffer.length then (tcb, some 0)
  else
    let toSend := min buffer.length tcb.usableWindow.toNat
    if toSend = 0 then
      if 0 < buffer.length ∧ tcb.sndWnd = 0 then (tcb.raise TemporalFlag.zwpActive, some 0)
      else (tcb, some 0)
    else
      let quiet := { tcb.lower TemporalFlag.ackPending with delayedAckDeadlineTsc := 0 }
      let sent := sendChunks tcb.effectiveMss platform.buffers (buffer.take toSend) quiet
      (sent.1, some sent.2)

end Tcb

/-- A segment carries data, and at most as much as `mss_`. -/
theorem effectiveMss_bounds (tcb : Tcb Mbuf) : 0 < tcb.effectiveMss ∧ tcb.effectiveMss ≤ 1460 := by
  unfold Tcb.effectiveMss
  dsimp only
  have small : ∀ limit, limit = (if 0 < tcb.remoteMss ∧ tcb.remoteMss < 1460 then
      tcb.remoteMss.toNat else 1460) → limit ≤ 1460 := by
    rintro limit rfl
    split_ifs with announced
    · exact Nat.le_of_lt announced.2
    · exact Nat.le_refl 1460
  generalize (if 0 < tcb.remoteMss ∧ tcb.remoteMss < 1460 then tcb.remoteMss.toNat
    else 1460) = limit at small ⊢
  have bound := small limit rfl
  split_ifs <;> omega

/-- `send` takes no more than it is given. -/
theorem sendChunks_le (mss buffers : Nat) (bytes : Bytes) (tcb : Tcb Mbuf) :
    (Tcb.sendChunks mss buffers bytes tcb).2 ≤ bytes.length := by
  induction buffers generalizing bytes tcb with
  | zero => exact Nat.zero_le _
  | succ buffers ih =>
      rw [Tcb.sendChunks]
      split_ifs
      · exact Nat.zero_le _
      · have rest := ih (bytes.drop mss) (tcb.sendChunk (bytes.take mss))
        dsimp only
        rw [List.length_drop] at rest
        rw [List.length_take]
        omega

end SlabFlux.Net.Tcp
