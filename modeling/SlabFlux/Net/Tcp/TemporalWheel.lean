import SlabFlux.Net.Tcp.ControlBlock

/-!
# The temporal wheel

`tcp_temporal_wheel::on_tick`, section by section.  A section either hands the block on
or returns from `on_tick`.
-/

namespace SlabFlux.Net.Tcp

open SlabFlux.Core

variable {Mbuf : Type}
variable (platform : Platform) (now : BitVec 64) (trackerRto : BitVec 32) (tcb : Tcb Mbuf)

namespace Tcb

def extractRtoBoundary : BitVec 64 :=
  if tcb.srtt = 0 then 1000
  else
    let rto := tcb.srtt + (tcb.rttvar <<< 2)
    let rto := if rto < 200 then 200 else rto
    rto <<< min tcb.rtoRetries.toNat 6

/-- Abort the connection. -/
def abort : Tcb Mbuf := { tcb with phase := .closed }.pend Flag.rst

/-- Clear the SACK marks of every segment that can be peeked at. -/
def clearSacked (ring : UnackedRing) : UnackedRing :=
  (List.range ring.refresh.available).foldl
    (fun ring offset =>
      ring.modifyPeekSlot offset fun segment => { segment with isSacked := false })
    ring.refresh

/-- The retransmission of the first segment after a timeout. -/
def retransmitFirst : Except (Tcb Mbuf) (Tcb Mbuf) :=
  match tcb.txUnackedRing, tcb.txEgressConduit with
  | some ring, some egress =>
      let ring := (clearSacked ring).refresh
      let tcb := { tcb with txUnackedRing := some ring }
      if 0 < ring.available then
        if platform.retains then .ok (tcb.resend ring egress 0) else .error tcb.abort
      else .ok tcb
  | _, _ => .ok tcb

/-- The block of a retransmission timeout. -/
def backOff : Tcb Mbuf :=
  let tcb :=
    { tcb with
      rtoRetries := tcb.rtoRetries + 1
      ssthresh := halved tcb.cwnd
      cwnd := 1460
      dupAcks := 0 }
  { tcb with rtoDeadlineTsc := now + tcb.extractRtoBoundary }.raise TemporalFlag.retransmit

/-- The retransmission timer while something is in flight. -/
def tickFlight : Except (Tcb Mbuf) (Tcb Mbuf) :=
  let tcb := { tcb with idleStartMs := 0 }
  if tcb.rtoDeadlineTsc = 0 then
    .ok { tcb with rtoDeadlineTsc := now + tcb.extractRtoBoundary }
  else if tcb.rtoDeadlineTsc ≤ now then
    if 15 ≤ tcb.rtoRetries then .error tcb.abort
    else (tcb.backOff now).retransmitFirst platform
  else .ok tcb

/-- The decay of the congestion window while nothing is in flight. -/
def tickIdle : Tcb Mbuf :=
  let tcb := { tcb with rtoDeadlineTsc := 0 }
  let limit : BitVec 32 := if trackerRto < 200 then 200 else trackerRto
  if tcb.idleStartMs = 0 then { tcb with idleStartMs := now.setWidth 32 }
  else if 14600 < tcb.cwnd ∧ limit.setWidth 64 ≤ now - tcb.idleStartMs.setWidth 64 then
    { tcb with cwnd := 14600 }
  else tcb

/-- Section 1: the retransmission timeout. -/
def tickRetransmission : Except (Tcb Mbuf) (Tcb Mbuf) :=
  if tcb.sndUna ≠ tcb.sndNxt then tcb.tickFlight platform now
  else .ok (tcb.tickIdle now trackerRto)

/-- Section 2: the delayed ACK. -/
def tickDelayedAck : Tcb Mbuf :=
  if tcb.temporal TemporalFlag.ackPending then
    if tcb.delayedAckDeadlineTsc = 0 then { tcb with delayedAckDeadlineTsc := now + 200 }
    else if tcb.delayedAckDeadlineTsc ≤ now then
      { (tcb.lower TemporalFlag.ackPending).pend Flag.ack with delayedAckDeadlineTsc := 0 }
    else tcb
  else { tcb with delayedAckDeadlineTsc := 0 }

/-- Section 3: zero-window probes. -/
def tickPersist : Except (Tcb Mbuf) (Tcb Mbuf) :=
  if tcb.sndWnd = 0 ∧ (tcb.sndUna ≠ tcb.sndNxt ∨ tcb.temporal TemporalFlag.zwpActive = true) then
    if tcb.temporal TemporalFlag.zwpActive = false ∨ tcb.persistDeadlineTsc = 0 then
      .ok { tcb.raise TemporalFlag.zwpActive with
        persistDeadlineTsc := now + 1000, zwpRetries := 0 }
    else if tcb.persistDeadlineTsc ≤ now then
      if 5 ≤ tcb.zwpRetries then .error tcb.abort
      else
        .ok { tcb.pend Flag.ack with
          zwpRetries := tcb.zwpRetries + 1
          controlPayloadLen := 1
          persistDeadlineTsc := now + 5000 }
    else .ok tcb
  else .ok { tcb.lower TemporalFlag.zwpActive with zwpRetries := 0 }

/-- Section 4: the end of `TIME_WAIT` and of orphaned connections. -/
def tickTimeWait : Tcb Mbuf :=
  if tcb.phase = .timeWait ∨ tcb.phase = .finWait2 ∨ tcb.phase = .closing then
    if tcb.timeWaitDeadlineTsc = 0 then { tcb with timeWaitDeadlineTsc := now + 60000 }
    else if tcb.timeWaitDeadlineTsc ≤ now then
      { tcb with phase := .closed, timeWaitDeadlineTsc := 0 }
    else tcb
  else tcb

/-- Section 5: keep-alive probes. -/
def tickKeepalive : Except (Tcb Mbuf) (Tcb Mbuf) :=
  if tcb.temporal TemporalFlag.keepalive = true ∧ tcb.phase = .established then
    if tcb.sndUna = tcb.sndNxt then
      if tcb.keepaliveDeadlineTsc = 0 then
        .ok { tcb with keepaliveDeadlineTsc := now + 7200000, keepaliveRetries := 0 }
      else if tcb.keepaliveDeadlineTsc ≤ now then
        if 9 ≤ tcb.keepaliveRetries then .error tcb.abort
        else
          .ok { (tcb.pend Flag.ack).raise TemporalFlag.keepaliveProbe with
            keepaliveRetries := tcb.keepaliveRetries + 1
            keepaliveDeadlineTsc := now + 75000 }
      else .ok tcb
    else .ok { tcb with keepaliveDeadlineTsc := 0, keepaliveRetries := 0 }
  else .ok tcb

/-- The loop that releases every segment.  Every turn consumes an entry, so the occupancy
is enough fuel. -/
def releaseAll : Nat → UnackedRing → UnackedRing
  | 0, ring => ring.refresh
  | fuel + 1, ring =>
      if ring.refresh.available = 0 then ring.refresh
      else releaseAll fuel (ring.refresh.modifyPeekSlot 0 OutboundSegment.release).consume

/-- Section 6: the timeout of address resolution. -/
def tickArp : Tcb Mbuf :=
  if tcb.temporal TemporalFlag.arpWait then
    if tcb.rtoDeadlineTsc = 0 then { tcb with rtoDeadlineTsc := now + 3000 }
    else if tcb.rtoDeadlineTsc ≤ now then
      { tcb.lower TemporalFlag.arpWait with
        phase := .closed
        rtoDeadlineTsc := 0
        txUnackedRing := tcb.txUnackedRing.map fun ring => releaseAll ring.occupancy ring }
    else tcb
  else tcb

/-- The sections one after the other; a return is an error. -/
def tickSections : Except (Tcb Mbuf) (Tcb Mbuf) := do
  let tcb ← tcb.tickRetransmission platform now trackerRto
  let tcb ← (tcb.tickDelayedAck now).tickPersist now
  let tcb ← (tcb.tickTimeWait now).tickKeepalive now
  .ok (tcb.tickArp now)

def onTick : Tcb Mbuf :=
  if tcb.phase = .closed then tcb
  else
    match tcb.tickSections platform now trackerRto with
    | .ok tcb => tcb
    | .error tcb => tcb

end Tcb

end SlabFlux.Net.Tcp
