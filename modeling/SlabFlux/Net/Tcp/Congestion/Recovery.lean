import SlabFlux.Net.Tcp.Congestion.Duplicates

/-!
# Fast recovery

That a connection is in fast recovery is known only from its counter of duplicate ACKs, which
the first partial ACK sets to zero.  While the counter stands at three or more, partial ACKs
retransmit and leave the congestion window alone, as long as the ring shows all its segments
and the buffer can be retained.
-/

namespace SlabFlux.Net.Tcp

open SlabFlux.Core Lib SpscRingConduit

variable {Mbuf : Type} {ring : UnackedRing}

/-! ## What the ring shows -/

/-- Every segment of the ring can be peeked at. -/
abbrev ShowsAll (ring : UnackedRing) : Prop := ring.refresh.available = ring.occupancy

/-- The first segment of the ring without a SACK mark. -/
def nextUnsacked (ring : UnackedRing) : Option OutboundSegment :=
  ring.entries.find? fun segment => !segment.isSacked

theorem Remarked.showsAll {ring after : UnackedRing} (remarked : Remarked ring after)
    (shows : ShowsAll ring) : ShowsAll after := by
  unfold ShowsAll occupancy at *
  rw [remarked.horizon, remarked.ingress, remarked.egress]
  exact shows

theorem showsAll_refresh (shows : ShowsAll ring) :
    ring.refresh.available = ring.refresh.occupancy := by
  obtain ⟨-, ingress, egress⟩ := ring_refresh ring
  rw [occupancy, ingress, egress]
  exact shows

theorem showsAll_consume (shows : ShowsAll ring) (visible : ring.refresh.available ≠ 0)
    (change : OutboundSegment → OutboundSegment) :
    ShowsAll (ring.refresh.modifyPeekSlot 0 change).consume := by
  have all := showsAll_refresh shows
  generalize ring.refresh = ring at all visible ⊢
  unfold ShowsAll available occupancy at *
  unfold refresh consume modifyPeekSlot
  split_ifs
  · rfl
  · dsimp only
    omega

theorem showsAll_consumeAcked (ack : BitVec 32) (fuel : Nat) (shows : ShowsAll ring) :
    ShowsAll (consumeAcked ack fuel ring) := by
  have refreshed {ring : UnackedRing} (shows : ShowsAll ring) : ShowsAll ring.refresh :=
    (remarked_refresh ring).showsAll shows
  induction fuel generalizing ring with
  | zero => exact refreshed shows
  | succ fuel ih =>
      rw [consumeAcked]
      split_ifs with empty
      · exact refreshed shows
      · exact ih (showsAll_consume shows empty OutboundSegment.release)
      · exact refreshed shows

/-- Where the ring shows all its segments, the search finds the first without a mark. -/
theorem nextUnsacked_eq (all : ring.available = ring.occupancy) :
    nextUnsacked ring = (firstUnsacked ring).map ring.peekSlot := by
  unfold nextUnsacked firstUnsacked entries
  rw [List.find?_map, all]
  rfl

/-- Writing the frame of the segment that was found leaves its mark alone. -/
theorem nextUnsacked_setFrame {offset : Nat} (all : ring.available = ring.occupancy)
    (found : firstUnsacked ring = some offset) (frame : Frame) :
    nextUnsacked (ring.modifyPeekSlot offset fun segment => { segment with frame := frame }) =
      some { ring.peekSlot offset with frame := frame } := by
  have same (position : Nat) : ((ring.modifyPeekSlot offset fun segment =>
      { segment with frame := frame }).peekSlot position).isSacked =
        (ring.peekSlot position).isSacked := by
    dsimp only [peekSlot, modifyPeekSlot]
    rw [Function.update_apply]
    split_ifs with here
    · rw [here]
    · rfl
  have again : firstUnsacked (ring.modifyPeekSlot offset fun segment =>
      { segment with frame := frame }) = some offset := by
    rw [← found]
    unfold firstUnsacked
    simp only [same]
    rfl
  have still : (ring.modifyPeekSlot offset fun segment => { segment with frame := frame
      }).available = (ring.modifyPeekSlot offset fun segment =>
        { segment with frame := frame }).occupancy := all
  rw [nextUnsacked_eq still, again]
  dsimp only [Option.map_some, peekSlot, modifyPeekSlot]
  rw [Function.update_self]

variable {tcb : Tcb Mbuf}

theorem resend_nextUnsacked (tcb : Tcb Mbuf) {offset : Nat} (egress : List Frame)
    (all : ring.available = ring.occupancy) (found : firstUnsacked ring = some offset) :
    ∀ after ∈ (tcb.resend ring egress offset).txUnackedRing,
      (tcb.resend ring egress offset).txEgressConduit =
        some (egress ++ ((nextUnsacked after).map OutboundSegment.frame).toList) := by
  intro after kept
  obtain rfl := Option.some.inj kept
  rw [nextUnsacked_setFrame all found]
  rfl

/-! ## One partial ACK -/

variable {arrival : Arrival Mbuf}

/-- An ACK that is handed on and acknowledges something in flight. -/
def isNewAck (tcb : Tcb Mbuf) (arrival : Arrival Mbuf) : Bool :=
  arrival.packet.flagged Flag.ack ∧ arrival.packet.flagged Flag.syn = false ∧
    tcb.phase ≠ .synRcvd ∧ passes arrival.packet tcb ∧ ackProgresses tcb arrival.packet

/-- The ACK stays below `recover`. -/
def belowRecover (tcb : Tcb Mbuf) (packet : Packet Mbuf) : Bool :=
  0 < (tcb.recover - packet.tcpAck).toInt

/-- The ACK passes the last retransmission. -/
def passesRetransmitted (tcb : Tcb Mbuf) (packet : Packet Mbuf) : Bool :=
  tcb.highestRtxSeq = 0 ∨ 0 ≤ (packet.tcpAck - tcb.highestRtxSeq).toInt

/-- What was committed to the wire is the first segment without a SACK mark of those that are
left in the ring. -/
def ResendsNext (before after : SendPart) : Prop :=
  ∀ egress ∈ before.txEgressConduit, ∀ ring ∈ after.txUnackedRing, after.txEgressConduit =
      some (egress ++ ((nextUnsacked ring).map OutboundSegment.frame).toList)

/-- The sending side after a partial ACK. -/
structure PartialEffect (before after : SendPart) (passed : Prop) : Prop where
  cwnd : after.cwnd = before.cwnd
  recover : after.recover = before.recover
  resends : passed → ResendsNext before after

section Partial

variable {platform : Platform} {packet : Packet Mbuf} {call : Call Mbuf}

theorem partialEffect_partialRetransmit (retains : platform.retains = true)
    (shows : ∀ ring ∈ call.tcb.txUnackedRing, ShowsAll ring) :
    Ensures (partialRetransmit platform packet call)
      (fun next => PartialEffect call.tcb.sendPart next.tcb.sendPart
        (passesRetransmitted call.tcb packet = true))
      fun _ => False := by
  unfold partialRetransmit
  by_cases behind : call.tcb.highestRtxSeq ≠ 0 ∧ (packet.tcpAck - call.tcb.highestRtxSeq).toInt < 0
  · rw [if_pos behind]
    refine ⟨rfl, rfl, fun passed => ?_⟩
    rcases of_decide_eq_true passed with none | ahead
    · exact absurd none behind.1
    · exact absurd behind.2 (Int.not_lt.mpr ahead)
  · rw [if_neg behind]
    split
    · rename_i ring egress bound wired
      have all := showsAll_refresh (shows ring bound)
      split
      · rename_i offset found
        unfold retransmit
        rw [if_pos retains]
        refine ⟨rfl, rfl, fun _ before held after kept => ?_⟩
        obtain rfl : egress = before := Option.some.inj (wired.symm.trans held)
        exact resend_nextUnsacked _ egress all found after kept
      · rename_i none
        refine ⟨rfl, rfl, fun _ before held after kept => ?_⟩
        obtain rfl : egress = before := Option.some.inj (wired.symm.trans held)
        obtain rfl : ring.refresh = after := Option.some.inj kept
        rw [nextUnsacked_eq all, none]
        simp only [Option.map_none, Option.toList_none, List.append_nil]
        exact wired
    · rename_i missing
      refine ⟨rfl, rfl, fun _ egress held ring kept => ?_⟩
      exact absurd held (missing ring egress kept)

/-- The sending side once `snd_una` has moved and covered segments are released. -/
theorem sendPart_slideUnacked (packet : Packet Mbuf) (tcb : Tcb Mbuf) :
    (teardown (slideUnacked (advanceUna packet tcb))).sendPart = { tcb.sendPart with
        sndUna := packet.tcpAck
        txUnackedRing := tcb.txUnackedRing.map fun ring =>
          consumeAcked packet.tcpAck ring.occupancy ring } := by
  unfold teardown
  split_ifs <;> rfl

theorem partialEffect_progressAck (below : belowRecover call.tcb packet = true)
    (retains : platform.retains = true)
    (shows : ∀ ring ∈ call.tcb.txUnackedRing, ShowsAll ring) :
    Ensures (progressAck platform packet true call)
      (fun next => PartialEffect call.tcb.sendPart next.tcb.sendPart
        (passesRetransmitted call.tcb packet = true))
      fun _ => False := by
  have isPartial : isPartialAck call.tcb packet true = true :=
    decide_eq_true ⟨rfl, of_decide_eq_true below⟩
  have stays : leaveRecovery packet true call.tcb = call.tcb := by
    unfold leaveRecovery
    rw [isPartial, if_neg (fun both => Bool.noConfusion both.2)]
  have slid := sendPart_slideUnacked packet call.tcb
  unfold progressAck
  dsimp only [Call.on, acknowledged]
  rw [isPartial, stays]
  generalize moved : teardown (slideUnacked (advanceUna packet call.tcb)) = after at slid
  have visible : ∀ ring ∈ after.txUnackedRing, ShowsAll ring := by
    intro ring kept
    have ringEq : after.txUnackedRing = call.tcb.txUnackedRing.map fun ring =>
      consumeAcked packet.tcpAck ring.occupancy ring := congrArg SendPart.txUnackedRing slid
    rw [ringEq] at kept
    obtain ⟨before, held, rfl⟩ := Option.mem_map.mp kept
    exact showsAll_consumeAcked packet.tcpAck _ (shows before held)
  have passedEq : passesRetransmitted after packet = passesRetransmitted call.tcb packet := by
    have rtx : after.highestRtxSeq = call.tcb.highestRtxSeq :=
      congrArg SendPart.highestRtxSeq slid
    unfold passesRetransmitted
    rw [rtx]
  have resent : Ensures (partialRetransmit platform packet { call with tcb := after }) _ _ :=
    partialEffect_partialRetransmit retains visible
  have cwndEq : after.cwnd = call.tcb.cwnd := congrArg SendPart.cwnd slid
  have recoverEq : after.recover = call.tcb.recover := congrArg SendPart.recover slid
  have egressEq : after.txEgressConduit = call.tcb.txEgressConduit :=
    congrArg SendPart.txEgressConduit slid
  refine Ensures.map resent ?_
  rintro next ⟨cwnd, recover, resends⟩
  refine ⟨cwnd.trans cwndEq, recover.trans recoverEq, fun passed egress held => ?_⟩
  exact resends (passedEq.trans passed) egress (egressEq.trans held)

/-- An ACK that moves `snd_una` and stays below `recover`, while the counter stands at three or
more. -/
theorem partialEffect_processAck (acks : packet.flagged Flag.ack = true)
    (noSyn : packet.flagged Flag.syn = false) (opened : call.tcb.phase ≠ .synRcvd)
    (progresses : ackProgresses call.tcb packet = true)
    (below : belowRecover call.tcb packet = true) (counted : 3 ≤ call.tcb.dupAcks)
    (retains : platform.retains = true)
    (shows : ∀ ring ∈ call.tcb.txUnackedRing, ShowsAll ring) :
    Ensures (processAck platform packet call)
      (fun next => PartialEffect call.tcb.sendPart next.tcb.sendPart
        (passesRetransmitted call.tcb packet = true))
      fun _ => False := by
  have handshake : completeHandshake platform packet call = .ok call := by
    unfold completeHandshake
    rw [noSyn, if_neg Bool.false_ne_true, if_neg opened, ite_self]
  have other : isDup call.tcb packet = false := by
    refine decide_eq_false ?_
    rintro ⟨same, -⟩
    have positive := (of_decide_eq_true progresses).1
    rw [same, BitVec.sub_self] at positive
    exact absurd positive (by decide)
  have count : countDup call.tcb packet = 0 := by
    rw [countDup, other, if_neg Bool.false_ne_true]
  have recovering : decide (3 ≤ call.tcb.dupAcks) = true := decide_eq_true counted
  unfold processAck
  rw [if_pos acks, handshake]
  change Ensures (applyAck platform packet call) _ _
  unfold applyAck
  dsimp only
  rw [recovering]
  generalize counting : call.on (fun tcb => { tcb with dupAcks := countDup tcb packet }) = reset
  have zero : reset.tcb.dupAcks = 0 := by
    rw [← counting]
    exact count
  have kept : reset.tcb = { call.tcb with dupAcks := countDup call.tcb packet } := by
    rw [← counting]
    rfl
  rw [zero]
  unfold plainAck
  have again : ackProgresses reset.tcb packet = true := by
    rw [kept]
    exact progresses
  rw [if_pos again]
  have effect : Ensures (progressAck platform packet true reset) _ _ :=
    partialEffect_progressAck (by rw [kept]; exact below) retains (by rw [kept]; exact shows)
  rw [kept] at effect
  refine effect.mono (fun next met => ?_) fun _ => id
  exact ⟨met.cwnd, met.recover, met.resends⟩

end Partial

theorem partialEffect_receive (newAck : isNewAck tcb arrival = true)
    (below : belowRecover tcb arrival.packet = true) (counted : 3 ≤ tcb.dupAcks)
    (retains : arrival.platform.retains = true)
    (shows : ∀ ring ∈ tcb.txUnackedRing, ShowsAll ring) :
    (tcb.receive arrival).cwnd = (afterEcho arrival.packet tcb).cwnd ∧
      (tcb.receive arrival).recover = tcb.recover ∧
      (passesRetransmitted tcb arrival.packet = true →
        ResendsNext tcb.sendPart (tcb.receive arrival).sendPart) := by
  obtain ⟨acks, noSyn, opened, passed, progresses⟩ := of_decide_eq_true newAck
  obtain ⟨after, admitted, -, outcome⟩ := processInbound_of_passes arrival.platform
    arrival.trimOffset arrival.mbufAbsorbed noSyn passed
  have only := admitted.only
  rw [afterEcho_only] at only
  have visible : ∀ ring ∈ after.txUnackedRing, ShowsAll ring := by
    intro ring kept
    have remarked := admitted.remarked
    rw [show after.txUnackedRing = some ring from kept] at remarked
    cases remarked' : tcb.txUnackedRing with
    | none => rw [remarked'] at remarked; cases remarked
    | some before =>
        rw [remarked'] at remarked
        cases remarked with
        | some marked => exact marked.showsAll (shows before remarked')
  let property : SendPart → Prop := fun part =>
    PartialEffect after.sendPart part (passesRetransmitted after arrival.packet = true)
  have processed : Ensures (processAck arrival.platform arrival.packet
      ⟨after, arrival.packet.payloadLen, arrival.trimOffset, arrival.mbufAbsorbed⟩)
      (fun next => property next.tcb.sendPart) fun result => property result.call.tcb.sendPart := by
    refine (partialEffect_processAck acks noSyn ?_ ?_ ?_ ?_ retains visible).mono (fun _ => id)
      fun _ => False.elim
    · rw [only]
      exact opened
    · rw [only]
      exact progresses
    · rw [only]
      exact below
    · rw [only]
      exact counted
  have effect : property (tcb.receive arrival).sendPart := by
    rw [Tcb.receive, outcome]
    exact sendPart_ackStages arrival.platform arrival.packet _ processed
  obtain ⟨cwnd, recover, resends⟩ := effect
  rw [only] at cwnd recover resends
  exact ⟨cwnd, recover, resends⟩

/-! ## Recovery as a whole -/

/-- An ACK of a recovery: a duplicate, or one that acknowledges something. -/
def isRecoveryAck (tcb : Tcb Mbuf) (arrival : Arrival Mbuf) : Bool :=
  isDuplicateAck tcb arrival ∨ isNewAck tcb arrival

/-- What an ACK should find and do in the recovery that ends at `horizon`. -/
structure RecoveryLaw (horizon : BitVec 32) (tcb : Tcb Mbuf) (arrival : Arrival Mbuf) : Prop where
  recovering : tcb.recover = horizon
  partialAck : isNewAck tcb arrival = true → belowRecover tcb arrival.packet = true →
    (tcb.receive arrival).cwnd = (afterEcho arrival.packet tcb).cwnd ∧
      (passesRetransmitted tcb arrival.packet = true →
        ResendsNext tcb.sendPart (tcb.receive arrival).sendPart)
  fullAck : isNewAck tcb arrival = true → belowRecover tcb arrival.packet = false →
    (tcb.receive arrival).cwnd = (tcb.receive arrival).ssthresh

/-- The counter still tells of the recovery, and an ACK that acknowledges something stays below
`recover`, finds a ring that shows all its segments and can retain the buffer. -/
structure StillRecovers (tcb : Tcb Mbuf) (arrival : Arrival Mbuf) : Prop where
  counted : 3 ≤ tcb.dupAcks
  below : isNewAck tcb arrival = true → belowRecover tcb arrival.packet = true
  retains : isNewAck tcb arrival = true → arrival.platform.retains = true
  shows : isNewAck tcb arrival = true → ∀ ring ∈ tcb.txUnackedRing, ShowsAll ring

/-- From three duplicates on, another one does not start a new recovery. -/
theorem recover_of_counted (duplicate : isDuplicateAck tcb arrival = true)
    (counted : 3 ≤ tcb.dupAcks) :
    (tcb.receive arrival).recover = tcb.recover := by
  obtain ⟨before, prepared, effect⟩ := duplicateEffect_receive duplicate
  cases effect with
  | unchanged same => exact (congrArg SendPart.recover same).trans prepared.recover
  | counted other counted => exact counted.recover.trans prepared.recover
  | entered third entered =>
      rw [prepared.dupAcks] at third
      bv_omega

/-- The third duplicate starts a recovery, if it is handed on. -/
theorem recover_of_third (duplicate : isDuplicateAck tcb arrival = true)
    (second : tcb.dupAcks = 2) :
    (tcb.receive arrival).recover = tcb.sndNxt ∨ (tcb.receive arrival).dupAcks = 2 := by
  obtain ⟨before, prepared, effect⟩ := duplicateEffect_receive duplicate
  have count := prepared.dupAcks.trans second
  cases effect with
  | unchanged same => exact .inr ((congrArg SendPart.dupAcks same).trans count)
  | counted other _ =>
      rw [count] at other
      exact absurd (by decide) other
  | entered _ entered => exact .inl (entered.recover.trans prepared.sndNxt)

theorem recover_of_stillRecovers (ack : isRecoveryAck tcb arrival = true)
    (still : StillRecovers tcb arrival) :
    (tcb.receive arrival).recover = tcb.recover := by
  rcases of_decide_eq_true ack with duplicate | newAck
  · exact recover_of_counted duplicate still.counted
  · exact (partialEffect_receive newAck (still.below newAck) still.counted (still.retains newAck)
      (still.shows newAck)).2.1

theorem recoveryLaw_of_stillRecovers {horizon : BitVec 32} (recovering : tcb.recover = horizon)
    (still : StillRecovers tcb arrival) : RecoveryLaw horizon tcb arrival where
  recovering := recovering
  partialAck newAck below := by
    obtain ⟨cwnd, -, resends⟩ := partialEffect_receive newAck below still.counted
      (still.retains newAck) (still.shows newAck)
    exact ⟨cwnd, resends⟩
  fullAck newAck reached := by
    rw [still.below newAck] at reached
    exact Bool.noConfusion reached

/-- In every run of ACKs after the third duplicate whose steps all find the connection still
recovering, every ACK does what it should in a recovery up to the `snd_nxt` of the third
duplicate. -/
theorem recoveryLaw_run (tcb : Tcb Mbuf) (third : Arrival Mbuf) (run : List (Arrival Mbuf))
    (second : tcb.dupAcks = 2) (duplicate : isDuplicateAck tcb third = true)
    (acks : Admissible Tcb.receive (fun tcb arrival => isRecoveryAck tcb arrival = true)
      (tcb.receive third) run)
    (still : Admissible Tcb.receive StillRecovers (tcb.receive third) run) :
    Admissible Tcb.receive (RecoveryLaw tcb.sndNxt) (tcb.receive third) run := by
  have entered := recover_of_third duplicate second
  generalize tcb.receive third = state at entered acks still
  induction run generalizing state with
  | nil => exact trivial
  | cons arrival run ih =>
      obtain ⟨ack, acks⟩ := acks
      obtain ⟨here, still⟩ := still
      have recovering : state.recover = tcb.sndNxt := by
        refine entered.resolve_right fun uncounted => ?_
        have counted := here.counted
        rw [uncounted] at counted
        exact absurd counted (by decide)
      have next := (recover_of_stillRecovers ack here).trans recovering
      exact ⟨recoveryLaw_of_stillRecovers recovering here,
        ih (state.receive arrival) (.inl next) acks still⟩

/-- A segment of 100 bytes. -/
def flightFrame (seq : BitVec 32) : Frame :=
  { Frame.zero with ipIhlVer := 0x45, ipLen := 140, tcpDataOffset := 0x50, tcpSeq := seq }

/-- An established block with three segments in flight, after two duplicates. -/
def flightBlock : Tcb Unit :=
  { establishedBlock 307 with
    dupAcks := 2
    txUnackedRing := some
      { ring := fun slot => ⟨flightFrame (BitVec.ofNat 32 (7 + 100 * slot)), true, false⟩
        localIngressCursor := 3
        localEgressCursor := 0
        cachedIngressCursor := 3 }
    txEgressConduit := some [] }

/-- A pure ACK of a number. -/
def ackOf (ack : BitVec 32) : Arrival Unit :=
  { pureAck with packet := { pureAck.packet with tcpAck := ack } }

/-- A further duplicate and one partial ACK. -/
theorem recoveryLaw_run_partial :
    Admissible Tcb.receive (RecoveryLaw flightBlock.sndNxt) (flightBlock.receive pureAck)
      [pureAck, ackOf 107] :=
  recoveryLaw_run flightBlock pureAck [pureAck, ackOf 107] (by decide) (by decide) (by decide)
    ⟨⟨by decide, by decide, by decide, by decide⟩, ⟨by decide, by decide, by decide, by decide⟩,
      trivial⟩

/-- The second partial ACK grows the window, and the ACK that reaches `recover` does not leave
it at the threshold. -/
theorem recoveryLaw_forgotten :
    Admissible Tcb.receive (fun tcb arrival => isRecoveryAck tcb arrival = true)
        (flightBlock.receive pureAck) [ackOf 107, ackOf 207] ∧
      ¬ Admissible Tcb.receive (RecoveryLaw flightBlock.sndNxt) (flightBlock.receive pureAck)
        [ackOf 107, ackOf 207] ∧
      ¬ Admissible Tcb.receive (RecoveryLaw flightBlock.sndNxt) (flightBlock.receive pureAck)
        [ackOf 307] := by
  refine ⟨by decide, ?_, ?_⟩
  · rintro ⟨-, law, -⟩
    have kept := (law.partialAck (by decide) (by decide)).1
    exact absurd kept (by decide)
  · rintro ⟨law, -⟩
    have deflated := law.fullAck (by decide) (by decide)
    exact absurd deflated (by decide)

end SlabFlux.Net.Tcp
