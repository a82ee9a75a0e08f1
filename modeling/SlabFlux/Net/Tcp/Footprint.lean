import SlabFlux.Net.Tcp.Inbound
import SlabFlux.Net.Tcp.TemporalWheel

/-!
# Stages that leave the transmit side alone

A view of a block that sees no more than `snd_una`, `snd_nxt` and the two transmit rings is
not changed by the stages of `process_inbound` other than those for a SYN on an open
connection, for the options and for the ACK; nor by the options if SACK marks do not show.
The same holds of the sections of `on_tick` between the retransmission timer and address
resolution.
-/

namespace SlabFlux.Net.Tcp

open Lib Tcb

variable {Mbuf View : Type}

/-- The view depends on `snd_una`, `snd_nxt` and the transmit rings only. -/
structure RingsView (view : Tcb Mbuf → View) : Prop where
  same : ∀ tcb after : Tcb Mbuf, after.sndUna = tcb.sndUna → after.sndNxt = tcb.sndNxt →
    after.txEgressConduit = tcb.txEgressConduit → after.txUnackedRing = tcb.txUnackedRing →
      view after = view tcb

/-- SACK marks do not show in the view either. -/
structure TransmitView (view : Tcb Mbuf → View) : Prop extends RingsView view where
  sack : ∀ (token : OptionToken) (tcb : Tcb Mbuf), view (sackOption token tcb) = view tcb

/-- A stage leaves a view of the block as it is, also when it returns. -/
def Leaves (view : Tcb Mbuf → View) (call : Call Mbuf) (stage : Stage Mbuf) : Prop :=
  Ensures stage (fun next => view next.tcb = view call.tcb)
    fun result => view result.call.tcb = view call.tcb

variable {view : Tcb Mbuf → View}

theorem Leaves.trans {first second : Call Mbuf} {stage : Stage Mbuf}
    (same : view second.tcb = view first.tcb) (leaves : Leaves view second stage) :
    Leaves view first stage :=
  leaves.mono (fun _ next => next.trans same) fun _ result => result.trans same

/-- Nothing but the block of a call has changed, and the phase still receives payload, or still
does not; no connection starts to open. -/
structure Carried (call next : Call Mbuf) : Prop where
  only : next = { call with tcb := next.tcb }
  receives : next.tcb.phase.receives = call.tcb.phase.receives
  opening : next.tcb.phase = .synSent → call.tcb.phase = .synSent

theorem Carried.trans {first second third : Call Mbuf} (left : Carried first second)
    (right : Carried second third) : Carried first third where
  only := by rw [right.only, left.only]
  receives := right.receives.trans left.receives
  opening := left.opening ∘ right.opening

/-- A stage leaves a view of the block, and carries the call on if it does not return. -/
def HandsOn (view : Tcb Mbuf → View) (call : Call Mbuf) (stage : Stage Mbuf) : Prop :=
  Ensures stage (fun next => view next.tcb = view call.tcb ∧ Carried call next)
    fun result => view result.call.tcb = view call.tcb

theorem HandsOn.trans {first second : Call Mbuf} {stage : Stage Mbuf}
    (same : view second.tcb = view first.tcb ∧ Carried first second)
    (hands : HandsOn view second stage) : HandsOn view first stage :=
  hands.mono (fun _ kept => ⟨kept.1.trans same.1, same.2.trans kept.2⟩)
    fun _ kept => kept.trans same.1

/-- A row of stages that each leave a view. -/
theorem view_runStages {stages : List (Call Mbuf → Stage Mbuf)}
    (leaves : ∀ stage ∈ stages, ∀ call, Leaves view call (stage call)) (call : Call Mbuf) :
    view (runStages stages call).call.tcb = view call.tcb := by
  induction stages generalizing call with
  | nil => rfl
  | cons stage stages ih =>
      have first : Leaves view call (stage call) := leaves stage List.mem_cons_self call
      refine runStages_cons first fun next kept => ?_
      have rest : ∀ stage ∈ stages, ∀ call, Leaves view call (stage call) :=
        fun stage member => leaves stage (List.mem_cons_of_mem _ member)
      exact (ih rest next).trans kept

variable (tcb : Tcb Mbuf) (now : BitVec 64)

theorem triggerChallengeAck_only :
    tcb.triggerChallengeAck now = { tcb with
      flagsPending := (tcb.triggerChallengeAck now).flagsPending
      challengeAckCnt := (tcb.triggerChallengeAck now).challengeAckCnt
      lastChallengeTsc := (tcb.triggerChallengeAck now).lastChallengeTsc } := by
  unfold triggerChallengeAck restartChallenges
  dsimp only
  split_ifs <;> rfl

/-! ## The stages after the acknowledgement -/

/-- The stages after the acknowledgement. -/
def receiveStages (platform : Platform) (packet : Packet Mbuf) : List (Call Mbuf → Stage Mbuf) :=
  [processRst platform packet, processSyn packet, requireAck packet, processPayload packet,
    processFin packet, challengeTimeWait platform packet]

/-- The stages from the acknowledgement on. -/
def ackStages (platform : Platform) (packet : Packet Mbuf) : List (Call Mbuf → Stage Mbuf) :=
  processAck platform packet :: receiveStages platform packet

/-- The fields of a block that concern sending. -/
structure SendPart where
  sndUna : BitVec 32
  sndNxt : BitVec 32
  sndWnd : BitVec 32
  cwnd : BitVec 32
  ssthresh : BitVec 32
  dupAcks : BitVec 8
  recover : BitVec 32
  highestRtxSeq : BitVec 32
  txUnackedRing : Option UnackedRing
  txEgressConduit : Option (List Frame)

def Tcb.sendPart : SendPart where
  sndUna := tcb.sndUna
  sndNxt := tcb.sndNxt
  sndWnd := tcb.sndWnd
  cwnd := tcb.cwnd
  ssthresh := tcb.ssthresh
  dupAcks := tcb.dupAcks
  recover := tcb.recover
  highestRtxSeq := tcb.highestRtxSeq
  txUnackedRing := tcb.txUnackedRing
  txEgressConduit := tcb.txEgressConduit

section SendPart

variable (platform : Platform) (packet : Packet Mbuf) (call : Call Mbuf)

theorem sendPart_triggerChallengeAck :
    (tcb.triggerChallengeAck now).sendPart = tcb.sendPart := by
  rw [triggerChallengeAck_only]
  rfl

theorem leavesSendPart_processRst : Leaves sendPart call (processRst platform packet call) := by
  unfold processRst
  split_ifs
  · exact rfl
  · exact rfl
  · exact sendPart_triggerChallengeAck call.tcb platform.now
  · exact rfl

theorem leavesSendPart_processSyn : Leaves sendPart call (processSyn packet call) := by
  unfold processSyn
  dsimp only
  split_ifs <;> exact rfl

theorem leavesSendPart_requireAck : Leaves sendPart call (requireAck packet call) := by
  unfold requireAck
  split_ifs <;> exact rfl

theorem leavesSendPart_processPayload : Leaves sendPart call (processPayload packet call) := by
  have scheduled (tcb : Tcb Mbuf) : (scheduleAck packet tcb).sendPart = tcb.sendPart := by
    unfold scheduleAck
    split_ifs <;> rfl
  have buffered : (bufferOutOfOrder packet call).tcb.sendPart = call.tcb.sendPart := by
    unfold bufferOutOfOrder
    split <;> rfl
  unfold processPayload
  split_ifs
  · split
    · exact scheduled _
    · exact buffered
    · exact rfl
    · exact scheduled _
    · exact rfl
  · exact rfl

theorem leavesSendPart_processFin : Leaves sendPart call (processFin packet call) := by
  have accepted : (acceptFin call.tcb).sendPart = call.tcb.sendPart := by
    unfold acceptFin acceptFinPhase
    split_ifs <;> rfl
  unfold processFin
  split_ifs
  · exact accepted
  · exact rfl
  · exact rfl
  · exact rfl

theorem leavesSendPart_challengeTimeWait :
    Leaves sendPart call (challengeTimeWait platform packet call) := by
  unfold challengeTimeWait
  split_ifs
  · exact sendPart_triggerChallengeAck call.tcb platform.now
  · exact rfl

theorem sendPart_receiveStages :
    (runStages (receiveStages platform packet) call).call.tcb.sendPart = call.tcb.sendPart := by
  refine view_runStages ?_ call
  intro stage member
  simp only [receiveStages, List.mem_cons, List.not_mem_nil, or_false] at member
  rcases member with rfl | rfl | rfl | rfl | rfl | rfl
  · exact leavesSendPart_processRst platform packet
  · exact leavesSendPart_processSyn packet
  · exact leavesSendPart_requireAck packet
  · exact leavesSendPart_processPayload packet
  · exact leavesSendPart_processFin packet
  · exact leavesSendPart_challengeTimeWait platform packet

end SendPart

/-! ## The stages before the options -/

/-- `rcv_nxt` and the matrix. -/
def Tcb.receiveSide : BitVec 32 × Option (OooMatrix.Matrix Mbuf) :=
  (tcb.rcvNxt, tcb.oooMatrix)

/-- What the stages before the options leave alone. -/
structure Screened (Mbuf : Type) where
  phase : Phase
  receiveSide : BitVec 32 × Option (OooMatrix.Matrix Mbuf)
  txUnackedRing : Option UnackedRing
  txEgressConduit : Option (List Frame)

def Tcb.screened : Screened Mbuf where
  phase := tcb.phase
  receiveSide := tcb.receiveSide
  txUnackedRing := tcb.txUnackedRing
  txEgressConduit := tcb.txEgressConduit

section Screened

variable (platform : Platform) (packet : Packet Mbuf) (call : Call Mbuf)

theorem screened_challenge : HandsOn screened call (call.challenge platform) := by
  change (call.tcb.triggerChallengeAck platform.now).screened = call.tcb.screened
  rw [triggerChallengeAck_only]
  rfl

theorem screened_checkWindow : HandsOn screened call (checkWindow platform packet call) := by
  unfold checkWindow rejectOutOfWindow
  split_ifs
  · exact ⟨rfl, rfl, rfl, id⟩
  · exact rfl
  · exact rfl
  · exact screened_challenge platform call
  · exact rfl
  · exact screened_challenge platform call

theorem screened_checkTtl : HandsOn screened call (checkTtl packet call) := by
  unfold checkTtl
  split_ifs
  · exact ⟨rfl, rfl, rfl, id⟩
  · exact ⟨rfl, rfl, rfl, id⟩
  · exact rfl

theorem screened_reactToEcn : HandsOn screened call (reactToEcn packet call) := by
  have keeps (tcb : Tcb Mbuf) :
      (stopEcho packet (obeyEcho packet (echoCongestion packet tcb))).screened = tcb.screened := by
    unfold stopEcho obeyEcho echoCongestion
    split_ifs <;> rfl
  unfold reactToEcn
  split_ifs
  · exact ⟨rfl, rfl, rfl, id⟩
  · have phase : _ = call.tcb.phase := congrArg Screened.phase (keeps call.tcb)
    exact ⟨keeps call.tcb, rfl, congrArg Phase.receives phase, phase ▸ id⟩

theorem screened_guardSyn : HandsOn screened call (guardSyn platform packet call) := by
  unfold guardSyn
  split_ifs
  · exact ⟨rfl, rfl, rfl, id⟩
  · exact screened_challenge platform call
  · exact ⟨rfl, rfl, rfl, id⟩

/-- The rule for the stages before the options. -/
theorem runStages_screened {rest : List (Call Mbuf → Stage Mbuf)} (result : Return Mbuf → Prop)
    (stopped : ∀ early, early.call.tcb.screened = call.tcb.screened → result early)
    (continued : ∀ tcb, tcb.screened = call.tcb.screened →
      result (runStages rest { call with tcb := tcb })) :
    result (runStages (checkWindow platform packet :: checkTtl packet :: reactToEcn packet ::
      guardSyn platform packet :: rest) call) := by
  have pass {first : Call Mbuf} {stage : Stage Mbuf} (hands : HandsOn screened first stage)
      (same : first.tcb.screened = call.tcb.screened ∧ Carried call first) :=
    (HandsOn.trans same hands).mono (fun _ kept => kept) stopped
  refine runStages_cons (pass (screened_checkWindow platform packet call) ⟨rfl, rfl, rfl, id⟩)
    fun inWindow same => ?_
  refine runStages_cons (pass (screened_checkTtl packet inWindow) same) fun believed same => ?_
  refine runStages_cons (pass (screened_reactToEcn packet believed) same) fun reacted same => ?_
  refine runStages_cons (pass (screened_guardSyn platform packet reacted) same)
    fun guarded same => ?_
  rw [same.2.only]
  exact continued guarded.tcb same.1

end Screened

/-! ## The rings -/

namespace RingsView

variable (sees : RingsView view)
include sees

theorem triggerChallengeAck :
    view (tcb.triggerChallengeAck now) = view tcb := by
  rw [triggerChallengeAck_only]
  exact sees.same tcb _ rfl rfl rfl rfl

theorem leaves_challenge (platform : Platform) (call : Call Mbuf) :
    Leaves view call (call.challenge platform) :=
  sees.triggerChallengeAck call.tcb platform.now

theorem view_receiveStages (platform : Platform) (packet : Packet Mbuf) (call : Call Mbuf) :
    view (runStages (receiveStages platform packet) call).call.tcb = view call.tcb := by
  have same := sendPart_receiveStages platform packet call
  exact sees.same _ _ (congrArg SendPart.sndUna same) (congrArg SendPart.sndNxt same)
    (congrArg SendPart.txEgressConduit same) (congrArg SendPart.txUnackedRing same)

/-! The sections of `on_tick`. -/

theorem leaves_tickIdle (trackerRto : BitVec 32) (tcb : Tcb Mbuf) :
    view (tcb.tickIdle now trackerRto) = view tcb := by
  unfold tickIdle
  dsimp only
  split_ifs <;> exact sees.same tcb _ rfl rfl rfl rfl

theorem leaves_tickPersist (tcb : Tcb Mbuf) :
    Ensures ((tcb.tickDelayedAck now).tickPersist now) (fun next => view next = view tcb)
      fun result => view result = view tcb := by
  have delayed : view (tcb.tickDelayedAck now) = view tcb := by
    unfold tickDelayedAck
    split_ifs <;> exact sees.same tcb _ rfl rfl rfl rfl
  rw [← delayed]
  unfold tickPersist
  split_ifs <;> exact sees.same _ _ rfl rfl rfl rfl

theorem leaves_tickKeepalive (tcb : Tcb Mbuf) :
    Ensures ((tcb.tickTimeWait now).tickKeepalive now) (fun next => view next = view tcb)
      fun result => view result = view tcb := by
  have waited : view (tcb.tickTimeWait now) = view tcb := by
    unfold tickTimeWait
    split_ifs <;> exact sees.same tcb _ rfl rfl rfl rfl
  rw [← waited]
  unfold tickKeepalive
  split_ifs <;> exact sees.same _ _ rfl rfl rfl rfl

end RingsView

theorem TransmitView.leaves_processOptions (sees : TransmitView view) (platform : Platform)
    (packet : Packet Mbuf) (tokens : List OptionToken) (call : Call Mbuf) :
    Leaves view call (processOptions platform packet tokens call) := by
  have synKeeps : ∀ (token : OptionToken) (tcb : Tcb Mbuf),
      view (synOption token tcb) = view tcb := by
    intro token tcb
    unfold synOption
    split_ifs <;> exact sees.same tcb _ rfl rfl rfl rfl
  have timestampKeeps : ∀ (tsval : BitVec 32) (tcb : Tcb Mbuf),
      view (recordTimestamp packet tsval tcb) = view tcb := by
    intro tsval tcb
    unfold recordTimestamp
    split_ifs <;> exact sees.same tcb _ rfl rfl rfl rfl
  induction tokens generalizing call with
  | nil => exact rfl
  | cons token rest ih =>
      rw [processOptions]
      split_ifs
      · exact .trans (synKeeps token call.tcb) (ih _)
      · exact rfl
      · exact .trans (sees.sack token call.tcb) (ih _)
      · exact sees.leaves_challenge platform call
      · exact .trans (timestampKeeps _ call.tcb) (ih _)
      · exact ih call

/-! ## The acknowledgement -/

/-- The view depends on `snd_una`, `snd_nxt` and the unacknowledged ring only, and neither the
cached cursor of the ring nor what a retransmission refreshes shows in it. -/
structure FlightView (view : Tcb Mbuf → View) : Prop where
  same : ∀ tcb after : Tcb Mbuf, after.sndUna = tcb.sndUna → after.sndNxt = tcb.sndNxt →
    after.txUnackedRing = tcb.txUnackedRing → view after = view tcb
  refresh : ∀ (tcb : Tcb Mbuf) (ring : UnackedRing), tcb.txUnackedRing = some ring →
    view { tcb with txUnackedRing := some ring.refresh } = view tcb
  resend : ∀ (tcb : Tcb Mbuf) (ring : UnackedRing) (egress : List Frame) (offset : Nat),
    tcb.txUnackedRing = some ring → view (tcb.resend ring egress offset) = view tcb

/-- The view may depend on the receive side, too. -/
structure AckView (view : Tcb Mbuf → View) : Prop where
  same : ∀ tcb after : Tcb Mbuf, after.sndUna = tcb.sndUna → after.sndNxt = tcb.sndNxt →
    after.txUnackedRing = tcb.txUnackedRing → after.receiveSide = tcb.receiveSide →
      view after = view tcb
  refresh : ∀ (tcb : Tcb Mbuf) (ring : UnackedRing), tcb.txUnackedRing = some ring →
    view { tcb with txUnackedRing := some ring.refresh } = view tcb
  resend : ∀ (tcb : Tcb Mbuf) (ring : UnackedRing) (egress : List Frame) (offset : Nat),
    tcb.txUnackedRing = some ring → view (tcb.resend ring egress offset) = view tcb

theorem FlightView.ackView (sees : FlightView view) : AckView view :=
  { sees with same := fun tcb after una nxt ring _ => sees.same tcb after una nxt ring }

theorem receives_teardown :
    (teardown tcb).phase.receives = tcb.phase.receives ∧
      ((teardown tcb).phase = .synSent → tcb.phase = .synSent) := by
  unfold teardown
  split_ifs with finWait closing lastAck
  · exact ⟨by rw [finWait.1]; rfl, nofun⟩
  · exact ⟨by rw [closing.1]; rfl, nofun⟩
  · exact ⟨by rw [lastAck.1]; rfl, nofun⟩
  · exact ⟨rfl, id⟩

namespace AckView

variable (sees : AckView view)
include sees

theorem handsOn_retransmit (platform : Platform) {ring : UnackedRing} (egress : List Frame)
    (offset : Nat) {call : Call Mbuf} (bound : call.tcb.txUnackedRing = some ring) :
    HandsOn view call (retransmit platform ring.refresh egress offset call) := by
  have refreshed := sees.refresh call.tcb ring bound
  have noted : view
      { call.tcb with
        txUnackedRing := some ring.refresh
        highestRtxSeq := (ring.refresh.peekSlot offset).frame.seqEnd } = view call.tcb := by
    refine Eq.trans ?_ refreshed
    exact sees.same _ _ rfl rfl rfl rfl
  unfold retransmit
  split_ifs
  · exact ⟨(sees.resend _ ring.refresh egress offset rfl).trans noted, rfl, rfl, id⟩
  · refine Eq.trans ?_ noted
    exact sees.same _ _ rfl rfl rfl rfl

theorem handsOn_fastRetransmit (platform : Platform) (call : Call Mbuf) :
    HandsOn view call (fastRetransmit platform call) := by
  have same : view (call.on enterRecovery).tcb = view call.tcb ∧
      Carried call (call.on enterRecovery) := by
    refine ⟨?_, rfl, ?_, ?_⟩
    · apply sees.same <;> simp only [Call.on, enterRecovery, receiveSide]
    · simp only [Call.on, enterRecovery]
    · simp only [Call.on, enterRecovery, imp_self]
  unfold fastRetransmit
  dsimp only
  generalize call.on enterRecovery = entered at same ⊢
  refine .trans same ?_
  split
  · rename_i ring egress bound _
    split_ifs
    · exact sees.handsOn_retransmit platform egress 0 bound
    · exact ⟨sees.refresh entered.tcb ring bound, rfl, rfl, id⟩
  · exact ⟨rfl, rfl, rfl, id⟩

theorem handsOn_partialRetransmit (platform : Platform) (packet : Packet Mbuf)
    (call : Call Mbuf) : HandsOn view call (partialRetransmit platform packet call) := by
  unfold partialRetransmit
  split_ifs
  · exact ⟨rfl, rfl, rfl, id⟩
  · split
    · rename_i ring egress bound _
      split
      · exact sees.handsOn_retransmit platform egress _ bound
      · exact ⟨sees.refresh call.tcb ring bound, rfl, rfl, id⟩
    · exact ⟨rfl, rfl, rfl, id⟩

theorem teardown : view (Tcp.teardown tcb) = view tcb := by
  unfold Tcp.teardown
  split_ifs <;> exact sees.same tcb _ rfl rfl rfl rfl

/-- An ACK that makes progress moves `snd_una` and drops what it covers. -/
theorem acknowledged_progressAck (platform : Platform) (packet : Packet Mbuf)
    (wasFastRecovery : Bool) (call : Call Mbuf) :
    let acknowledged := view (slideUnacked (advanceUna packet call.tcb))
    Ensures (progressAck platform packet wasFastRecovery call)
      (fun next => view next.tcb = acknowledged ∧ Carried call next)
      fun result => view result.call.tcb = acknowledged := by
  intro acknowledged
  have moved :
      view (call.on (Tcp.acknowledged packet wasFastRecovery)).tcb = acknowledged := by
    refine (sees.teardown _).trans (sees.same _ _ ?_ ?_ ?_ ?_) <;>
      · unfold leaveRecovery
        split_ifs <;> rfl
  have carried : Carried call (call.on (Tcp.acknowledged packet wasFastRecovery)) := by
    have left : (leaveRecovery packet wasFastRecovery call.tcb).phase = call.tcb.phase := by
      unfold leaveRecovery
      split_ifs <;> rfl
    have torn := receives_teardown
      (slideUnacked (advanceUna packet (leaveRecovery packet wasFastRecovery call.tcb)))
    exact ⟨rfl, torn.1.trans (congrArg Phase.receives left), fun opening => left ▸ torn.2 opening⟩
  have grown (call : Call Mbuf) : view (growCwnd call.tcb) = view call.tcb ∧
      Carried call (call.on growCwnd) := by
    refine ⟨?_, rfl, ?_, ?_⟩
    · apply sees.same <;> simp only [growCwnd, receiveSide]
    · simp only [Call.on, growCwnd]
    · simp only [Call.on, growCwnd, imp_self]
  unfold progressAck
  generalize call.on _ = slid at moved carried ⊢
  rw [← moved]
  have kept : HandsOn view slid
      (if isPartialAck call.tcb packet wasFastRecovery then partialRetransmit platform packet slid
        else .ok (slid.on growCwnd)) := by
    split_ifs
    · exact sees.handsOn_partialRetransmit platform packet slid
    · exact grown slid
  refine Ensures.map kept fun next same =>
    ⟨Eq.trans ?_ same.1, carried.trans (same.2.trans ⟨rfl, rfl, id⟩)⟩
  exact sees.same next.tcb _ rfl rfl rfl rfl

/-- What ACK processing after the handshake does to the view: nothing, or what the move of
`snd_una` does. -/
theorem effect_applyAck (platform : Platform) (packet : Packet Mbuf) (call : Call Mbuf) :
    let effect (after : View) := after = view call.tcb ∨ ackProgresses call.tcb packet = true ∧
        after = view (slideUnacked (advanceUna packet call.tcb))
    Ensures (applyAck platform packet call)
      (fun next => effect (view next.tcb) ∧ Carried call next)
      fun result => effect (view result.call.tcb) := by
  intro effect
  have inflated (call : Call Mbuf) : view (inflate call.tcb) = view call.tcb ∧
      Carried call (call.on inflate) := by
    have phase : (inflate call.tcb).phase = call.tcb.phase := by
      unfold inflate
      split_ifs <;> rfl
    refine ⟨?_, rfl, congrArg Phase.receives phase, phase ▸ id⟩
    apply sees.same <;>
      · unfold inflate
        split_ifs <;> simp only [receiveSide]
  have same : view (call.on fun tcb => { tcb with dupAcks := countDup tcb packet }).tcb =
      view call.tcb := sees.same call.tcb _ rfl rfl rfl rfl
  have here : Carried call (call.on fun tcb => { tcb with dupAcks := countDup tcb packet }) :=
    ⟨rfl, rfl, id⟩
  have slid : view (slideUnacked (advanceUna packet
      (call.on fun tcb => { tcb with dupAcks := countDup tcb packet }).tcb)) =
        view (slideUnacked (advanceUna packet call.tcb)) := sees.same _ _ rfl rfl rfl rfl
  have test : ackProgresses
      (call.on fun tcb => { tcb with dupAcks := countDup tcb packet }).tcb packet =
        ackProgresses call.tcb packet := rfl
  unfold applyAck plainAck
  dsimp only
  generalize call.on _ = counted at same here slid test ⊢
  have leaves {stage : Stage Mbuf} (hands : HandsOn view counted stage) :
      Ensures stage (fun next => effect (view next.tcb) ∧ Carried call next)
        fun result => effect (view result.call.tcb) :=
    (HandsOn.trans ⟨same, here⟩ hands).mono (fun _ => And.imp_left .inl) fun _ => .inl
  split_ifs with third further progresses beyond
  · exact leaves (sees.handsOn_fastRetransmit platform counted)
  · exact leaves (inflated counted)
  · refine (sees.acknowledged_progressAck platform packet _ counted).mono
      (fun next moved => ⟨.inr ⟨test.symm.trans progresses, moved.1.trans slid⟩, ?_⟩)
      fun result moved => .inr ⟨test.symm.trans progresses, moved.trans slid⟩
    exact here.trans moved.2
  · refine leaves ?_
    change view (counted.tcb.triggerChallengeAck platform.now) = view counted.tcb
    rw [triggerChallengeAck_only]
    exact sees.same _ _ rfl rfl rfl rfl
  · refine leaves ⟨?_, rfl, rfl, id⟩
    exact sees.same counted.tcb _ rfl rfl rfl rfl
  · exact leaves ⟨rfl, rfl, rfl, id⟩

end AckView

end SlabFlux.Net.Tcp
