import SlabFlux.Net.Tcp.ReceiveWindow.Condition

/-!
# The receive window of a whole call

ACK processing leaves the payload to the later stages, unless it returns; the later stages hand
it on, cut it or hide it.  Together they stay inside the window if and only if no segment that
does not fit is handed on as a whole.
-/

namespace SlabFlux.Net.Tcp

open SlabFlux.Core Lib

variable {Mbuf : Type} {tcb : Tcb Mbuf}

/-! ## The acknowledgement -/

/-- What the payload stages look at, the phase apart, is as it was. -/
structure PayloadKept (call next : Call Mbuf) : Prop where
  payloadLen : next.payloadLen = call.payloadLen
  trimOffset : next.trimOffset = call.trimOffset
  rcvNxt : next.tcb.rcvNxt = call.tcb.rcvNxt

theorem PayloadKept.trans {first second third : Call Mbuf} (left : PayloadKept first second)
    (right : PayloadKept second third) : PayloadKept first third where
  payloadLen := right.payloadLen.trans left.payloadLen
  trimOffset := right.trimOffset.trans left.trimOffset
  rcvNxt := right.rcvNxt.trans left.rcvNxt

theorem phase_teardown (tcb : Tcb Mbuf) :
    (teardown tcb).phase = if tcb.sndUna = tcb.sndNxt then
        match tcb.phase with
        | .finWait1 => .finWait2
        | .closing => .timeWait
        | .lastAck => .closed
        | phase => phase
      else tcb.phase := by
  unfold teardown
  by_cases met : tcb.sndUna = tcb.sndNxt
  · simp only [met, and_true, if_true]
    cases phase : tcb.phase <;> simp [phase]
  · simp only [met, and_false, if_false]

/-- A retransmission on a partial ACK finds a segment and cannot retain its buffer. -/
def resendFails (platform : Platform) (packet : Packet Mbuf) (tcb : Tcb Mbuf) : Bool :=
  platform.retains = false ∧
    ¬(tcb.highestRtxSeq ≠ 0 ∧ (packet.tcpAck - tcb.highestRtxSeq).toInt < 0) ∧
    tcb.txEgressConduit.isSome ∧
    (tcb.txUnackedRing.bind fun ring => firstUnsacked ring.refresh).isSome

section Acknowledgement

variable (platform : Platform) (packet : Packet Mbuf)

theorem outcome_partialRetransmit (call : Call Mbuf) :
    Ensures (partialRetransmit platform packet call)
      (fun next => resendFails platform packet call.tcb = false ∧ PayloadKept call next ∧
        next.tcb.phase = call.tcb.phase)
      fun result => resendFails platform packet call.tcb = true ∧ result.accepted = true ∧
        PayloadKept call result.call := by
  unfold partialRetransmit
  by_cases behind : call.tcb.highestRtxSeq ≠ 0 ∧ (packet.tcpAck - call.tcb.highestRtxSeq).toInt < 0
  · rw [if_pos behind]
    exact ⟨decide_eq_false fun fails => fails.2.1 behind, ⟨rfl, rfl, rfl⟩, rfl⟩
  · rw [if_neg behind]
    split
    · rename_i ring egress bound wired
      split
      · rename_i offset found
        unfold retransmit
        split_ifs with retains
        · refine ⟨decide_eq_false fun fails => ?_, ⟨rfl, rfl, rfl⟩, rfl⟩
          exact Bool.noConfusion (retains.symm.trans fails.1)
        · refine ⟨decide_eq_true ⟨Bool.eq_false_iff.mpr retains, behind, ?_, ?_⟩, rfl,
            ⟨rfl, rfl, rfl⟩⟩
          · rw [wired]
            rfl
          · rw [bound, Option.bind_some, found]
            rfl
      · rename_i none
        refine ⟨decide_eq_false fun fails => ?_, ⟨rfl, rfl, rfl⟩, rfl⟩
        have some := fails.2.2.2
        rw [bound, Option.bind_some, none] at some
        exact Bool.noConfusion some
    · rename_i missing
      refine ⟨decide_eq_false fun fails => ?_, ⟨rfl, rfl, rfl⟩, rfl⟩
      obtain ⟨egress, wired⟩ := Option.isSome_iff_exists.mp fails.2.2.1
      cases bound : call.tcb.txUnackedRing with
      | none =>
          have some := fails.2.2.2
          rw [bound] at some
          exact Bool.noConfusion some
      | some ring => exact missing ring egress bound wired

/-- The block once `snd_una` has moved. -/
theorem slid_fields (progresses : ackProgresses tcb packet = true) :
    let slid := teardown (slideUnacked (advanceUna packet tcb))
    slid.phase = ackedPhase packet tcb ∧ slid.rcvNxt = tcb.rcvNxt ∧
      slid.highestRtxSeq = tcb.highestRtxSeq ∧ slid.txEgressConduit = tcb.txEgressConduit ∧
      slid.txUnackedRing = tcb.txUnackedRing.map fun ring =>
        consumeAcked packet.tcpAck ring.occupancy ring := by
  refine ⟨?_, ?_⟩
  · rw [phase_teardown, ackedPhase]
    simp only [progresses, true_and]
    rfl
  · unfold teardown
    split_ifs <;> exact ⟨rfl, rfl, rfl, rfl⟩

theorem leaveRecovery_fields (wasFastRecovery : Bool) (tcb : Tcb Mbuf) :
    leaveRecovery packet wasFastRecovery tcb = { tcb with
        cwnd := (leaveRecovery packet wasFastRecovery tcb).cwnd
        dupAcks := (leaveRecovery packet wasFastRecovery tcb).dupAcks } := by
  unfold leaveRecovery
  split_ifs <;> rfl

/-- The part of `losesBuffer` that is left once the ACK is known to move `snd_una`.  The
duplicates have been counted anew by then. -/
theorem losesBuffer_of_progresses (count : BitVec 8)
    (progresses : ackProgresses tcb packet = true) :
    let counted := { tcb with dupAcks := count }
    losesBuffer platform packet tcb tcb.txUnackedRing =
      (isPartialAck counted packet (decide (3 ≤ tcb.dupAcks)) && resendFails platform packet
          (teardown (slideUnacked (advanceUna packet counted)))) := by
  have again : ackProgresses { tcb with dupAcks := count } packet = true := progresses
  obtain ⟨-, -, rtxEq, egressEq, ringEq⟩ := slid_fields packet again
  have foundEq : ((tcb.txUnackedRing.map fun ring =>
      consumeAcked packet.tcpAck ring.occupancy ring).bind fun ring =>
        firstUnsacked ring.refresh) = tcb.txUnackedRing.bind (firstLeft packet.tcpAck) := by
    cases tcb.txUnackedRing <;> rfl
  unfold losesBuffer isPartialAck resendFails
  dsimp only at rtxEq egressEq ringEq ⊢
  rw [rtxEq, egressEq, ringEq, foundEq, Bool.eq_iff_iff]
  simp only [decide_eq_true_eq, Bool.and_eq_true]
  tauto

theorem outcome_progressAck (wasFastRecovery : Bool) (call : Call Mbuf)
    (progresses : ackProgresses call.tcb packet = true) :
    let fails := isPartialAck call.tcb packet wasFastRecovery &&
      resendFails platform packet (teardown (slideUnacked (advanceUna packet call.tcb)))
    Ensures (progressAck platform packet wasFastRecovery call)
      (fun next => fails = false ∧ PayloadKept call next ∧
        next.tcb.phase = ackedPhase packet call.tcb)
      fun result => fails = true ∧ result.accepted = true ∧ PayloadKept call result.call := by
  intro fails
  unfold progressAck
  dsimp only [Call.on, acknowledged]
  by_cases isPartial : isPartialAck call.tcb packet wasFastRecovery = true
  · have stays : leaveRecovery packet wasFastRecovery call.tcb = call.tcb := by
      unfold leaveRecovery
      rw [isPartial, if_neg (fun both => Bool.noConfusion both.2)]
    have failsEq : fails = resendFails platform packet
        (teardown (slideUnacked (advanceUna packet call.tcb))) := by
      change (isPartialAck call.tcb packet wasFastRecovery && _) = _
      rw [isPartial, Bool.true_and]
    obtain ⟨phase, rcvNxt, -⟩ := slid_fields packet progresses
    rw [if_pos isPartial, stays, failsEq]
    generalize teardown (slideUnacked (advanceUna packet call.tcb)) = slid at phase rcvNxt
    have outcome := outcome_partialRetransmit platform packet { call with tcb := slid }
    have here : PayloadKept call { call with tcb := slid } := ⟨rfl, rfl, rcvNxt⟩
    refine Ensures.map (outcome.mono (fun next met => ?_) fun result met => ?_) fun next met => met
    · exact ⟨met.1, (here.trans met.2.1).trans ⟨rfl, rfl, rfl⟩, met.2.2.trans phase⟩
    · exact ⟨met.1, met.2.1, here.trans met.2.2⟩
  · have failsEq : fails = false := by
      change (isPartialAck call.tcb packet wasFastRecovery && _) = _
      rw [Bool.eq_false_iff.mpr isPartial, Bool.false_and]
    have only := leaveRecovery_fields packet wasFastRecovery call.tcb
    have again : ackProgresses (leaveRecovery packet wasFastRecovery call.tcb) packet = true := by
      rw [only]
      exact progresses
    have phaseEq : ackedPhase packet (leaveRecovery packet wasFastRecovery call.tcb) =
        ackedPhase packet call.tcb := by
      rw [only]
      rfl
    obtain ⟨phase, rcvNxt, -⟩ := slid_fields packet again
    have rcvEq : (leaveRecovery packet wasFastRecovery call.tcb).rcvNxt = call.tcb.rcvNxt := by
      rw [only]
    rw [if_neg isPartial]
    generalize teardown (slideUnacked (advanceUna packet
      (leaveRecovery packet wasFastRecovery call.tcb))) = slid at phase rcvNxt
    exact ⟨failsEq, ⟨rfl, rfl, rcvNxt.trans rcvEq⟩, phase.trans phaseEq⟩

/-- What ACK processing hands on. -/
structure AckPassed (call next : Call Mbuf) : Prop where
  kept : PayloadKept call next
  whole : 0 < packet.payloadLen →
    losesBuffer platform packet call.tcb call.tcb.txUnackedRing = false ∧
      acksUnsent packet call.tcb = false ∧ next.tcb.phase = ackedPhase packet call.tcb

/-- What ACK processing returns: the payload is hidden, or there is none, or the buffer of a
retransmission is lost. -/
structure AckStopped (call : Call Mbuf) (result : Return Mbuf) : Prop where
  rcvNxt : result.call.tcb.rcvNxt = call.tcb.rcvNxt
  stops : result.call.payloadLen = 0 ∧ (0 < packet.payloadLen →
      losesBuffer platform packet call.tcb call.tcb.txUnackedRing = false ∧
        acksUnsent packet call.tcb = true) ∨
    losesBuffer platform packet call.tcb call.tcb.txUnackedRing = true ∧
      result.accepted = true ∧ PayloadKept call result.call

theorem kept_on {call : Call Mbuf} {change : Tcb Mbuf → Tcb Mbuf}
    (rcvNxt : (change call.tcb).rcvNxt = call.tcb.rcvNxt) : PayloadKept call (call.on change) :=
  ⟨rfl, rfl, rcvNxt⟩

theorem outcome_fastRetransmit (call : Call Mbuf) :
    Ensures (fastRetransmit platform call) (PayloadKept call) fun result =>
      PayloadKept call result.call := by
  have entered : PayloadKept call (call.on enterRecovery) := by
    apply kept_on
    simp only [enterRecovery]
  unfold fastRetransmit
  dsimp only
  generalize call.on enterRecovery = recovering at entered ⊢
  split
  · split_ifs
    · unfold retransmit
      split_ifs
      · exact entered.trans ⟨rfl, rfl, rfl⟩
      · exact entered.trans ⟨rfl, rfl, rfl⟩
    · exact entered.trans ⟨rfl, rfl, rfl⟩
  · exact entered

theorem kept_inflate (call : Call Mbuf) : PayloadKept call (call.on inflate) := by
  apply kept_on
  unfold inflate
  split_ifs <;> rfl

theorem rcvNxt_triggerChallengeAck (tcb : Tcb Mbuf) (now : BitVec 64) :
    (tcb.triggerChallengeAck now).rcvNxt = tcb.rcvNxt := by
  rw [triggerChallengeAck_only]

/-- ACK processing leaves the payload alone or hides it. -/
theorem outcome_applyAck_empty {call : Call Mbuf} (empty : call.payloadLen = 0) :
    Ensures (applyAck platform packet call) (PayloadKept call) fun result =>
      result.call.tcb.rcvNxt = call.tcb.rcvNxt ∧ result.call.payloadLen = 0 := by
  have counted : PayloadKept call
      (call.on fun tcb => { tcb with dupAcks := countDup tcb packet }) :=
    ⟨rfl, rfl, rfl⟩
  have ended {result : Return Mbuf} (kept : PayloadKept call result.call) :
      result.call.tcb.rcvNxt = call.tcb.rcvNxt ∧ result.call.payloadLen = 0 :=
    ⟨kept.rcvNxt, kept.payloadLen.trans empty⟩
  unfold applyAck plainAck
  dsimp only
  generalize (call.on fun tcb => { tcb with dupAcks := countDup tcb packet }) = next at counted ⊢
  split_ifs with third more progresses
  · exact (outcome_fastRetransmit platform next).mono (fun _ kept => counted.trans kept)
      fun _ kept => ended (counted.trans kept)
  · exact counted.trans (kept_inflate next)
  · exact (outcome_progressAck platform packet _ next progresses).mono
      (fun _ met => counted.trans met.2.1) fun _ met => ended (counted.trans met.2.2)
  · exact ⟨(rcvNxt_triggerChallengeAck _ _).trans counted.rcvNxt, rfl⟩
  · exact counted.trans ⟨rfl, rfl, rfl⟩
  · exact counted

theorem ackedPhase_of_not_progresses
    (stays : ackProgresses tcb packet = false) : ackedPhase packet tcb = tcb.phase := by
  unfold ackedPhase
  rw [stays, if_neg fun both => Bool.noConfusion both.1]

theorem losesBuffer_of_not_progresses (stays : ackProgresses tcb packet = false) :
    losesBuffer platform packet tcb tcb.txUnackedRing = false :=
  decide_eq_false fun loses => Bool.noConfusion (stays.symm.trans loses.2.2.1)

/-- A segment with payload is no duplicate ACK. -/
theorem countDup_of_payload (payload : 0 < packet.payloadLen) :
    isDup tcb packet = false ∧ countDup tcb packet = 0 := by
  have other : isDup tcb packet = false :=
    decide_eq_false fun dup => absurd payload (by rw [dup.2.1]; exact BitVec.lt_irrefl 0)
  refine ⟨other, ?_⟩
  unfold countDup
  rw [other]
  rfl

theorem outcome_applyAck {call : Call Mbuf} (length : call.payloadLen = packet.payloadLen) :
    Ensures (applyAck platform packet call) (AckPassed platform packet call)
      (AckStopped platform packet call) := by
  by_cases payload : 0 < packet.payloadLen
  · have plain : isDup call.tcb packet = false ∧ countDup call.tcb packet = 0 :=
      countDup_of_payload packet payload
    obtain ⟨other, count⟩ := plain
    unfold applyAck plainAck
    dsimp only [Call.on]
    rw [count, if_neg (by decide), if_neg (by decide)]
    by_cases progresses : ackProgresses call.tcb packet = true
    · have again : ackProgresses { call.tcb with dupAcks := 0 } packet = true := progresses
      have sent : acksUnsent packet call.tcb = false :=
        decide_eq_false fun unsent => Bool.noConfusion (progresses.symm.trans unsent.1)
      have loses := losesBuffer_of_progresses platform packet 0 progresses
      rw [if_pos again]
      refine (outcome_progressAck platform packet (decide (3 ≤ call.tcb.dupAcks))
        { call with tcb := { call.tcb with dupAcks := 0 } } again).mono
        (fun next met => ?_) fun result met => ?_
      · exact ⟨⟨met.2.1.payloadLen, met.2.1.trimOffset, met.2.1.rcvNxt⟩,
          fun _ => ⟨loses.trans met.1, sent, met.2.2⟩⟩
      · exact ⟨met.2.2.rcvNxt, .inr ⟨loses.trans met.1, met.2.1,
          ⟨met.2.2.payloadLen, met.2.2.trimOffset, met.2.2.rcvNxt⟩⟩⟩
    · have stays : ackProgresses call.tcb packet = false := Bool.eq_false_iff.mpr progresses
      have kept := losesBuffer_of_not_progresses platform packet stays
      have phase := ackedPhase_of_not_progresses packet stays
      rw [if_neg (by exact progresses)]
      split_ifs with unsent
      · exact ⟨rcvNxt_triggerChallengeAck _ _,
          .inl ⟨rfl, fun _ => ⟨kept, decide_eq_true ⟨stays, unsent⟩⟩⟩⟩
      · exact ⟨⟨rfl, rfl, rfl⟩,
          fun _ => ⟨kept, decide_eq_false fun both => unsent both.2, phase.symm⟩⟩
      · exact ⟨⟨rfl, rfl, rfl⟩,
          fun _ => ⟨kept, decide_eq_false fun both => unsent both.2, phase.symm⟩⟩
  · have empty : packet.payloadLen = 0 := by
      exact BitVec.eq_of_toNat_eq (Nat.eq_zero_of_not_pos payload)
    refine (outcome_applyAck_empty platform packet (length.trans empty)).mono
      (fun next kept => ⟨kept, fun some => absurd some payload⟩) fun result met => ?_
    exact ⟨met.1, .inl ⟨met.2, fun some => absurd some payload⟩⟩

end Acknowledgement

/-! ## The payload -/

section Payload

variable (platform : Platform) (packet : Packet Mbuf)

/-- The FIN stage takes the FIN. -/
def consumesFin (tcb : Tcb Mbuf) : Bool :=
  packet.flagged Flag.fin ∧ packet.payloadSeq + packet.payloadLen = tcb.rcvNxt

/-- The stages after the payload. -/
def finStages : List (Call Mbuf → Stage Mbuf) :=
  [processFin packet, challengeTimeWait platform packet]

/-- What the stages after the payload make of a call. -/
structure Finished (call : Call Mbuf) (result : Return Mbuf) : Prop where
  accepted : result.accepted = true
  trimOffset : result.call.trimOffset = call.trimOffset
  rcvNxt : result.call.tcb.rcvNxt =
    if consumesFin packet call.tcb then call.tcb.rcvNxt + 1 else call.tcb.rcvNxt
  payloadLen : result.call.payloadLen = if 0 < packet.payloadLen ∧ (call.tcb.phase = .timeWait ∨
      call.tcb.phase = .finWait2 ∧ consumesFin packet call.tcb) then 0 else call.payloadLen

theorem acceptFin_fields (tcb : Tcb Mbuf) :
    (acceptFin tcb).rcvNxt = tcb.rcvNxt + 1 ∧
      ((acceptFin tcb).phase = .timeWait ↔ tcb.phase = .timeWait ∨ tcb.phase = .finWait2) := by
  unfold acceptFin acceptFinPhase Tcb.pend
  dsimp only
  cases tcb.phase <;> simp

theorem finished_finStages (call : Call Mbuf) :
    Finished packet call (runStages (finStages platform packet) call) := by
  have finished {next : Call Mbuf} (trimOffset : next.trimOffset = call.trimOffset)
      (payloadLen : next.payloadLen = call.payloadLen)
      (rcvNxt : next.tcb.rcvNxt =
        if consumesFin packet call.tcb then call.tcb.rcvNxt + 1 else call.tcb.rcvNxt)
      (phase : next.tcb.phase = .timeWait ↔ call.tcb.phase = .timeWait ∨
        call.tcb.phase = .finWait2 ∧ consumesFin packet call.tcb = true) :
      Finished packet call (runStages [challengeTimeWait platform packet] next) := by
    unfold runStages challengeTimeWait
    by_cases hides : next.tcb.phase = .timeWait ∧ 0 < packet.payloadLen
    · rw [if_pos hides]
      refine ⟨rfl, trimOffset, (rcvNxt_triggerChallengeAck _ _).trans rcvNxt, ?_⟩
      rw [if_pos ⟨hides.2, phase.mp hides.1⟩]
      rfl
    · rw [if_neg hides]
      refine ⟨rfl, trimOffset, rcvNxt, ?_⟩
      rw [if_neg fun both => hides ⟨phase.mpr both.2, both.1⟩]
      exact payloadLen
  unfold finStages
  rw [runStages]
  unfold processFin
  by_cases fin : packet.flagged Flag.fin = true
  · rw [if_pos fin]
    by_cases ends : packet.payloadSeq + packet.payloadLen = call.tcb.rcvNxt
    · have consumes : consumesFin packet call.tcb = true := decide_eq_true ⟨fin, ends⟩
      obtain ⟨rcvNxt, phase⟩ := acceptFin_fields call.tcb
      rw [if_pos ends]
      refine finished rfl rfl ?_ ?_
      · rw [consumes]
        exact rcvNxt
      · rw [consumes]
        simp only [and_true]
        exact phase
    · have keeps : consumesFin packet call.tcb = false := decide_eq_false fun both => ends both.2
      split_ifs with waits
      · refine finished rfl rfl ?_ ?_
        · rw [keeps]
          rfl
        · rw [keeps]
          simp [Call.on, Tcb.pend]
      · refine finished rfl rfl ?_ ?_
        · rw [keeps]
          rfl
        · rw [keeps]
          simp
  · have keeps : consumesFin packet call.tcb = false := decide_eq_false fun both => fin both.1
    rw [if_neg fin]
    refine finished rfl rfl ?_ ?_
    · rw [keeps]
      rfl
    · rw [keeps]
      simp

section Window

variable {packet} {rcvNxt rcvWnd : BitVec 32} {call : Call Mbuf}

theorem Finished.advance {result : Return Mbuf} (finished : Finished packet call result) :
    AdvancesTo packet call.tcb.rcvNxt result.call.tcb.rcvNxt := by
  have moved := finished.rcvNxt
  by_cases consumes : consumesFin packet call.tcb = true
  · rw [if_pos consumes] at moved
    have taken := of_decide_eq_true consumes
    exact .inr ⟨taken.1, taken.2, moved⟩
  · rw [if_neg consumes] at moved
    exact .inl moved

/-- What is inside the window after the payload stage stays there. -/
theorem staysInside_finStages (reaches : (call.tcb.rcvNxt - rcvNxt).toNat ≤ rcvWnd.toNat)
    (inside : DescribesInside packet rcvNxt rcvWnd call) :
    StaysInside packet rcvNxt rcvWnd (runStages (finStages platform packet) call) := by
  have finished := finished_finStages platform packet call
  refine ⟨⟨call.tcb.rcvNxt, reaches, finished.advance⟩, fun _ => ?_⟩
  have length := finished.payloadLen
  split_ifs at length
  · exact describesInside_of_hidden length
  · exact inside.congr finished.trimOffset length

theorem staysInside_of_unmoved (unmoved : call.tcb.rcvNxt = rcvNxt)
    (inside : DescribesInside packet rcvNxt rcvWnd call) :
    StaysInside packet rcvNxt rcvWnd (runStages (finStages platform packet) call) := by
  refine staysInside_finStages platform ?_ inside
  rw [unmoved, BitVec.sub_self]
  exact Nat.zero_le _

/-- A payload that is shown as a whole is inside the window if it fits. -/
theorem fits_of_shown (untrimmed : call.trimOffset = 0)
    (whole : call.payloadLen = packet.payloadLen)
    (shown : ¬(call.tcb.phase = .timeWait ∨
      call.tcb.phase = .finWait2 ∧ consumesFin packet call.tcb = true))
    (stays : StaysInside packet rcvNxt rcvWnd (runStages (finStages platform packet) call)) :
    WholeInside packet rcvNxt rcvWnd := by
  have finished := finished_finStages platform packet call
  have length := finished.payloadLen
  rw [if_neg fun both => shown both.2] at length
  exact (describesInside_whole (finished.trimOffset.trans untrimmed) (length.trans whole)).mp
    (stays.describes finished.accepted)

/-- A payload that was taken as a whole is inside the window if it fits, also if it is hidden
afterwards. -/
theorem fits_of_taken (untrimmed : call.trimOffset = 0)
    (whole : call.payloadLen = packet.payloadLen) (start : packet.payloadSeq = rcvNxt)
    (taken : call.tcb.rcvNxt = rcvNxt + packet.payloadLen)
    (receives : call.tcb.phase.receives = true)
    (unclosed : closesCircle packet call.tcb.phase = false)
    (stays : StaysInside packet rcvNxt rcvWnd (runStages (finStages platform packet) call)) :
    WholeInside packet rcvNxt rcvWnd := by
  by_cases hides : call.tcb.phase = .finWait2 ∧ consumesFin packet call.tcb = true
  · right
    have finished := finished_finStages platform packet call
    have moved := finished.rcvNxt
    rw [if_pos hides.2] at moved
    obtain ⟨next, near, advance⟩ := stays.advance
    have fin := (of_decide_eq_true hides.2).1
    have circle : packet.payloadLen + 1 ≠ 0 := fun closes =>
      of_decide_eq_false unclosed ⟨hides.1, fin, closes⟩
    rcases advance with here | ⟨-, ends, -⟩
    · bv_omega
    · bv_omega
  · refine fits_of_shown platform untrimmed whole ?_ stays
    rintro (waits | consumes)
    · rw [waits] at receives
      exact Bool.noConfusion receives
    · exact hides consumes

end Window

/-- The payload is taken, or shown, as a whole. -/
def exposes (tcb : Tcb Mbuf) (phase : Phase) : Bool :=
  phase.receives ∧ packet.payloadSeq = tcb.rcvNxt ∧ closesCircle packet phase = false ∨
    phase.receives = false ∧ phase ≠ .timeWait

theorem scheduleAck_fields (tcb : Tcb Mbuf) :
    (scheduleAck packet tcb).rcvNxt = tcb.rcvNxt ∧ (scheduleAck packet tcb).phase = tcb.phase := by
  unfold scheduleAck
  split_ifs <;> exact ⟨rfl, rfl⟩

theorem bufferOutOfOrder_fields (call : Call Mbuf) :
    (bufferOutOfOrder packet call).tcb.rcvNxt = call.tcb.rcvNxt := by
  unfold bufferOutOfOrder
  split <;> rfl

/-- A segment of the window that opens no connection. -/
structure Expected (tcb : Tcb Mbuf) : Prop where
  noSyn : packet.flagged Flag.syn = false
  synchronized : tcb.phase.guardsSyn = true
  valid : seqValid tcb packet = true

/-- What is new of a segment that starts before the window ends in it. -/
theorem tail_fits {overlap : Nat} (expected : Expected packet tcb)
    (place : placement tcb.rcvNxt packet.payloadSeq packet.payloadLen.toNat = .tail overlap) :
    packet.payloadLen.toNat - overlap ≤ tcb.rcvWnd.toNat := by
  obtain ⟨noSyn, synchronized, valid⟩ := expected
  have opened : tcb.phase ≠ .synSent := fun opening => by
    rw [opening] at synchronized
    exact Bool.noConfusion synchronized
  have start : packet.payloadSeq = packet.tcpSeq := by
    unfold Packet.payloadSeq
    rw [noSyn, if_neg Bool.false_ne_true, add_zero]
  rw [start] at place
  unfold placement at place
  split_ifs at place with same ahead negative covered
  obtain rfl : (tcb.rcvNxt - packet.tcpSeq).toNat = overlap := by injection place
  unfold seqValid at valid
  rw [if_neg opened] at valid
  split_ifs at valid with shut
  · have empty := (of_decide_eq_true valid).1
    rw [empty] at covered
    exact absurd covered (Nat.not_lt_zero _)
  · have inside := of_decide_eq_true valid
    unfold Packet.endSeq at inside
    rcases inside with ⟨head, -⟩ | ⟨-, -, tail⟩
    · rw [BitVec.toInt_eq_toNat_cond] at head
      omega
    · bv_omega

section Window

variable {packet} {call : Call Mbuf}

/-- The whole payload is described, and `rcv_nxt` is where it was. -/
structure Untouched (packet : Packet Mbuf) (tcb : Tcb Mbuf) (call : Call Mbuf) : Prop where
  whole : call.payloadLen = packet.payloadLen
  untrimmed : call.trimOffset = 0
  unmoved : call.tcb.rcvNxt = tcb.rcvNxt

theorem Untouched.trans {next : Call Mbuf} (untouched : Untouched packet tcb call)
    (kept : PayloadKept call next) : Untouched packet tcb next where
  whole := kept.payloadLen.trans untouched.whole
  untrimmed := kept.trimOffset.trans untouched.untrimmed
  unmoved := kept.rcvNxt.trans untouched.unmoved

/-- A payload that starts at `rcv_nxt`. -/
theorem staysInside_inOrder (untrimmed : call.trimOffset = 0)
    (whole : call.payloadLen = packet.payloadLen) (start : packet.payloadSeq = tcb.rcvNxt)
    (taken : call.tcb.rcvNxt = tcb.rcvNxt + packet.payloadLen)
    (receives : call.tcb.phase.receives = true) :
    StaysInside packet tcb.rcvNxt tcb.rcvWnd (runStages (finStages platform packet) call) ↔
      WholeInside packet tcb.rcvNxt tcb.rcvWnd ∨ exposes packet tcb call.tcb.phase = false := by
  have distance : (packet.payloadSeq - tcb.rcvNxt).toNat = 0 := by
    rw [start, BitVec.sub_self]
    rfl
  constructor
  · intro stays
    by_cases unclosed : closesCircle packet call.tcb.phase = false
    · exact .inl (fits_of_taken platform untrimmed whole start taken receives unclosed stays)
    · refine .inr (decide_eq_false ?_)
      rintro (both | other)
      · exact unclosed both.2.2
      · exact Bool.noConfusion (receives.symm.trans other.1)
  · intro inside
    by_cases fits : WholeInside packet tcb.rcvNxt tcb.rcvWnd
    · refine staysInside_finStages platform ?_ ((describesInside_whole untrimmed whole).mpr fits)
      rw [taken, add_sub_cancel_left]
      rcases fits with empty | fits
      · rw [empty]
        exact Nat.zero_le _
      · rwa [distance, Nat.zero_add] at fits
    · -- the circle closes: the payload is hidden, and `rcv_nxt` is where it was
      have closes : closesCircle packet call.tcb.phase = true := by
        rw [← Bool.not_eq_false]
        exact fun unclosed => of_decide_eq_false (inside.resolve_left fits)
          (.inl ⟨receives, start, unclosed⟩)
      obtain ⟨waits, fin, circle⟩ := of_decide_eq_true closes
      have consumes : consumesFin packet call.tcb = true :=
        decide_eq_true ⟨fin, by rw [taken, start]⟩
      have some : 0 < packet.payloadLen := by
        bv_omega
      have finished := finished_finStages platform packet call
      have moved := finished.rcvNxt
      have length := finished.payloadLen
      rw [if_pos consumes, taken, BitVec.add_assoc, circle, add_zero] at moved
      rw [if_pos ⟨some, .inr ⟨waits, consumes⟩⟩] at length
      exact staysInside_of_hidden moved fun _ => length

/-- A payload that starts elsewhere is cut or hidden. -/
theorem staysInside_elsewhere (expected : Expected packet tcb)
    (untouched : Untouched packet tcb call)
    (entered : call.tcb.phase.receives = true ∧
      (0 < call.payloadLen ∨ packet.flagged Flag.fin = true))
    (elsewhere : packet.payloadSeq ≠ tcb.rcvNxt) :
    StaysInside packet tcb.rcvNxt tcb.rcvWnd
      (runStages (processPayload packet :: finStages platform packet) call) := by
  obtain ⟨whole, -, unmoved⟩ := untouched
  rw [runStages]
  unfold processPayload
  rw [if_pos entered, unmoved, whole]
  cases place : placement tcb.rcvNxt packet.payloadSeq packet.payloadLen.toNat with
  | inOrder => exact absurd (placement_eq_inOrder place).symm elsewhere
  | outOfOrder =>
      refine staysInside_of_unmoved platform ?_ (describesInside_of_hidden rfl)
      exact (bufferOutOfOrder_fields packet call).trans unmoved
  | leap => exact staysInside_of_hidden unmoved fun accepted => Bool.noConfusion accepted
  | tail overlap =>
      obtain ⟨start, short⟩ := placement_eq_tail place
      have fits := tail_fits packet expected place
      refine staysInside_finStages platform ?_
        (describesInside_tail start short fits rfl (by rw [← whole]; rfl))
      have moved : (acceptTail packet overlap call).tcb.rcvNxt =
          tcb.rcvNxt + (packet.payloadLen - BitVec.ofNat 32 overlap) := by
        rw [← unmoved, ← whole]
        exact (scheduleAck_fields packet _).1
      bv_omega
  | duplicate => exact staysInside_of_unmoved platform unmoved (describesInside_of_hidden rfl)

theorem staysInside_skipped (untouched : Untouched packet tcb call)
    (skips : ¬(call.tcb.phase.receives = true ∧
      (0 < call.payloadLen ∨ packet.flagged Flag.fin = true))) :
    StaysInside packet tcb.rcvNxt tcb.rcvWnd (runStages (finStages platform packet) call) ↔
      WholeInside packet tcb.rcvNxt tcb.rcvWnd ∨ exposes packet tcb call.tcb.phase = false := by
  obtain ⟨whole, untrimmed, unmoved⟩ := untouched
  have empty_of_receives (receives : call.tcb.phase.receives = true) : packet.payloadLen = 0 := by
    have none : ¬0 < call.payloadLen := fun some => skips ⟨receives, .inl some⟩
    bv_omega
  constructor
  · intro stays
    by_cases exposed : exposes packet tcb call.tcb.phase = false
    · exact .inr exposed
    · rcases of_decide_eq_true (Bool.not_eq_false _ ▸ exposed) with taken | ⟨other, stopped⟩
      · exact .inl (.inl (empty_of_receives taken.1))
      · have shown : ¬(call.tcb.phase = .timeWait ∨
            call.tcb.phase = .finWait2 ∧ consumesFin packet call.tcb = true) := by
          rintro (waits | ⟨waits, -⟩)
          · exact stopped waits
          · rw [waits] at other
            exact Bool.noConfusion other
        exact .inl (fits_of_shown platform untrimmed whole shown stays)
  · intro inside
    by_cases fits : WholeInside packet tcb.rcvNxt tcb.rcvWnd
    · exact staysInside_of_unmoved platform unmoved
        ((describesInside_whole untrimmed whole).mpr fits)
    · have exposed := inside.resolve_left fits
      have waits : call.tcb.phase = .timeWait := by
        by_contra visible
        refine of_decide_eq_false exposed (.inr ⟨Bool.eq_false_iff.mpr fun receives => ?_, visible⟩)
        exact fits (.inl (empty_of_receives receives))
      have some : 0 < packet.payloadLen := by
        have filled : packet.payloadLen ≠ 0 := fun empty => fits (.inl empty)
        bv_omega
      have finished := finished_finStages platform packet call
      have length := finished.payloadLen
      rw [if_pos ⟨some, .inl waits⟩] at length
      refine ⟨⟨call.tcb.rcvNxt, ?_, finished.advance⟩, fun _ => describesInside_of_hidden length⟩
      rw [unmoved, BitVec.sub_self]
      exact Nat.zero_le _

theorem staysInside_payload (expected : Expected packet tcb)
    (untouched : Untouched packet tcb call) :
    StaysInside packet tcb.rcvNxt tcb.rcvWnd
        (runStages (processPayload packet :: finStages platform packet) call) ↔
      WholeInside packet tcb.rcvNxt tcb.rcvWnd ∨ exposes packet tcb call.tcb.phase = false := by
  by_cases entered : call.tcb.phase.receives = true ∧
      (0 < call.payloadLen ∨ packet.flagged Flag.fin = true)
  · by_cases start : packet.payloadSeq = tcb.rcvNxt
    · have accepted := scheduleAck_fields packet
        { call.tcb with
          rcvNxt := call.tcb.rcvNxt + call.payloadLen
          sackBlocks := fun index =>
            (call.tcb.sackBlocks index).trim (call.tcb.rcvNxt + call.payloadLen) }
      have place : placement call.tcb.rcvNxt packet.payloadSeq call.payloadLen.toNat =
          .inOrder := by
        unfold placement
        rw [untouched.unmoved, if_pos start]
      have phase : (call.on (acceptInOrder packet call.payloadLen)).tcb.phase = call.tcb.phase :=
        accepted.2
      have taken : (call.on (acceptInOrder packet call.payloadLen)).tcb.rcvNxt =
          tcb.rcvNxt + packet.payloadLen := by
        rw [← untouched.unmoved, ← untouched.whole]
        exact accepted.1
      rw [runStages]
      unfold processPayload
      rw [if_pos entered, place, ← phase]
      exact staysInside_inOrder platform untouched.untrimmed untouched.whole start taken
        (phase.symm ▸ entered.1)
    · refine iff_of_true (staysInside_elsewhere platform expected untouched entered start)
        (.inr (decide_eq_false ?_))
      rintro (both | other)
      · exact start both.2.1
      · exact Bool.noConfusion (entered.1.symm.trans other.1)
  · have skipped : runStages (processPayload packet :: finStages platform packet) call =
        runStages (finStages platform packet) call := by
      rw [runStages]
      unfold processPayload
      rw [if_neg entered]
    rw [skipped]
    exact staysInside_skipped platform untouched entered

/-- A reset never shows its payload. -/
theorem staysInside_rst (unmoved : call.tcb.rcvNxt = tcb.rcvNxt)
    (rst : packet.flagged Flag.rst = true) :
    StaysInside packet tcb.rcvNxt tcb.rcvWnd
      (runStages (receiveStages platform packet) call) := by
  unfold receiveStages
  rw [runStages]
  unfold processRst
  split_ifs
  · exact staysInside_of_hidden unmoved fun _ => rfl
  · exact staysInside_of_hidden unmoved fun _ => rfl
  · exact staysInside_of_hidden ((rcvNxt_triggerChallengeAck _ _).trans unmoved) fun _ => rfl

theorem runStages_receiveStages (noRst : packet.flagged Flag.rst = false)
    (noSyn : packet.flagged Flag.syn = false) :
    runStages (receiveStages platform packet) call =
      runStages (requireAck packet :: processPayload packet :: finStages platform packet) call := by
  have rstEq : processRst platform packet call = .ok call := by
    unfold processRst
    rw [noRst, if_neg Bool.false_ne_true]
  have synEq : processSyn packet call = .ok call := by
    unfold processSyn
    rw [noSyn, if_neg Bool.false_ne_true]
  unfold receiveStages finStages
  rw [runStages, rstEq]
  dsimp only
  rw [runStages, synEq]

/-- A segment without an ACK is refused. -/
theorem staysInside_unanswered (noSyn : packet.flagged Flag.syn = false)
    (unmoved : call.tcb.rcvNxt = tcb.rcvNxt) (requires : call.tcb.phase.requiresAck = true)
    (unanswered : packet.flagged Flag.ack = false) :
    StaysInside packet tcb.rcvNxt tcb.rcvWnd
      (runStages (receiveStages platform packet) call) := by
  by_cases rst : packet.flagged Flag.rst = true
  · exact staysInside_rst platform unmoved rst
  · rw [runStages_receiveStages platform (Bool.eq_false_iff.mpr rst) noSyn, runStages]
    unfold requireAck
    rw [if_pos ⟨unanswered, requires⟩]
    exact staysInside_of_hidden unmoved fun accepted => Bool.noConfusion accepted

theorem staysInside_receiveStages (expected : Expected packet tcb)
    (untouched : Untouched packet tcb call) (answers : packet.flagged Flag.ack = true) :
    StaysInside packet tcb.rcvNxt tcb.rcvWnd
        (runStages (receiveStages platform packet) call) ↔
      packet.flagged Flag.rst = true ∨ WholeInside packet tcb.rcvNxt tcb.rcvWnd ∨
        exposes packet tcb call.tcb.phase = false := by
  by_cases rst : packet.flagged Flag.rst = true
  · exact iff_of_true (staysInside_rst platform untouched.unmoved rst) (.inl rst)
  · have handed : runStages (receiveStages platform packet) call =
        runStages (processPayload packet :: finStages platform packet) call := by
      rw [runStages_receiveStages platform (Bool.eq_false_iff.mpr rst) expected.noSyn, runStages]
      unfold requireAck
      rw [if_neg fun refused => Bool.noConfusion (answers.symm.trans refused.1)]
    rw [handed, staysInside_payload platform expected untouched]
    exact ⟨.inr, fun inside => inside.resolve_left rst⟩

end Window

end Payload

/-! ## The whole call -/

section

variable {packet : Packet Mbuf}

/-- What the acknowledgement reads is what the caller's block has. -/
theorem admitted_fields (platform : Platform) {tcb after : Tcb Mbuf}
    (admitted : Admitted packet tcb after)
    (ring : after.txUnackedRing = (afterOptions packet packet.tokens tcb).txUnackedRing) :
    after.rcvNxt = tcb.rcvNxt ∧ after.phase = tcb.phase ∧
      losesBuffer platform packet after after.txUnackedRing =
        losesBuffer platform packet tcb (afterOptions packet packet.tokens tcb).txUnackedRing ∧
      acksUnsent packet after = acksUnsent packet tcb ∧
      ackedPhase packet after = ackedPhase packet tcb := by
  rw [ring]
  have only := admitted.only
  rw [afterEcho_only] at only
  rw [only]
  exact ⟨rfl, rfl, rfl, rfl, rfl⟩

theorem exposes_ackedPhase (synchronized : tcb.phase.guardsSyn = true) :
    exposes packet tcb (ackedPhase packet tcb) = true ↔
      tcb.phase.receives = true ∧ packet.payloadSeq = tcb.rcvNxt ∧
          closesCircle packet (ackedPhase packet tcb) = false ∨
        overlooksPayload packet tcb = true := by
  unfold exposes overlooksPayload ackedPhase
  by_cases moved : ackProgresses tcb packet = true ∧ packet.tcpAck = tcb.sndNxt
  · cases phase : tcb.phase <;> simp_all [Phase.receives, Phase.guardsSyn]
  · rw [if_neg moved]
    cases phase : tcb.phase <;> simp_all [Phase.receives, Phase.guardsSyn]

/-- What the call does for a segment with an ACK that passes, from the acknowledgement on. -/
theorem staysInside_ackStages (platform : Platform)
    {call : Call Mbuf} (expected : Expected packet tcb) (untouched : Untouched packet tcb call)
    (phase : call.tcb.phase = tcb.phase) (answers : packet.flagged Flag.ack = true) :
    StaysInside packet tcb.rcvNxt tcb.rcvWnd (runStages (ackStages platform packet) call) ↔
      WholeInside packet tcb.rcvNxt tcb.rcvWnd ∨
        losesBuffer platform packet call.tcb call.tcb.txUnackedRing = false ∧
          (packet.flagged Flag.rst = true ∨ acksUnsent packet call.tcb = true ∨
            exposes packet tcb (ackedPhase packet call.tcb) = false) := by
  have handed : processAck platform packet call = applyAck platform packet call :=
    processAck_of_guardsSyn platform (phase.symm ▸ expected.synchronized) answers
  have outcome := outcome_applyAck platform packet untouched.whole
  unfold ackStages
  rw [runStages, handed]
  cases applied : applyAck platform packet call with
  | error result =>
      rw [applied] at outcome
      have still := outcome.rcvNxt.trans untouched.unmoved
      rcases outcome.stops with ⟨hidden, others⟩ | ⟨loses, accepted, kept⟩
      · refine iff_of_true (staysInside_of_hidden still fun _ => hidden) ?_
        by_cases some : 0 < packet.payloadLen
        · exact .inr ⟨(others some).1, .inr (.inl (others some).2)⟩
        · exact .inl (.inl (by bv_omega))
      · have whole := untouched.trans kept
        have described : DescribesInside packet tcb.rcvNxt tcb.rcvWnd result.call ↔ _ :=
          describesInside_whole whole.untrimmed whole.whole
        constructor
        · exact fun stays => .inl (described.mp (stays.describes accepted))
        · intro inside
          refine ⟨⟨tcb.rcvNxt, ?_, .inl still⟩, fun _ => described.mpr ?_⟩
          · rw [BitVec.sub_self]
            exact Nat.zero_le _
          · exact inside.resolve_right fun both => Bool.noConfusion (loses.symm.trans both.1)
  | ok next =>
      rw [applied] at outcome
      rw [staysInside_receiveStages platform expected (untouched.trans outcome.kept) answers]
      by_cases some : 0 < packet.payloadLen
      · obtain ⟨keeps, sent, acked⟩ := outcome.whole some
        rw [sent, acked]
        tauto
      · have empty : packet.payloadLen = 0 := by bv_omega
        exact iff_of_true (.inr (.inl (.inl empty))) (.inl (.inl empty))

theorem oversteps_eq_false (platform : Platform)
    (synchronized : tcb.phase.guardsSyn = true) (passed : passes packet tcb = true)
    (answers : packet.flagged Flag.ack = true) :
    oversteps platform packet tcb = false ↔ WholeInside packet tcb.rcvNxt tcb.rcvWnd ∨
        losesBuffer platform packet tcb (afterOptions packet packet.tokens tcb).txUnackedRing =
            false ∧
          (packet.flagged Flag.rst = true ∨ acksUnsent packet tcb = true ∨
            exposes packet tcb (ackedPhase packet tcb) = false) := by
  have exposed : exposes packet tcb (ackedPhase packet tcb) = true ↔ _ :=
    exposes_ackedPhase synchronized
  have fitting : WholeInside packet tcb.rcvNxt tcb.rcvWnd ↔
      packet.payloadLen = 0 ∨ fitsWindow packet tcb = true := by
    rw [fitsWindow, decide_eq_true_iff]
    rfl
  unfold oversteps
  rw [decide_eq_false_iff_not, passed, answers, ← exposed, fitting]
  generalize exposes packet tcb (ackedPhase packet tcb) = exposing
  generalize losesBuffer platform packet tcb _ = loses
  generalize acksUnsent packet tcb = unsent
  generalize fitsWindow packet tcb = fits
  generalize packet.flagged Flag.rst = rst
  cases fits <;> cases loses <;> cases rst <;> cases unsent <;> cases exposing <;> simp

end

/-- `process_inbound` never accepts beyond the receive window if and only if it does not hand on
a segment as a whole that does not fit. -/
theorem respectsWindow_iff (platform : Platform) {packet : Packet Mbuf} {tcb : Tcb Mbuf}
    (mbufAbsorbed : Option Bool) (synchronized : tcb.phase.synchronized = true)
    (noSyn : packet.flagged Flag.syn = false) :
    RespectsWindow platform packet tcb mbufAbsorbed ↔ oversteps platform packet tcb = false := by
  unfold RespectsWindow
  by_cases passed : passes packet tcb = true
  · obtain ⟨after, admitted, ring, outcome⟩ :=
      processInbound_of_passes platform 0 mbufAbsorbed noSyn passed
    obtain ⟨unmoved, phase, loses, unsent, acked⟩ := admitted_fields platform admitted ring
    have valid := (of_decide_eq_true passed).1
    rw [outcome]
    by_cases answers : packet.flagged Flag.ack = true
    · rw [staysInside_ackStages platform ⟨noSyn, synchronized, valid⟩ ⟨rfl, rfl, unmoved⟩ phase
        answers, loses, unsent, acked]
      exact (oversteps_eq_false platform synchronized passed answers).symm
    · have unanswered : packet.flagged Flag.ack = false := Bool.eq_false_iff.mpr answers
      refine iff_of_true ?_ (decide_eq_false fun steps => answers steps.2.1)
      unfold ackStages
      rw [runStages]
      unfold processAck
      rw [if_neg answers]
      refine staysInside_unanswered platform noSyn unmoved ?_ unanswered
      rw [phase]
      revert synchronized
      cases tcb.phase <;> decide
  · have stopped := stopped_of_not_passes platform 0 mbufAbsorbed noSyn
      (Bool.eq_false_iff.mpr passed)
    refine iff_of_true (staysInside_of_hidden ?_ stopped.hidden)
      (decide_eq_false fun steps => passed steps.1)
    obtain ⟨base, either, only⟩ := stopped.touched.only
    rw [only]
    rcases either with rfl | rfl
    · rfl
    · rw [afterEcho_only]

/-- A segment that starts at 500. -/
def segmentAt500 (payloadLen : BitVec 32) : Packet Unit where
  tcpSeq := 500
  tcpAck := 7
  tcpWindow := 1000
  tcpFlags := Flag.ack
  options := []
  ipTtl := 64
  ipTos := 0
  payloadLen := payloadLen
  payloadOffset := 54
  mbuf := none

/-- An established block that expects 500 and has room for 100 bytes. -/
def smallWindow : Tcb Unit :=
  { sndUna := 7, sndNxt := 7, rcvNxt := 500, sndWnd := 1000, rcvWnd := 100, cwnd := 14600,
    ssthresh := 65535, phase := .established }

theorem respectsWindow_iff_full : RespectsWindow {} (segmentAt500 100) smallWindow none :=
  (respectsWindow_iff {} none (by decide) (by decide)).mpr (by decide)

/-- Two hundred bytes are accepted by a window of one hundred. -/
theorem not_respectsWindow_double :
    smallWindow.phase.synchronized = true ∧ (segmentAt500 200).flagged Flag.syn = false ∧
      (processInbound {} (segmentAt500 200) smallWindow 0 none).accepted = true ∧
      (processInbound {} (segmentAt500 200) smallWindow 0 none).call.payloadLen = 200 ∧
      (processInbound {} (segmentAt500 200) smallWindow 0 none).call.tcb.rcvNxt = 700 ∧
      ¬ RespectsWindow {} (segmentAt500 200) smallWindow none := by
  have accepted : (processInbound {} (segmentAt500 200) smallWindow 0 none).accepted = true := by
    decide
  refine ⟨by decide, by decide, accepted, by decide, by decide, fun respects => ?_⟩
  have described := (describesInside_whole (by decide) (by decide)).mp
    (respects.describes accepted)
  unfold WholeInside at described
  revert described
  decide

end SlabFlux.Net.Tcp
