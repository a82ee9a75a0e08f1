import SlabFlux.Net.Tcp.Footprint
import SlabFlux.Net.Tcp.Options

/-!
# What ACK processing finds

The stages of `process_inbound` up to the options, for a segment without SYN: a segment that
is outside the window, has another hop count or is rejected by PAWS is not handed on, and the
block that ACK processing finds for any other differs from the block before the call in a few
fields only.
-/

namespace SlabFlux.Net.Tcp

open Lib

variable {Mbuf : Type}

/-! ## Hop count and ECN -/

theorem afterEcho_only (packet : Packet Mbuf) (tcb : Tcb Mbuf) :
    afterEcho packet tcb = { tcb with
      cwnd := (afterEcho packet tcb).cwnd, ssthresh := (afterEcho packet tcb).ssthresh } := by
  unfold afterEcho
  split <;> rfl

/-- Explicit congestion notification, as far as it concerns the connection. -/
theorem reactToEcn_eq (packet : Packet Mbuf) (call : Call Mbuf) :
    ∃ temporal pending, reactToEcn packet call = .ok { call with
      tcb := { afterEcho packet call.tcb with
        temporalFlags := temporal, flagsPending := pending } } := by
  have echoed : ∃ temporal pending, echoCongestion packet call.tcb =
      { call.tcb with temporalFlags := temporal, flagsPending := pending } := by
    unfold echoCongestion
    split <;> exact ⟨_, _, rfl⟩
  unfold reactToEcn
  by_cases permitted : call.tcb.ecnPermitted = 0
  · have uncut : ¬ echoCuts packet call.tcb = true := fun cuts =>
      (of_decide_eq_true cuts).1 permitted
    rw [if_pos permitted]
    unfold afterEcho
    rw [if_neg uncut]
    exact ⟨_, _, rfl⟩
  · rw [if_neg permitted]
    dsimp only [Call.on]
    obtain ⟨temporal, pending, echoedEq⟩ := echoed
    have obeyed : ∃ temporal pending, obeyEcho packet (echoCongestion packet call.tcb) =
        { afterEcho packet call.tcb with
          temporalFlags := temporal, flagsPending := pending } := by
      rw [echoedEq]
      unfold obeyEcho afterEcho
      by_cases cuts : packet.flagged Flag.ece = true ∧ call.tcb.ssthresh < call.tcb.cwnd
      · have cut : echoCuts packet call.tcb = true := decide_eq_true ⟨permitted, cuts⟩
        rw [if_pos cuts, if_pos cut]
        exact ⟨_, _, rfl⟩
      · have uncut : ¬ echoCuts packet call.tcb = true := fun cut =>
          cuts (of_decide_eq_true cut).2
        rw [if_neg cuts, if_neg uncut]
        exact ⟨_, _, rfl⟩
    obtain ⟨temporal', pending', obeyedEq⟩ := obeyed
    rw [obeyedEq]
    unfold stopEcho
    split <;> exact ⟨_, _, rfl⟩

/-- The block after the hop count and ECN. -/
def screened (packet : Packet Mbuf) (tcb : Tcb Mbuf) (ttl temporal pending : BitVec 8) : Tcb Mbuf :=
  { afterEcho packet tcb with
    expectedTtl := ttl, temporalFlags := temporal, flagsPending := pending }

section Screened

variable {packet : Packet Mbuf} {tcb : Tcb Mbuf} {ttl temporal pending : BitVec 8}

theorem sameOptions_screened : SameOptions tcb (screened packet tcb ttl temporal pending) := by
  rw [screened, afterEcho_only packet tcb]
  exact ⟨rfl, rfl, rfl, rfl, rfl, rfl⟩

theorem txUnackedRing_screened :
    (screened packet tcb ttl temporal pending).txUnackedRing = tcb.txUnackedRing := by
  rw [screened, afterEcho_only packet tcb]

end Screened

/-- The segment is in the window and its hop count is credible. -/
theorem processInbound_screened (platform : Platform) {packet : Packet Mbuf} {tcb : Tcb Mbuf}
    (trimOffset : BitVec 32) (mbufAbsorbed : Option Bool) (valid : seqValid tcb packet = true)
    (credible : tcb.expectedTtl = 0 ∨ ttlPlausible tcb packet = true) :
    ∃ ttl temporal pending, processInbound platform packet tcb trimOffset mbufAbsorbed =
        runStages (guardSyn platform packet :: parseOptions platform packet ::
          ackStages platform packet)
          ⟨screened packet tcb ttl temporal pending, packet.payloadLen, trimOffset,
            mbufAbsorbed⟩ := by
  let start : Call Mbuf := ⟨tcb, packet.payloadLen, trimOffset, mbufAbsorbed⟩
  have learned : ∃ ttl,
      checkTtl packet start = .ok { start with tcb := { tcb with expectedTtl := ttl } } := by
    unfold checkTtl
    by_cases fresh : tcb.expectedTtl = 0
    · rw [if_pos fresh]
      exact ⟨_, rfl⟩
    · rw [if_neg fresh, if_pos (credible.resolve_left fresh)]
      exact ⟨_, rfl⟩
  obtain ⟨ttl, ttlEq⟩ := learned
  obtain ⟨temporal, pending, ecnEq⟩ :=
    reactToEcn_eq packet { start with tcb := { tcb with expectedTtl := ttl } }
  have echoEq : afterEcho packet { tcb with expectedTtl := ttl } =
      { afterEcho packet tcb with expectedTtl := ttl } := by
    have same : echoCuts packet { tcb with expectedTtl := ttl } = echoCuts packet tcb := rfl
    unfold afterEcho
    simp only [same]
    split <;> rfl
  have ecnEq : reactToEcn packet { start with tcb := { tcb with expectedTtl := ttl } } =
      .ok { start with tcb := screened packet tcb ttl temporal pending } := by
    rw [ecnEq, echoEq]
    rfl
  refine ⟨ttl, temporal, pending, ?_⟩
  unfold processInbound stages
  rw [runStages]
  unfold checkWindow
  rw [if_pos valid]
  dsimp only
  rw [runStages, ttlEq]
  dsimp only
  rw [runStages, ecnEq]
  rfl

/-! ## Options -/

/-- The ring after the options depends on little of the block. -/
theorem txUnackedRing_afterOptions (packet : Packet Mbuf) (tokens : List OptionToken)
    {tcb after : Tcb Mbuf} (same : SameOptions tcb after)
    (ring : after.txUnackedRing = tcb.txUnackedRing) :
    (afterOptions packet tokens after).txUnackedRing =
      (afterOptions packet tokens tcb).txUnackedRing := by
  induction tokens generalizing tcb after with
  | nil => exact ring
  | cons token rest ih =>
      rw [afterOptions, afterOptions, same.sackPermitted, same.tsPermitted]
      have marked : (sackOption token after).txUnackedRing =
          (sackOption token tcb).txUnackedRing := by
        have applies : applySackBlock after = applySackBlock tcb := by
          funext ring block
          unfold applySackBlock sackPlausible
          rw [same.sndUna, same.sndNxt]
        unfold sackOption
        rw [ring, applies]
        cases tcb.txUnackedRing with
        | none => exact ring
        | some ring => rfl
      have kept : SameOptions (sackOption token tcb) (sackOption token after) := by
        rw [sackOption_only token tcb, sackOption_only token after]
        exact ⟨same.rcvNxt, same.sndUna, same.sndNxt, same.tsRecent, same.sackPermitted,
          same.tsPermitted⟩
      have recorded : (recordTimestamp packet (token.word 0) after).txUnackedRing =
          (recordTimestamp packet (token.word 0) tcb).txUnackedRing := by
        rw [txUnackedRing_recordTimestamp, txUnackedRing_recordTimestamp, ring]
      split_ifs
      · exact ring
      · exact ih kept marked
      · exact ih (same.recordTimestamp packet (token.word 0)) recorded
      · exact ih same ring

/-! ## Segments that are handed on -/

/-- The segment is in the window, its hop count is credible, and PAWS lets it pass. -/
def passes (packet : Packet Mbuf) (tcb : Tcb Mbuf) : Bool :=
  seqValid tcb packet ∧ (tcb.expectedTtl = 0 ∨ ttlPlausible tcb packet) ∧
    pawsStops packet packet.tokens tcb = false

/-- The block that ACK processing finds. -/
structure Admitted (packet : Packet Mbuf) (tcb after : Tcb Mbuf) : Prop where
  only : after = { afterEcho packet tcb with
      expectedTtl := after.expectedTtl
      temporalFlags := after.temporalFlags
      flagsPending := after.flagsPending
      tsRecent := after.tsRecent
      txUnackedRing := after.txUnackedRing }
  remarked : RingRemarked tcb.txUnackedRing after.txUnackedRing

/-- Nothing has changed but these fields, and the windows by an echo. -/
structure Touched (packet : Packet Mbuf) (tcb after : Tcb Mbuf) : Prop where
  only : ∃ base, (base = tcb ∨ base = afterEcho packet tcb) ∧ after = { base with
      expectedTtl := after.expectedTtl
      temporalFlags := after.temporalFlags
      flagsPending := after.flagsPending
      challengeAckCnt := after.challengeAckCnt
      lastChallengeTsc := after.lastChallengeTsc
      tsRecent := after.tsRecent
      txUnackedRing := after.txUnackedRing }
  remarked : RingRemarked tcb.txUnackedRing after.txUnackedRing

/-- What is returned for a segment that is not handed on: the payload is hidden, or the
segment is refused. -/
structure Stopped (packet : Packet Mbuf) (tcb : Tcb Mbuf) (result : Return Mbuf) : Prop where
  hidden : result.accepted = true → result.call.payloadLen = 0
  touched : Touched packet tcb result.call.tcb

namespace Touched

variable {packet : Packet Mbuf} {tcb after : Tcb Mbuf}

theorem refl (packet : Packet Mbuf) (tcb : Tcb Mbuf) : Touched packet tcb tcb :=
  ⟨⟨tcb, .inl rfl, rfl⟩, .refl _⟩

theorem challenge (touched : Touched packet tcb after) (now : BitVec 64) :
    Touched packet tcb (after.triggerChallengeAck now) := by
  obtain ⟨⟨base, either, only⟩, remarked⟩ := touched
  have challenged := triggerChallengeAck_only after now
  refine ⟨⟨base, either, ?_⟩, ?_⟩
  · rw [challenged]
    rw [only]
  · rw [challenged]
    exact remarked

end Touched

theorem Admitted.touched {packet : Packet Mbuf} {tcb after : Tcb Mbuf}
    (admitted : Admitted packet tcb after) : Touched packet tcb after := by
  refine ⟨⟨afterEcho packet tcb, .inr rfl, ?_⟩, admitted.remarked⟩
  rw [admitted.only]

section Stops

variable (platform : Platform) {packet : Packet Mbuf} {tcb : Tcb Mbuf} (trimOffset : BitVec 32)
  (mbufAbsorbed : Option Bool)

theorem stopped_outOfWindow (invalid : seqValid tcb packet = false) :
    Stopped packet tcb (processInbound platform packet tcb trimOffset mbufAbsorbed) := by
  unfold processInbound stages
  rw [runStages]
  unfold checkWindow
  rw [if_neg (by rw [invalid]; exact Bool.false_ne_true)]
  unfold rejectOutOfWindow
  have challenged := (Touched.refl packet tcb).challenge platform.now
  by_cases rst : packet.flagged Flag.rst = true
  · rw [if_pos rst]
    exact ⟨fun accepted => absurd accepted Bool.false_ne_true, .refl packet tcb⟩
  · split_ifs
    · exact ⟨fun _ => rfl, ⟨tcb, .inl rfl, rfl⟩, .refl _⟩
    · exact ⟨fun _ => rfl, challenged⟩
    · exact ⟨fun accepted => absurd accepted Bool.false_ne_true, .refl packet tcb⟩
    · exact ⟨fun _ => rfl, challenged⟩

theorem stopped_doubtful (valid : seqValid tcb packet = true)
    (doubtful : ¬(tcb.expectedTtl = 0 ∨ ttlPlausible tcb packet = true)) :
    Stopped packet tcb (processInbound platform packet tcb trimOffset mbufAbsorbed) := by
  obtain ⟨learned, astray⟩ := not_or.mp doubtful
  unfold processInbound stages
  rw [runStages]
  unfold checkWindow
  rw [if_pos valid]
  dsimp only
  rw [runStages]
  unfold checkTtl
  rw [if_neg learned, if_neg astray]
  exact ⟨fun accepted => absurd accepted Bool.false_ne_true, .refl packet tcb⟩

section

variable (noSyn : packet.flagged Flag.syn = false)
include noSyn

/-- The options of a segment without SYN. -/
theorem admitted_processOptions {ttl temporal pending : BitVec 8} :
    ∃ after, Admitted packet tcb after ∧ (pawsStops packet packet.tokens tcb = false →
        after = afterOptions packet packet.tokens (screened packet tcb ttl temporal pending)) ∧
      guardSyn platform packet
          ⟨screened packet tcb ttl temporal pending, packet.payloadLen, trimOffset, mbufAbsorbed⟩ =
        .ok ⟨screened packet tcb ttl temporal pending, packet.payloadLen, trimOffset,
          mbufAbsorbed⟩ ∧
      parseOptions platform packet
          ⟨screened packet tcb ttl temporal pending, packet.payloadLen, trimOffset, mbufAbsorbed⟩ =
        if pawsStops packet packet.tokens tcb then
          Call.challenge ⟨after, packet.payloadLen, trimOffset, mbufAbsorbed⟩ platform
        else .ok ⟨after, packet.payloadLen, trimOffset, mbufAbsorbed⟩ := by
  obtain ⟨after, done, quiet, outcome⟩ := processOptions_done platform noSyn packet.tokens
    ⟨screened packet tcb ttl temporal pending, packet.payloadLen, trimOffset, mbufAbsorbed⟩
  have stopsEq : pawsStops packet packet.tokens (screened packet tcb ttl temporal pending) =
      pawsStops packet packet.tokens tcb := sameOptions_screened.pawsStops_eq packet packet.tokens
  have unguarded : ¬(packet.flagged Flag.syn = true ∧
      (screened packet tcb ttl temporal pending).phase.guardsSyn = true) := by
    rw [noSyn]
    exact fun both => absurd both.1 Bool.false_ne_true
  refine ⟨after, ⟨?_, ?_⟩, fun calm => quiet (stopsEq.trans calm), if_neg unguarded, ?_⟩
  · rw [done.only]
    rfl
  · have remarked := done.remarked
    rwa [txUnackedRing_screened] at remarked
  · rw [parseOptions, outcome]
    simp only [stopsEq]

theorem stopped_of_not_passes (stops : passes packet tcb = false) :
    Stopped packet tcb (processInbound platform packet tcb trimOffset mbufAbsorbed) := by
  have stops := of_decide_eq_false stops
  by_cases valid : seqValid tcb packet = true
  · by_cases credible : tcb.expectedTtl = 0 ∨ ttlPlausible tcb packet = true
    · have rejected : pawsStops packet packet.tokens tcb = true := by
        rw [← Bool.not_eq_false]
        exact fun quiet => stops ⟨valid, credible, quiet⟩
      obtain ⟨ttl, temporal, pending, outcome⟩ :=
        processInbound_screened platform trimOffset mbufAbsorbed valid credible
      obtain ⟨after, admitted, -, guardEq, optionsEq⟩ :=
        admitted_processOptions platform trimOffset mbufAbsorbed noSyn
      rw [outcome, runStages, guardEq]
      dsimp only
      rw [runStages, optionsEq, if_pos rejected]
      exact ⟨fun _ => rfl, admitted.touched.challenge platform.now⟩
    · exact stopped_doubtful platform trimOffset mbufAbsorbed valid credible
  · exact stopped_outOfWindow platform trimOffset mbufAbsorbed (Bool.eq_false_iff.mpr valid)

theorem processInbound_of_passes (passed : passes packet tcb = true) :
    ∃ after, Admitted packet tcb after ∧
      after.txUnackedRing = (afterOptions packet packet.tokens tcb).txUnackedRing ∧
      processInbound platform packet tcb trimOffset mbufAbsorbed =
        runStages (ackStages platform packet)
          ⟨after, packet.payloadLen, trimOffset, mbufAbsorbed⟩ := by
  obtain ⟨valid, credible, quiet⟩ := of_decide_eq_true passed
  obtain ⟨ttl, temporal, pending, outcome⟩ :=
    processInbound_screened platform trimOffset mbufAbsorbed valid credible
  obtain ⟨after, admitted, afterEq, guardEq, optionsEq⟩ :=
    admitted_processOptions platform trimOffset mbufAbsorbed noSyn
  rw [if_neg (by rw [quiet]; exact Bool.false_ne_true)] at optionsEq
  refine ⟨after, admitted, ?ring, ?stages⟩
  case stages =>
    rw [outcome, runStages, guardEq]
    dsimp only
    rw [runStages, optionsEq]
  case ring =>
    rw [afterEq quiet]
    exact txUnackedRing_afterOptions packet packet.tokens sameOptions_screened
      txUnackedRing_screened

end

theorem stopped_of_syn (syn : packet.flagged Flag.syn = true)
    (guards : tcb.phase.guardsSyn = true) (stays : recycles tcb packet = false) :
    Stopped packet tcb (processInbound platform packet tcb trimOffset mbufAbsorbed) := by
  by_cases valid : seqValid tcb packet = true
  · by_cases credible : tcb.expectedTtl = 0 ∨ ttlPlausible tcb packet = true
    · obtain ⟨ttl, temporal, pending, outcome⟩ :=
        processInbound_screened platform trimOffset mbufAbsorbed valid credible
      have phaseEq : (screened packet tcb ttl temporal pending).phase = tcb.phase := by
        rw [screened, afterEcho_only packet tcb]
      have recyclesEq : recycles (screened packet tcb ttl temporal pending) packet =
          recycles tcb packet := by
        rw [screened, afterEcho_only packet tcb]
        rfl
      have touched : Touched packet tcb (screened packet tcb ttl temporal pending) := by
        refine ⟨⟨afterEcho packet tcb, .inr rfl, rfl⟩, ?_⟩
        rw [txUnackedRing_screened]
        exact .refl _
      rw [outcome, runStages]
      unfold guardSyn
      rw [if_pos ⟨syn, by rw [phaseEq]; exact guards⟩,
        if_neg (by rw [recyclesEq, stays]; exact Bool.false_ne_true)]
      exact ⟨fun _ => rfl, touched.challenge platform.now⟩
    · exact stopped_doubtful platform trimOffset mbufAbsorbed valid credible
  · exact stopped_outOfWindow platform trimOffset mbufAbsorbed (Bool.eq_false_iff.mpr valid)

end Stops

/-! ## The stages after the acknowledgement -/

/-- There is no handshake left to complete on a connection that has been open. -/
theorem processAck_of_guardsSyn (platform : Platform) {packet : Packet Mbuf} {call : Call Mbuf}
    (guards : call.tcb.phase.guardsSyn = true) (acks : packet.flagged Flag.ack = true) :
    processAck platform packet call = applyAck platform packet call := by
  unfold processAck completeHandshake
  rw [if_pos acks, if_neg, if_neg]
  · rfl
  · intro accepting
    rw [accepting] at guards
    exact Bool.noConfusion guards
  · intro opening
    rw [opening] at guards
    exact Bool.noConfusion guards

/-- The sending side of a call that is handed on is what ACK processing leaves of it. -/
theorem sendPart_ackStages (platform : Platform) (packet : Packet Mbuf) (call : Call Mbuf)
    {property : SendPart → Prop}
    (ensured : Ensures (processAck platform packet call) (fun next => property next.tcb.sendPart)
      fun result => property result.call.tcb.sendPart) :
    property (runStages (ackStages platform packet) call).call.tcb.sendPart := by
  refine runStages_cons ensured fun next met => ?_
  rw [sendPart_receiveStages]
  exact met

end SlabFlux.Net.Tcp
