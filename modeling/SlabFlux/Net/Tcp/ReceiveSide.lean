import SlabFlux.Net.Tcp.Footprint

/-!
# What `process_inbound` does to the receive side

The stages up to the payload leave `rcv_nxt` and the matrix alone, except that a SYN sets
`rcv_nxt` anew and the end of the handshake empties the matrix.
-/

namespace SlabFlux.Net.Tcp

open SlabFlux.Core Lib Net.OooMatrix

variable {Mbuf : Type}
variable {tcb : Tcb Mbuf} (platform : Platform) (packet : Packet Mbuf) (call : Call Mbuf)

/-- What the payload stage reads, apart from the packet, is the same. -/
structure SameInput (before after : Call Mbuf) : Prop where
  receiveSide : after.tcb.receiveSide = before.tcb.receiveSide
  phase : after.tcb.phase = before.tcb.phase
  payloadLen : after.payloadLen = before.payloadLen
  mbufAbsorbed : after.mbufAbsorbed = before.mbufAbsorbed

namespace SameInput

theorem refl : SameInput call call := ⟨rfl, rfl, rfl, rfl⟩

theorem trans {first second third : Call Mbuf} (left : SameInput first second)
    (right : SameInput second third) : SameInput first third where
  receiveSide := right.receiveSide.trans left.receiveSide
  phase := right.phase.trans left.phase
  payloadLen := right.payloadLen.trans left.payloadLen
  mbufAbsorbed := right.mbufAbsorbed.trans left.mbufAbsorbed

end SameInput

/-- A stage leaves the receive side alone, also when it returns. -/
def LeavesReceiveSide (call : Call Mbuf) (stage : Stage Mbuf) : Prop :=
  Ensures stage (SameInput call)
    fun result => result.call.tcb.receiveSide = call.tcb.receiveSide

namespace LeavesReceiveSide

/-- Leaving the receive side alone twice. -/
theorem trans {first second : Call Mbuf} {stage : Stage Mbuf}
    (same : SameInput first second) (leaves : LeavesReceiveSide second stage) :
    LeavesReceiveSide first stage :=
  leaves.mono (fun _ next => same.trans next)
    fun _ result => result.trans same.receiveSide

end LeavesReceiveSide

theorem receiveSide_triggerChallengeAck (tcb : Tcb Mbuf) (now : BitVec 64) :
    (tcb.triggerChallengeAck now).receiveSide = tcb.receiveSide := by
  rw [triggerChallengeAck_only]
  rfl

/-! ## Before the acknowledgement -/

theorem SameInput.of_screened {tcb : Tcb Mbuf} (same : tcb.screened = call.tcb.screened) :
    SameInput call { call with tcb := tcb } :=
  ⟨congrArg Screened.receiveSide same, congrArg Screened.phase same, rfl, rfl⟩

theorem sameInput_on {call : Call Mbuf} {change : Tcb Mbuf → Tcb Mbuf}
    (receiveSide : (change call.tcb).receiveSide = call.tcb.receiveSide)
    (phase : (change call.tcb).phase = call.tcb.phase) : SameInput call (call.on change) :=
  ⟨receiveSide, phase, rfl, rfl⟩

theorem leavesReceiveSide_processOptions (tokens : List OptionToken) (call : Call Mbuf) :
    LeavesReceiveSide call (processOptions platform packet tokens call) := by
  have synKeeps : ∀ (token : OptionToken) (call : Call Mbuf),
      SameInput call (call.on (synOption token)) := by
    intro token call
    apply sameInput_on <;> unfold synOption <;> split_ifs <;> rfl
  have sackKeeps : ∀ (token : OptionToken) (call : Call Mbuf),
      SameInput call (call.on (sackOption token)) := by
    intro token call
    apply sameInput_on <;> unfold sackOption <;> split <;> rfl
  have timestampKeeps : ∀ (tsval : BitVec 32) (call : Call Mbuf),
      SameInput call (call.on (recordTimestamp packet tsval)) := by
    intro tsval call
    apply sameInput_on <;> unfold recordTimestamp <;> split_ifs <;> rfl
  induction tokens generalizing call with
  | nil => exact .refl call
  | cons token rest ih =>
      rw [processOptions]
      split_ifs
      · exact .trans (synKeeps token call) (ih _)
      · exact .refl call
      · exact .trans (sackKeeps token call) (ih _)
      · exact receiveSide_triggerChallengeAck call.tcb platform.now
      · exact .trans (timestampKeeps _ call) (ih _)
      · exact ih call

/-! ## The acknowledgement -/

theorem ackView_receiveSide :
    AckView (Tcb.receiveSide : Tcb Mbuf → BitVec 32 × Option (Matrix Mbuf)) where
  same _ _ _ _ _ side := side
  refresh _ _ _ := rfl
  resend _ _ _ _ _ := rfl

/-- ACK processing after the handshake leaves the receive side alone. -/
theorem handsOn_applyAck : HandsOn Tcb.receiveSide call (applyAck platform packet call) := by
  have effect {side : BitVec 32 × Option (Matrix Mbuf)}
      (outcome : side = call.tcb.receiveSide ∨ ackProgresses call.tcb packet = true ∧
        side = (slideUnacked (advanceUna packet call.tcb)).receiveSide) :
      side = call.tcb.receiveSide := outcome.elim id fun moved => moved.2
  exact (ackView_receiveSide.effect_applyAck platform packet call).mono
    (fun _ => And.imp_left effect) fun _ => effect

/-! ## The effect of a call -/

namespace Tcb

/-- The matrix the payload stage finds: the end of the handshake empties it. -/
def payloadMatrix (tcb : Tcb Mbuf) : Option (Matrix Mbuf) :=
  if tcb.phase = .synRcvd then tcb.oooMatrix.map (·.reset tcb.rcvNxt) else tcb.oooMatrix

/-- The receive side after the payload stage. -/
def payloadSide (tcb : Tcb Mbuf) (packet : Packet Mbuf) : BitVec 32 × Option (Matrix Mbuf) :=
  if tcb.phase.receives = true ∧ (0 < packet.payloadLen ∨ packet.flagged Flag.fin = true) then
    match placement tcb.rcvNxt packet.payloadSeq packet.payloadLen.toNat with
    | .inOrder => (packet.payloadSeq + packet.payloadLen, tcb.payloadMatrix)
    | .outOfOrder => (tcb.rcvNxt,
        tcb.payloadMatrix.map fun matrix => (matrix.insertMbuf tcb.rcvNxt packet.slot).1)
    | .leap => (tcb.rcvNxt, tcb.payloadMatrix)
    | .tail _ => (packet.payloadSeq + packet.payloadLen, tcb.payloadMatrix)
    | .duplicate => (tcb.rcvNxt, tcb.payloadMatrix)
  else (tcb.rcvNxt, tcb.payloadMatrix)

end Tcb

/-- The receive side after the FIN stage. -/
def finSide (packet : Packet Mbuf) (side : BitVec 32 × Option (Matrix Mbuf)) :
    BitVec 32 × Option (Matrix Mbuf) :=
  if packet.flagged Flag.fin = true ∧ packet.payloadSeq + packet.payloadLen = side.1 then
    (side.1 + 1, side.2)
  else side

/-- What a call can leave on the receive side. -/
inductive ReceiveEffect (packet : Packet Mbuf) (tcb : Tcb Mbuf) :
    BitVec 32 × Option (Matrix Mbuf) → Prop where
  | unchanged : ReceiveEffect packet tcb tcb.receiveSide
  | cleared : ReceiveEffect packet tcb (tcb.rcvNxt, tcb.payloadMatrix)
  | opened (syn : packet.flagged Flag.syn = true) (opening : tcb.phase = .synSent) :
      ReceiveEffect packet tcb (packet.tcpSeq + 1, tcb.oooMatrix)
  | synchronized (matrix : Option (Matrix Mbuf)) :
      ReceiveEffect packet tcb
        (packet.tcpSeq + 1, matrix.map (·.reset (packet.tcpSeq + 1)))
  | segment (noSyn : packet.flagged Flag.syn = false) :
      ReceiveEffect packet tcb (finSide packet (tcb.payloadSide packet))

/-- What a call that returns before the payload stage can leave on the receive side. -/
inductive EarlyEffect (packet : Packet Mbuf) (tcb : Tcb Mbuf) :
    BitVec 32 × Option (Matrix Mbuf) → Prop where
  | unchanged : EarlyEffect packet tcb tcb.receiveSide
  | cleared : EarlyEffect packet tcb (tcb.rcvNxt, tcb.payloadMatrix)
  | opened (syn : packet.flagged Flag.syn = true) (opening : tcb.phase = .synSent) :
      EarlyEffect packet tcb (packet.tcpSeq + 1, tcb.oooMatrix)
  | synchronized (syn : packet.flagged Flag.syn = true) (matrix : Option (Matrix Mbuf))
      (bound : matrix.isSome = tcb.oooMatrix.isSome) :
      EarlyEffect packet tcb (packet.tcpSeq + 1, matrix.map (·.reset (packet.tcpSeq + 1)))

theorem EarlyEffect.effect {packet : Packet Mbuf} {side : BitVec 32 × Option (Matrix Mbuf)}
    (early : EarlyEffect packet tcb side) :
    ReceiveEffect packet tcb side := by
  cases early with
  | unchanged => exact .unchanged
  | cleared => exact .cleared
  | opened syn opening => exact .opened syn opening
  | synchronized _ matrix _ => exact .synchronized matrix

/-- The call after ACK processing. -/
structure AfterAck (packet : Packet Mbuf) (tcb : Tcb Mbuf) (call : Call Mbuf) : Prop where
  acked : packet.flagged Flag.ack = true →
    call.tcb.receiveSide = (tcb.rcvNxt, tcb.payloadMatrix)
  unacked : packet.flagged Flag.ack = false →
    call.tcb.receiveSide = tcb.receiveSide ∧ call.tcb.phase = tcb.phase
  receives : call.tcb.phase.receives = tcb.phase.receives
  opening : call.tcb.phase = .synSent → tcb.phase = .synSent
  payloadLen : call.payloadLen = packet.payloadLen
  mbufAbsorbed : call.mbufAbsorbed.isSome = true

theorem AfterAck.effect {packet : Packet Mbuf} {call : Call Mbuf}
    (after : AfterAck packet tcb call) :
    EarlyEffect packet tcb call.tcb.receiveSide := by
  cases acks : packet.flagged Flag.ack with
  | true =>
      rw [after.acked acks]
      exact .cleared
  | false =>
      rw [(after.unacked acks).1]
      exact .unchanged

theorem payloadMatrix_of_ne (other : tcb.phase ≠ .synRcvd) :
    tcb.payloadMatrix = tcb.oooMatrix := if_neg other

theorem isSome_payloadMatrix (tcb : Tcb Mbuf) :
    tcb.payloadMatrix.isSome = tcb.oooMatrix.isSome := by
  unfold Tcb.payloadMatrix
  split_ifs
  · exact Option.isSome_map
  · rfl

theorem afterAck_applyAck {platform : Platform} {packet : Packet Mbuf} {call : Call Mbuf}
    (acks : packet.flagged Flag.ack = true) (after : AfterAck packet tcb call) :
    Ensures (applyAck platform packet call) (AfterAck packet tcb)
      fun result => EarlyEffect packet tcb result.call.tcb.receiveSide := by
  refine (handsOn_applyAck platform packet call).mono (fun next ⟨side, carried⟩ => ?_)
    fun result kept => ?_
  · exact
      { acked := fun _ => side.trans (after.acked acks)
        unacked := fun missing => absurd acks (by rw [missing]; decide)
        receives := carried.receives.trans after.receives
        opening := after.opening ∘ carried.opening
        payloadLen := carried.only ▸ after.payloadLen
        mbufAbsorbed := carried.only ▸ after.mbufAbsorbed }
  · rw [kept]
    exact after.effect

theorem afterAck_processAck {platform : Platform} {packet : Packet Mbuf}
    {start call : Call Mbuf} (length : start.payloadLen = packet.payloadLen)
    (asked : start.mbufAbsorbed.isSome = true) (same : SameInput start call) :
    Ensures (processAck platform packet call) (AfterAck packet start.tcb)
      fun result => EarlyEffect packet start.tcb result.call.tcb.receiveSide := by
  obtain ⟨side, phase, sameLength, sameAbsorbed⟩ := same
  have received : call.tcb.rcvNxt = start.tcb.rcvNxt := congrArg Prod.fst side
  have stored : call.tcb.oooMatrix = start.tcb.oooMatrix := congrArg Prod.snd side
  have carried : start.tcb.phase ≠ .synRcvd → AfterAck packet start.tcb call := fun other =>
    { acked := fun _ => by rw [payloadMatrix_of_ne other]; exact side
      unacked := fun _ => ⟨side, phase⟩
      receives := congrArg Phase.receives phase
      opening := phase ▸ id
      payloadLen := sameLength.trans length
      mbufAbsorbed := sameAbsorbed ▸ asked }
  unfold processAck completeHandshake
  split_ifs with acks opening syn accepting progresses
  · -- The SYN-ACK that answers our SYN returns at once.
    have opened : (completeOpen packet call.tcb).receiveSide =
        (packet.tcpSeq + 1, start.tcb.oooMatrix) := by
      rw [← stored]
      rfl
    change EarlyEffect packet start.tcb (completeOpen packet call.tcb).receiveSide
    rw [opened]
    exact .opened syn (phase.symm.trans opening)
  · exact afterAck_applyAck acks (carried (by rw [← phase, opening]; decide))
  · refine afterAck_applyAck acks
      { acked := fun _ => ?_
        unacked := fun missing => absurd acks (by rw [missing]; decide)
        receives := by rw [← phase, accepting]; rfl
        opening := nofun
        payloadLen := sameLength.trans length
        mbufAbsorbed := sameAbsorbed ▸ asked }
    rw [Tcb.payloadMatrix, if_pos (phase.symm.trans accepting), ← received, ← stored]
    rfl
  · change EarlyEffect packet start.tcb
      (call.tcb.triggerChallengeAck platform.now).receiveSide
    rw [receiveSide_triggerChallengeAck, side]
    exact .unchanged
  · exact afterAck_applyAck acks (carried (phase ▸ accepting))
  · exact
      { acked := fun present => absurd present acks
        unacked := fun _ => ⟨side, phase⟩
        receives := congrArg Phase.receives phase
        opening := phase ▸ id
        payloadLen := sameLength.trans length
        mbufAbsorbed := sameAbsorbed ▸ asked }

/-! ## RST, SYN and the missing ACK -/

theorem afterAck_processRst {platform : Platform} {packet : Packet Mbuf} {call : Call Mbuf}
    (after : AfterAck packet tcb call) :
    Ensures (processRst platform packet call) (AfterAck packet tcb)
      fun result => EarlyEffect packet tcb result.call.tcb.receiveSide := by
  unfold processRst
  split_ifs
  · exact after.effect
  · exact after.effect
  · change EarlyEffect packet tcb (call.tcb.triggerChallengeAck platform.now).receiveSide
    rw [receiveSide_triggerChallengeAck]
    exact after.effect
  · exact after

theorem afterAck_processSyn {packet : Packet Mbuf} {call : Call Mbuf}
    (after : AfterAck packet tcb call) :
    Ensures (processSyn packet call)
      (fun next => packet.flagged Flag.syn = false ∧ AfterAck packet tcb next)
      fun result => EarlyEffect packet tcb result.call.tcb.receiveSide := by
  unfold processSyn
  dsimp only
  split_ifs with syn opening
  · have phase : tcb.phase = .synSent := after.opening opening
    have stored : call.tcb.oooMatrix = tcb.oooMatrix := by
      cases acks : packet.flagged Flag.ack with
      | true =>
          have cleared := congrArg Prod.snd (after.acked acks)
          rwa [payloadMatrix_of_ne (by rw [phase]; decide)] at cleared
      | false => exact congrArg Prod.snd (after.unacked acks).1
    change EarlyEffect packet tcb (packet.tcpSeq + 1, call.tcb.oooMatrix)
    rw [stored]
    exact .opened syn phase
  · refine .synchronized syn call.tcb.oooMatrix ?_
    cases acks : packet.flagged Flag.ack with
    | true =>
        have cleared : call.tcb.oooMatrix = tcb.payloadMatrix :=
          congrArg Prod.snd (after.acked acks)
        rw [cleared, isSome_payloadMatrix]
    | false =>
        have kept : call.tcb.oooMatrix = tcb.oooMatrix :=
          congrArg Prod.snd (after.unacked acks).1
        rw [kept]
  · exact ⟨Bool.eq_false_iff.mpr syn, after⟩

/-- The call the payload stage finds. -/
structure BeforePayload (packet : Packet Mbuf) (tcb : Tcb Mbuf) (call : Call Mbuf) :
    Prop where
  noSyn : packet.flagged Flag.syn = false
  side : call.tcb.receiveSide = (tcb.rcvNxt, tcb.payloadMatrix)
  receives : call.tcb.phase.receives = tcb.phase.receives
  payloadLen : call.payloadLen = packet.payloadLen
  mbufAbsorbed : call.mbufAbsorbed.isSome = true

theorem beforePayload_requireAck {packet : Packet Mbuf} {call : Call Mbuf}
    (noSyn : packet.flagged Flag.syn = false) (after : AfterAck packet tcb call) :
    Ensures (requireAck packet call) (BeforePayload packet tcb)
      fun result => EarlyEffect packet tcb result.call.tcb.receiveSide := by
  unfold requireAck
  split_ifs with refused
  · exact after.effect
  · refine ⟨noSyn, ?_, after.receives, after.payloadLen, after.mbufAbsorbed⟩
    cases acks : packet.flagged Flag.ack with
    | true => exact after.acked acks
    | false =>
        obtain ⟨side, phase⟩ := after.unacked acks
        have other : tcb.phase ≠ .synRcvd := by
          intro rcvd
          exact refused ⟨acks, by rw [phase, rcvd]; rfl⟩
        rw [payloadMatrix_of_ne other]
        exact side

/-! ## Payload and FIN -/

theorem receiveSide_scheduleAck (tcb : Tcb Mbuf) :
    (scheduleAck packet tcb).receiveSide = tcb.receiveSide := by
  unfold scheduleAck
  split_ifs <;> rfl

theorem receiveSide_bufferOutOfOrder {packet : Packet Mbuf} {call : Call Mbuf}
    (before : BeforePayload packet tcb call) :
    (bufferOutOfOrder packet call).tcb.receiveSide =
      (tcb.rcvNxt,
        tcb.payloadMatrix.map fun matrix =>
          (matrix.insertMbuf tcb.rcvNxt packet.slot).1) := by
  have received : call.tcb.rcvNxt = tcb.rcvNxt := congrArg Prod.fst before.side
  have stored : call.tcb.oooMatrix = tcb.payloadMatrix := congrArg Prod.snd before.side
  unfold bufferOutOfOrder
  rw [← stored, ← received]
  cases matrices : call.tcb.oooMatrix with
  | none => exact congrArg (Prod.mk call.tcb.rcvNxt) matrices
  | some matrix =>
      cases buffer : packet.mbuf with
      | none =>
          have refused : matrix.insertMbuf call.tcb.rcvNxt packet.slot = (matrix, false) :=
            if_pos (.inr buffer)
          simp only [Option.map_some, refused]
          exact congrArg (Prod.mk call.tcb.rcvNxt) matrices
      | some mbuf =>
          have slot : packet.slot =
              { seq := packet.payloadSeq
                len := call.payloadLen
                mbuf := some mbuf
                payloadOffset := packet.payloadOffset
                flags := packet.tcpFlags } := by
            rw [Packet.slot, before.payloadLen, buffer]
          rw [slot]
          cases absorbed : call.mbufAbsorbed with
          | none => exact absurd before.mbufAbsorbed (by rw [absorbed]; decide)
          | some _ => rfl

theorem payloadSide_processPayload {packet : Packet Mbuf} {call : Call Mbuf}
    (before : BeforePayload packet tcb call) :
    Ensures (processPayload packet call)
      (fun next => next.tcb.receiveSide = tcb.payloadSide packet)
      fun result => EarlyEffect packet tcb result.call.tcb.receiveSide := by
  have received : call.tcb.rcvNxt = tcb.rcvNxt := congrArg Prod.fst before.side
  have stored : call.tcb.oooMatrix = tcb.payloadMatrix := congrArg Prod.snd before.side
  unfold processPayload Tcb.payloadSide
  rw [before.receives, before.payloadLen, received]
  split_ifs
  · cases place : placement tcb.rcvNxt packet.payloadSeq packet.payloadLen.toNat with
    | inOrder =>
        change (acceptInOrder packet packet.payloadLen call.tcb).receiveSide = _
        rw [acceptInOrder, receiveSide_scheduleAck, ← placement_eq_inOrder place, ← received,
          ← stored]
        rfl
    | outOfOrder => exact receiveSide_bufferOutOfOrder before
    | leap =>
        change EarlyEffect packet tcb call.tcb.receiveSide
        rw [before.side]
        exact .cleared
    | tail overlap =>
        have start := (placement_eq_tail place).1
        have finish : tcb.rcvNxt + (packet.payloadLen - BitVec.ofNat 32 overlap) =
            packet.payloadSeq + packet.payloadLen := by
          bv_omega
        change (acceptTail packet overlap call).tcb.receiveSide = _
        rw [acceptTail, before.payloadLen]
        rw [receiveSide_scheduleAck, Tcb.receiveSide, received, finish, stored]
    | duplicate => exact before.side
  · exact before.side

theorem receiveSide_acceptFin (tcb : Tcb Mbuf) :
    (acceptFin tcb).receiveSide = (tcb.rcvNxt + 1, tcb.oooMatrix) := by
  unfold acceptFin acceptFinPhase
  split_ifs <;> rfl

theorem finSide_processFin :
    Ensures (processFin packet call)
      (fun next => next.tcb.receiveSide = finSide packet call.tcb.receiveSide)
      fun _ => False := by
  unfold processFin
  split_ifs with fin current waiting
  · have side : finSide packet call.tcb.receiveSide =
        (call.tcb.rcvNxt + 1, call.tcb.oooMatrix) := if_pos ⟨fin, current⟩
    exact (receiveSide_acceptFin call.tcb).trans side.symm
  · have side : finSide packet call.tcb.receiveSide = call.tcb.receiveSide :=
      if_neg fun both => current both.2
    exact side.symm
  · have side : finSide packet call.tcb.receiveSide = call.tcb.receiveSide :=
      if_neg fun both => current both.2
    exact side.symm
  · have side : finSide packet call.tcb.receiveSide = call.tcb.receiveSide :=
      if_neg fun both => fin both.1
    exact side.symm

/-! ## The whole call -/

theorem receiveSide_challengeTimeWait :
    Ensures (challengeTimeWait platform packet call)
      (fun next => next.tcb.receiveSide = call.tcb.receiveSide) fun _ => False := by
  unfold challengeTimeWait
  split_ifs
  · exact receiveSide_triggerChallengeAck call.tcb platform.now
  · exact rfl

/-- What `process_inbound` leaves on the receive side, for a caller that asks whether the
buffer was absorbed. -/
theorem receiveEffect_processInbound (platform : Platform) (packet : Packet Mbuf)
    (tcb : Tcb Mbuf) (trimOffset : BitVec 32) (absorbed : Bool) :
    ReceiveEffect packet tcb
      (processInbound platform packet tcb trimOffset (some absorbed)).call.tcb.receiveSide := by
  have early : ∀ {stage : Stage Mbuf} {next : Call Mbuf → Prop},
      Ensures stage next (fun result => EarlyEffect packet tcb result.call.tcb.receiveSide) →
        Ensures stage next fun result => ReceiveEffect packet tcb result.call.tcb.receiveSide :=
    fun ensured => ensured.mono (fun _ held => held) fun _ returned => returned.effect
  have through : ∀ {stage : Stage Mbuf} {next : Call Mbuf → Prop},
      Ensures stage next (fun _ => False) →
        Ensures stage next fun result => ReceiveEffect packet tcb result.call.tcb.receiveSide :=
    fun ensured => ensured.mono (fun _ held => held) fun _ never => never.elim
  refine runStages_screened platform packet _
    (fun result => ReceiveEffect packet tcb result.call.tcb.receiveSide) (fun result same => ?_)
    fun screened same => ?_
  · rw [show result.call.tcb.receiveSide = _ from congrArg Screened.receiveSide same]
    exact .unchanged
  have same := SameInput.of_screened _ same
  have parses := (leavesReceiveSide_processOptions platform packet packet.tokens _).mono
    (fun _ kept => same.trans kept) fun (result : Return Mbuf) kept =>
      show ReceiveEffect packet tcb result.call.tcb.receiveSide by
        rw [kept, same.receiveSide]
        exact .unchanged
  refine runStages_cons parses fun parsed same => ?_
  refine runStages_cons (early (afterAck_processAck rfl rfl same)) fun acked after => ?_
  refine runStages_cons (early (afterAck_processRst after)) fun alive after => ?_
  refine runStages_cons (early (afterAck_processSyn after)) fun unsynced after => ?_
  refine runStages_cons (early (beforePayload_requireAck after.1 after.2))
    fun required before => ?_
  refine runStages_cons (early (payloadSide_processPayload before)) fun received side => ?_
  refine runStages_cons (through (finSide_processFin packet received)) fun finished fin => ?_
  refine runStages_cons (through (receiveSide_challengeTimeWait platform packet finished))
    fun last kept => ?_
  change ReceiveEffect packet tcb last.tcb.receiveSide
  rw [kept, fin, side]
  exact .segment before.noSyn

end SlabFlux.Net.Tcp
