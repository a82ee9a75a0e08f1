import SlabFlux.Net.Tcp.Footprint
import SlabFlux.Net.Tcp.Options
import SlabFlux.Net.Tcp.TransmitRings.Overrun

/-!
# The logs account for the block

The events an operation logs are those that its block shows: the egress conduit grows by
the commits to it, and the cursors of the unacknowledged ring move by the events on it.
-/

namespace SlabFlux.Net.Tcp

open SlabFlux.Core Lib Tcb Lib.Reservation

variable {Mbuf : Type} {egress : List Frame} {ring : UnackedRing} (platform : Platform)

/-- How far the transmit rings of a block are filled. -/
structure Ledger where
  egress : Option Nat
  unacked : Option Cursors

def Tcb.ledger (tcb : Tcb Mbuf) : Ledger where
  egress := tcb.txEgressConduit.map List.length
  unacked := tcb.txUnackedRing.map cursorsOf

namespace Ledger

/-- The ledger after the events of a log. -/
def settle (ledger : Ledger) (log : List RingEvent) : Ledger where
  egress := ledger.egress.map (· + (onRing .egress log).count .commit)
  unacked := ledger.unacked.map (replay (onRing .unacked log))

theorem settle_nil (ledger : Ledger) : ledger.settle [] = ledger := by
  cases ledger with
  | mk egress unacked => cases egress <;> cases unacked <;> rfl

theorem settle_append (ledger : Ledger) (log later : List RingEvent) :
    ledger.settle (log ++ later) = (ledger.settle log).settle later := by
  cases ledger with
  | mk egress unacked =>
      unfold settle
      rw [mk.injEq, onRing_append, onRing_append, List.count_append, Option.map_map, Option.map_map]
      constructor
      · congr 1
        funext count
        exact (Nat.add_assoc ..).symm
      · congr 1
        funext cursors
        exact replay_append _ _ cursors

/-- A write that is not committed does not show. -/
theorem settle_write (ledger : Ledger) (ring : TransmitRing) (log : List RingEvent) :
    ledger.settle (⟨ring, .write⟩ :: log) = ledger.settle log := by
  cases ring with
  | egress => simp [settle]
  | unacked => rfl

theorem settle_retransmitLog (ledger : Ledger) : ledger.settle (retransmitLog platform) =
    if platform.retains then ledger.settle [⟨.egress, .commit⟩] else ledger := by
  rw [retransmitLog, settle_write]
  split_ifs
  · rfl
  · exact settle_nil ledger

end Ledger

theorem cursorsOf_of_remarked {ring after : UnackedRing} (remarked : Remarked ring after) :
    cursorsOf after = cursorsOf ring := by
  rw [cursorsOf, remarked.ingress, remarked.egress]
  rfl

theorem cursorsOf_refresh (ring : UnackedRing) : cursorsOf ring.refresh = cursorsOf ring :=
  cursorsOf_of_remarked (remarked_refresh ring)

theorem ledger_withRing {tcb : Tcb Mbuf} {ring after : UnackedRing}
    (bound : tcb.txUnackedRing = some ring) (same : cursorsOf after = cursorsOf ring) :
    { tcb with txUnackedRing := some after }.ledger = tcb.ledger := by
  simp only [ledger, bound, Option.map_some, same]

theorem transmitView_ledger : TransmitView (ledger : Tcb Mbuf → Ledger) where
  same tcb after _ _ egress unacked := by
    simp only [ledger, egress, unacked]
  sack token tcb := by
    unfold sackOption
    split
    next => rfl
    next ring bound =>
      exact ledger_withRing bound
        (cursorsOf_of_remarked (.foldl (remarked_applySackBlock tcb) token.sackBlocks ring))

/-! ## Acknowledgements -/

variable (packet : Packet Mbuf) (call : Call Mbuf) {stage : Stage Mbuf}

/-- The stage leaves the ledger settled by the log, also when it returns. -/
def Settles (log : List RingEvent) (stage : Stage Mbuf) : Prop :=
  Ensures stage (fun next => next.tcb.ledger = call.tcb.ledger.settle log)
    fun result => result.call.tcb.ledger = call.tcb.ledger.settle log

theorem Settles.of_leaves {call : Call Mbuf} (leaves : Leaves ledger call stage) :
    Settles call [] stage := by
  unfold Settles
  rw [Ledger.settle_nil]
  exact leaves

theorem Settles.trans {first second : Call Mbuf} {log later : List RingEvent}
    (same : second.tcb.ledger = first.tcb.ledger.settle log)
    (settles : Settles second later stage) :
    Settles first (log ++ later) stage := by
  unfold Settles at settles ⊢
  rw [Ledger.settle_append, ← same]
  exact settles

theorem Settles.of_same {first second : Call Mbuf} {log : List RingEvent}
    (same : second.tcb.ledger = first.tcb.ledger) (settles : Settles second log stage) :
    Settles first log stage := by
  unfold Settles at settles ⊢
  rw [← same]
  exact settles

/-- A frame is put on the wire. -/
theorem ledger_egress {tcb after : Tcb Mbuf} (wired : tcb.txEgressConduit = some egress)
    (frame : Frame) (sent : after.txEgressConduit = some (egress ++ [frame]))
    (same : after.txUnackedRing.map cursorsOf = tcb.txUnackedRing.map cursorsOf) :
    after.ledger = tcb.ledger.settle [⟨.egress, .commit⟩] := by
  simp only [ledger, Ledger.settle, wired, sent, same, Option.map_some, List.length_append]
  cases tcb.txUnackedRing <;> rfl

theorem settles_retransmit (offset : Nat) {call : Call Mbuf}
    (bound : call.tcb.txUnackedRing = some ring) (wired : call.tcb.txEgressConduit = some egress) :
    Settles call (retransmitLog platform)
      (retransmit platform ring.refresh egress offset call) := by
  let sent : Tcb Mbuf := { call.tcb with
    txUnackedRing := some ring.refresh
    highestRtxSeq := (ring.refresh.peekSlot offset).frame.seqEnd }
  have refreshed : sent.ledger = call.tcb.ledger :=
    ledger_withRing bound (cursorsOf_refresh ring)
  unfold Settles retransmit
  rw [Ledger.settle_retransmitLog, ← refreshed]
  split_ifs
  · exact ledger_egress (wired : sent.txEgressConduit = some egress) _ rfl rfl
  · exact rfl

theorem settles_fastRetransmit :
    Settles call (if fastRetransmits (enterRecovery call.tcb) then retransmitLog platform else [])
      (fastRetransmit platform call) := by
  have entered : (call.on enterRecovery).tcb.ledger = call.tcb.ledger := by
    simp only [Call.on, ledger, enterRecovery]
  refine .of_same entered ?_
  unfold fastRetransmit
  change Settles (call.on enterRecovery)
    (if fastRetransmits (call.on enterRecovery).tcb then retransmitLog platform else []) _
  dsimp only
  generalize call.on enterRecovery = recovering
  unfold fastRetransmits
  cases bound : recovering.tcb.txUnackedRing with
  | none => exact .of_leaves rfl
  | some ring =>
      cases wired : recovering.tcb.txEgressConduit with
      | none => exact .of_leaves rfl
      | some egress =>
          dsimp only
          by_cases waiting : 0 < ring.refresh.available
          · rw [if_pos waiting, if_pos (decide_eq_true waiting)]
            exact settles_retransmit platform 0 bound wired
          · rw [if_neg waiting, if_neg (by simpa using waiting)]
            exact .of_leaves (ledger_withRing bound (cursorsOf_refresh ring))

theorem settles_partialRetransmit :
    Settles call (if partialRetransmits packet call.tcb then retransmitLog platform else [])
      (partialRetransmit platform packet call) := by
  unfold partialRetransmit partialRetransmits
  by_cases yields : call.tcb.highestRtxSeq ≠ 0 ∧ (packet.tcpAck - call.tcb.highestRtxSeq).toInt < 0
  · rw [if_pos yields, if_pos yields]
    exact .of_leaves rfl
  · rw [if_neg yields, if_neg yields]
    cases bound : call.tcb.txUnackedRing with
    | none => exact .of_leaves rfl
    | some ring =>
        cases wired : call.tcb.txEgressConduit with
        | none => exact .of_leaves rfl
        | some egress =>
            dsimp only
            split
            next due =>
              obtain ⟨offset, found⟩ := Option.isSome_iff_exists.mp due
              rw [found]
              exact settles_retransmit platform offset bound wired
            next none =>
              rw [Option.not_isSome_iff_eq_none.mp none]
              exact .of_leaves (ledger_withRing bound (cursorsOf_refresh ring))

/-- One turn of a loop that releases segments. -/
theorem cursorsOf_release (ring : UnackedRing) :
    cursorsOf (ring.refresh.modifyPeekSlot 0 OutboundSegment.release).consume =
      (cursorsOf ring).after .consume := by
  rw [← cursorsOf_refresh ring]
  rfl

theorem cursorsOf_consumeAcked (sndUna : BitVec 32) (fuel : Nat) (ring : UnackedRing) :
    cursorsOf (consumeAcked sndUna fuel ring) =
      replay (List.replicate (countAcked sndUna fuel ring) .consume) (cursorsOf ring) := by
  induction fuel generalizing ring with
  | zero => exact cursorsOf_refresh ring
  | succ fuel ih =>
      rw [consumeAcked, countAcked]
      split_ifs
      · exact cursorsOf_refresh ring
      · rw [ih, cursorsOf_release]
        rfl
      · exact cursorsOf_refresh ring

theorem settle_consumeLog (ledger : Ledger) (count : Nat) :
    ledger.settle (consumeLog count) =
      { ledger with unacked := ledger.unacked.map (replay (List.replicate count .consume)) } := by
  unfold Ledger.settle
  rw [onRing_consumeLog_egress, onRing_consumeLog_unacked]
  cases ledger.egress <;> rfl

theorem ledger_acknowledged (wasFastRecovery : Bool) (tcb : Tcb Mbuf) :
    (acknowledged packet wasFastRecovery tcb).ledger =
      tcb.ledger.settle (consumeLog (match tcb.txUnackedRing with
        | none => 0
        | some ring => countAcked packet.tcpAck ring.occupancy ring)) := by
  have torn (tcb : Tcb Mbuf) : (teardown tcb).ledger = tcb.ledger := by
    unfold teardown
    split_ifs <;> rfl
  have left : (leaveRecovery packet wasFastRecovery tcb).txUnackedRing = tcb.txUnackedRing ∧
      (leaveRecovery packet wasFastRecovery tcb).txEgressConduit = tcb.txEgressConduit := by
    unfold leaveRecovery
    split_ifs <;> exact ⟨rfl, rfl⟩
  unfold acknowledged
  rw [torn, settle_consumeLog]
  unfold slideUnacked advanceUna
  simp only [ledger, left.1, left.2, Option.map_map]
  cases tcb.txUnackedRing with
  | none => rfl
  | some ring =>
      simp only [Option.map_some, Function.comp_apply, cursorsOf_consumeAcked]

theorem settles_progressAck (wasFastRecovery : Bool) (call : Call Mbuf) :
    Settles call
      (consumeLog (match call.tcb.txUnackedRing with
        | none => 0
        | some ring => countAcked packet.tcpAck ring.occupancy ring) ++
        if decide (isPartialAck call.tcb packet wasFastRecovery = true ∧
          partialRetransmits packet (acknowledged packet wasFastRecovery call.tcb) = true)
        then retransmitLog platform else [])
      (progressAck platform packet wasFastRecovery call) := by
  have slid : (call.on (acknowledged packet wasFastRecovery)).tcb.ledger =
      call.tcb.ledger.settle _ := ledger_acknowledged packet wasFastRecovery call.tcb
  have grown (tcb : Tcb Mbuf) : (growCwnd tcb).ledger = tcb.ledger := by
    simp only [growCwnd, ledger]
  refine .trans slid ?_
  refine Ensures.map (?_ : Settles (call.on (acknowledged packet wasFastRecovery)) _ _)
    fun next settled => settled
  by_cases isPartial : isPartialAck call.tcb packet wasFastRecovery = true
  · simp only [isPartial, true_and, if_true, Bool.decide_eq_true]
    exact settles_partialRetransmit platform packet _
  · simp only [isPartial, false_and, decide_false, Bool.false_eq_true, if_false]
    exact .of_leaves (grown _)

theorem settles_applyAck :
    Settles call (inboundLog platform packet (some call.tcb)) (applyAck platform packet call) := by
  let counting := call.on (counted packet)
  have same : counting.tcb.ledger = call.tcb.ledger := rfl
  have unfolded : applyAck platform packet call =
      if countDup call.tcb packet = 3 then fastRetransmit platform counting
      else if 3 < countDup call.tcb packet then .ok (counting.on inflate)
      else plainAck platform packet (3 ≤ call.tcb.dupAcks) (isDup call.tcb packet) counting := rfl
  rw [unfolded, plainAck]
  unfold inboundLog ackConsumes ackRetransmits advances
  by_cases third : countDup call.tcb packet = 3
  · simp only [third, ne_eq, not_true, false_and, decide_false, Bool.false_eq_true, if_false,
      if_true]
    exact .of_same same (settles_fastRetransmit platform counting)
  by_cases later : 3 < countDup call.tcb packet
  · have inflated : (inflate counting.tcb).ledger = counting.tcb.ledger := by
      unfold inflate
      split <;> simp only [ledger]
    simp only [third, later, not_true, false_and, and_false, decide_false, Bool.false_eq_true,
      if_false, if_true]
    exact .of_leaves inflated
  by_cases progresses : ackProgresses counting.tcb packet = true
  · have progresses' : ackProgresses (counted packet call.tcb) packet = true := progresses
    simp only [third, later, progresses, progresses', ne_eq, not_false_iff, true_and, decide_true,
      if_true, if_false]
    exact .of_same same (settles_progressAck platform packet _ counting)
  · have stuck : ¬ ackProgresses (counted packet call.tcb) packet = true := progresses
    simp only [third, later, progresses, stuck, and_false, false_and, decide_false,
      Bool.false_eq_true, if_false]
    refine .of_leaves ?_
    split_ifs
    · exact transmitView_ledger.leaves_challenge platform counting
    · exact rfl
    · exact rfl

/-! ## Whole operations -/

theorem settles_processAck :
    Settles call (inboundLog platform packet (ackBlock platform packet call))
      (processAck platform packet call) := by
  unfold processAck ackBlock
  by_cases acks : packet.flagged Flag.ack = true
  · rw [if_pos acks, if_pos acks]
    have leaves : Leaves ledger call (completeHandshake platform packet call) := by
      unfold completeHandshake
      split_ifs
      · exact rfl
      · exact rfl
      · exact rfl
      · exact transmitView_ledger.leaves_challenge platform call
      · exact rfl
    cases outcome : completeHandshake platform packet call with
    | error result =>
        rw [outcome] at leaves
        exact .of_leaves leaves
    | ok next =>
        rw [outcome] at leaves
        exact .of_same leaves (settles_applyAck platform packet next)
  · rw [if_neg acks, if_neg acks]
    exact .of_leaves rfl

theorem ledger_of_screened {tcb after : Tcb Mbuf} (same : after.screened = tcb.screened) :
    after.ledger = tcb.ledger := by
  have egress : after.txEgressConduit = _ := congrArg Screened.txEgressConduit same
  have unacked : after.txUnackedRing = _ := congrArg Screened.txUnackedRing same
  simp only [ledger, egress, unacked, Tcb.screened]

theorem Leaves.bind {View : Type} {view : Tcb Mbuf → View} {call : Call Mbuf}
    {continuation : Call Mbuf → Stage Mbuf} (first : Leaves view call stage)
    (rest : ∀ next, Leaves view next (continuation next)) :
    Leaves view call (Except.bind stage continuation) :=
  Ensures.bind first fun next kept => Leaves.trans kept (rest next)

theorem leaves_earlyStages :
    Leaves ledger call (earlyStages platform packet call) := by
  have screened {call : Call Mbuf} {stage : Stage Mbuf} (hands : HandsOn Tcb.screened call stage) :
      Leaves ledger call stage :=
    hands.mono (fun _ kept => ledger_of_screened kept.1) fun _ kept => ledger_of_screened kept
  refine (screened (screened_checkWindow platform packet call)).bind fun inWindow => ?_
  refine (screened (screened_checkTtl packet inWindow)).bind fun believed => ?_
  refine (screened (screened_reactToEcn packet believed)).bind fun reacted => ?_
  refine (screened (screened_guardSyn platform packet reacted)).bind fun checked => ?_
  exact transmitView_ledger.leaves_processOptions platform packet packet.tokens checked

/-- `process_inbound` as its stages before the ACK, and the rest. -/
theorem runStages_stages : runStages (stages platform packet) call =
    runStages (earlyStages platform packet :: ackStages platform packet) call := by
  unfold stages earlyStages
  simp only [runStages]
  obtain early | inWindow := checkWindow platform packet call
  · rfl
  dsimp only [Except.bind]
  obtain early | believed := checkTtl packet inWindow
  · rfl
  dsimp only
  obtain early | reacted := reactToEcn packet believed
  · rfl
  dsimp only
  obtain early | checked := guardSyn platform packet reacted
  · rfl
  · rfl

theorem ledger_stages :
    (runStages (stages platform packet) call).call.tcb.ledger = call.tcb.ledger.settle
      (inboundLog platform packet (match earlyStages platform packet call with
        | .ok call => ackBlock platform packet call
        | .error _ => none)) := by
  rw [runStages_stages, runStages]
  have early := leaves_earlyStages platform packet call
  cases outcome : earlyStages platform packet call with
  | error result =>
      rw [outcome] at early
      exact Eq.trans early (Ledger.settle_nil _).symm
  | ok parsed =>
      rw [outcome] at early
      have kept : parsed.tcb.ledger = call.tcb.ledger := early
      rw [← kept]
      refine runStages_cons (settles_processAck platform packet parsed) fun acked same => ?_
      -- the stages after the ACK do not touch the rings
      exact (transmitView_ledger.view_receiveStages platform packet acked).trans same

theorem ledger_trackControl (frame : Frame) (flags : BitVec 8) (tcb : Tcb Mbuf) :
    (tcb.trackControl platform frame flags).ledger = tcb.ledger.settle
      (if has flags (Flag.syn ||| Flag.fin) = true ∧ tcb.txUnackedRing.isSome = true then
        ⟨.unacked, .write⟩ :: if platform.retains then [⟨.unacked, .commit⟩] else []
      else []) := by
  unfold trackControl
  cases tracks : has flags (Flag.syn ||| Flag.fin) with
  | false =>
      exact (Ledger.settle_nil _).symm
  | true =>
      cases bound : tcb.txUnackedRing with
      | none =>
          exact (Ledger.settle_nil _).symm
      | some ring =>
          cases platform.retains with
          | true =>
              simp only [if_true, ledger, Ledger.settle, bound, Option.map_some]
              cases tcb.txEgressConduit <;> rfl
          | false =>
              simp only [Bool.false_eq_true, if_false, pend, ledger, Ledger.settle, bound,
                Option.map_some]
              cases tcb.txEgressConduit <;> rfl

theorem txEgressConduit_trackControl (frame : Frame) (flags : BitVec 8) (tcb : Tcb Mbuf) :
    (tcb.trackControl platform frame flags).txEgressConduit = tcb.txEgressConduit := by
  unfold trackControl
  split
  · split
    · rfl
    · split <;> rfl
  · rfl

theorem ledger_dispatchControlFrames (tcb : Tcb Mbuf) :
    (tcb.dispatchControlFrames platform).ledger = tcb.ledger.settle (tcb.dispatchLog platform) := by
  unfold dispatchControlFrames dispatchLog dispatchDue
  cases wired : tcb.txEgressConduit with
  | none => exact (Ledger.settle_nil _).symm
  | some egress =>
      simp only [Option.isSome_some, true_and, decide_eq_true_eq]
      by_cases active : tcb.flagsPending ≠ 0 ∧ tcb.txMbufPool = true
      · rw [if_pos active, if_pos active, Ledger.settle_write]
        by_cases given : 0 < platform.buffers
        · rw [if_pos given, if_pos given, Ledger.settle_append]
          let prepared := { tcb with
            txEgressConduit := some egress
            flagsPending := tcb.dispatchFlags
            controlPayloadLen := 0 }.prepareOutboundHeader tcb.controlPayloadLen.toNat
              tcb.dispatchFlags
          have kept : (prepared.1.trackControl platform prepared.2
              tcb.dispatchFlags).txEgressConduit = some egress :=
            txEgressConduit_trackControl platform prepared.2 tcb.dispatchFlags prepared.1
          have same : tcb.ledger = prepared.1.ledger := by
            rw [ledger, wired]
            rfl
          have tracked := ledger_trackControl platform prepared.2 tcb.dispatchFlags prepared.1
          have decision : tcb.tracksControl = true ↔
              has tcb.dispatchFlags (Flag.syn ||| Flag.fin) = true ∧
                prepared.1.txUnackedRing.isSome = true := decide_eq_true_iff
          simp only [← decision] at tracked
          rw [same]
          refine Eq.trans (ledger_egress kept prepared.2 ?_ ?_) ?_
          · rfl
          · rfl
          · exact congrArg (Ledger.settle · _) tracked
        · rw [if_neg given, if_neg given, Ledger.settle_nil]
          exact transmitView_ledger.same tcb _ rfl rfl wired.symm rfl
      · rw [if_neg active, if_neg active, Ledger.settle_nil]

theorem ledger_sendChunk (tcb : Tcb Mbuf) (chunk : Bytes) :
    (tcb.sendChunk chunk).ledger = tcb.ledger.settle (chunkLog tcb.txUnackedRing.isSome) := by
  unfold sendChunk chunkLog
  cases bound : tcb.txUnackedRing with
  | none =>
      simp only [ledger, Ledger.settle, bound]
      cases tcb.txEgressConduit <;> simp
  | some ring =>
      simp only [ledger, Ledger.settle, bound]
      cases tcb.txEgressConduit <;> simp [replay, cursorsOf, Cursors.after, SpscRingConduit.commit]

theorem ledger_sendChunks (mss : Nat) (buffers : Nat) (bytes : Bytes) (tcb : Tcb Mbuf) :
    (sendChunks mss buffers bytes tcb).1.ledger =
      tcb.ledger.settle (chunksLog mss tcb.txUnackedRing.isSome buffers bytes) := by
  induction buffers generalizing bytes tcb with
  | zero =>
      unfold sendChunks chunksLog
      split
      · exact (Ledger.settle_nil _).symm
      · rw [Ledger.settle_write, Ledger.settle_nil]
  | succ buffers ih =>
      unfold sendChunks chunksLog
      by_cases empty : bytes = []
      · rw [if_pos empty, if_pos empty]
        exact (Ledger.settle_nil _).symm
      · rw [if_neg empty, if_neg empty, Ledger.settle_append, ← ledger_sendChunk tcb
          (bytes.take mss)]
        have tracked : (tcb.sendChunk (bytes.take mss)).txUnackedRing.isSome =
            tcb.txUnackedRing.isSome := Option.isSome_map
        rw [ih, tracked]

theorem ledger_send (buffer : Bytes) (tcb : Tcb Mbuf) :
    (tcb.send platform buffer).1.ledger = tcb.ledger.settle (tcb.sendLog platform buffer) := by
  rcases send_cases platform buffer tcb with ⟨idle, flags, result, sends, -⟩ | ⟨-, -, sends⟩
  · rw [sends, sendLog, idle]
    cases platform.buffers <;> exact (Ledger.settle_nil _).symm
  · rw [sends]
    exact ledger_sendChunks tcb.effectiveMss platform.buffers _ _

/-! ## Timers -/

variable (now : BitVec 64) (trackerRto : BitVec 32) (tcb : Tcb Mbuf)

/-- A section of `on_tick` leaves the ledger settled by the log, also when it returns. -/
def TickSettles (tcb : Tcb Mbuf) (log : List RingEvent) (outcome : Except (Tcb Mbuf) (Tcb Mbuf)) :
    Prop :=
  Ensures outcome (fun next => next.ledger = tcb.ledger.settle log)
    fun result => result.ledger = tcb.ledger.settle log

theorem TickSettles.of_same {tcb : Tcb Mbuf} {outcome : Except (Tcb Mbuf) (Tcb Mbuf)}
    (same : Ensures outcome (fun next => next.ledger = tcb.ledger)
      fun result => result.ledger = tcb.ledger) : TickSettles tcb [] outcome := by
  unfold TickSettles
  rw [Ledger.settle_nil]
  exact same

theorem cursorsOf_clearSacked (ring : UnackedRing) :
    cursorsOf (clearSacked ring) = cursorsOf ring :=
  List.foldlRecOn (motive := fun after => cursorsOf after = cursorsOf ring) _ _
    (cursorsOf_refresh ring) fun _ kept _ _ => kept

/-- The retransmission after a timeout. -/
theorem settles_retransmitFirst :
    TickSettles tcb (if tcb.awaitsAck then retransmitLog platform else [])
      (tcb.retransmitFirst platform) := by
  unfold retransmitFirst
  rw [awaitsAck]
  cases bound : tcb.txUnackedRing with
  | none => exact .of_same rfl
  | some ring =>
      cases wired : tcb.txEgressConduit with
      | none => exact .of_same rfl
      | some egress =>
          dsimp only
          let cleared : Tcb Mbuf := { tcb with
            txEgressConduit := some egress
            txUnackedRing := some (clearSacked ring).refresh }
          have same : cleared.ledger = tcb.ledger := by
            simp only [cleared, ledger, bound, wired, Option.map_some, cursorsOf_refresh,
              cursorsOf_clearSacked]
          by_cases waiting : 0 < (clearSacked ring).refresh.available
          · rw [if_pos waiting, if_pos (decide_eq_true waiting)]
            unfold TickSettles
            rw [Ledger.settle_retransmitLog, ← same]
            split_ifs
            · exact ledger_egress (rfl : cleared.txEgressConduit = some egress) _ rfl rfl
            · exact rfl
          · rw [if_neg waiting, if_neg (by simpa using waiting)]
            exact .of_same same

theorem settles_tickRetransmission (openPhase : tcb.phase ≠ .closed) :
    TickSettles tcb (if tcb.tickRetransmits now then retransmitLog platform else [])
      (tcb.tickRetransmission platform now trackerRto) := by
  have quiet {outcome : Except (Tcb Mbuf) (Tcb Mbuf)} (untimely : tcb.timesOut now = false)
      (same : Ensures outcome (fun next => next.ledger = tcb.ledger)
        fun result => result.ledger = tcb.ledger) :
      TickSettles tcb (if tcb.tickRetransmits now then retransmitLog platform else []) outcome := by
    rw [tickRetransmits, untimely]
    exact .of_same same
  generalize logged : (if tcb.tickRetransmits now then retransmitLog platform else []) = log
    at quiet ⊢
  unfold tickRetransmission tickFlight
  dsimp only
  split_ifs with flight unarmed expired exhausted
  · exact quiet (decide_eq_false fun held => held.2.2.1 unarmed) rfl
  · exact quiet (decide_eq_false fun held => held.2.2.2.2 exhausted) rfl
  · have timely : tcb.timesOut now = true :=
      decide_eq_true ⟨openPhase, flight, unarmed, expired, exhausted⟩
    have due : tcb.tickRetransmits now = tcb.awaitsAck := by
      rw [tickRetransmits, timely]
      simp
    rw [← logged, due]
    exact settles_retransmitFirst platform (backOff now { tcb with idleStartMs := 0 })
  · exact quiet (decide_eq_false fun held => expired held.2.2.2.1) rfl
  · exact quiet (decide_eq_false fun held => flight held.2.1)
      (transmitView_ledger.leaves_tickIdle now trackerRto tcb)

theorem cursorsOf_releaseAll (fuel : Nat) (ring : UnackedRing) :
    cursorsOf (releaseAll fuel ring) =
      replay (List.replicate (countReleased fuel ring) .consume) (cursorsOf ring) := by
  induction fuel generalizing ring with
  | zero => exact cursorsOf_refresh ring
  | succ fuel ih =>
      rw [releaseAll, countReleased]
      split_ifs
      · exact cursorsOf_refresh ring
      · rw [ih, cursorsOf_release]
        rfl

theorem ledger_tickArp :
    (tcb.tickArp now).ledger = tcb.ledger.settle (consumeLog (tcb.arpConsumes now)) := by
  unfold arpConsumes
  by_cases expires : tcb.temporal TemporalFlag.arpWait = true ∧ tcb.rtoDeadlineTsc ≠ 0 ∧
      tcb.rtoDeadlineTsc ≤ now
  · obtain ⟨waits, armed, expired⟩ := expires
    rw [if_pos ⟨waits, armed, expired⟩, tickArp, if_pos waits, if_neg armed, if_pos expired,
      settle_consumeLog]
    simp only [ledger, Option.map_map]
    cases tcb.txUnackedRing with
    | none => rfl
    | some ring => simp only [Option.map_some, Function.comp_apply, cursorsOf_releaseAll, lower]
  · rw [if_neg expires]
    refine Eq.trans ?_ (Ledger.settle_nil _).symm
    unfold tickArp
    split_ifs with waits unarmed expired
    · simp only [ledger]
    · exact absurd ⟨waits, unarmed, expired⟩ expires
    · rfl
    · rfl

/-- The sections between the retransmission timer and address resolution. -/
theorem settles_tickBeforeArp (openPhase : tcb.phase ≠ .closed) :
    TickSettles tcb (if tcb.tickRetransmits now then retransmitLog platform else [])
      (tcb.tickBeforeArp platform now trackerRto) := by
  refine Ensures.bind (settles_tickRetransmission platform now trackerRto tcb openPhase)
    fun timed settled => ?_
  rw [← settled]
  refine Ensures.bind (transmitView_ledger.leaves_tickPersist now timed) fun persisting kept => ?_
  rw [← kept]
  exact transmitView_ledger.leaves_tickKeepalive now persisting

theorem ledger_onTick :
    (tcb.onTick platform now trackerRto).ledger =
      tcb.ledger.settle (tcb.tickLog platform now trackerRto) := by
  unfold onTick tickLog tickConsumes
  by_cases closed : tcb.phase = .closed
  · have quiet : tcb.tickRetransmits now = false :=
      decide_eq_false fun held => (of_decide_eq_true held.1).1 closed
    rw [if_pos closed, if_pos closed, quiet]
    exact (Ledger.settle_nil _).symm
  · rw [if_neg closed, if_neg closed, Ledger.settle_append]
    have settles := settles_tickBeforeArp platform now trackerRto tcb closed
    have sections : tcb.tickSections platform now trackerRto =
        tcb.tickBeforeArp platform now trackerRto >>= fun tcb => .ok (tcb.tickArp now) := by
      simp only [tickSections, tickBeforeArp, bind_assoc]
    rw [sections]
    cases outcome : tcb.tickBeforeArp platform now trackerRto with
    | error result =>
        rw [outcome] at settles
        exact Eq.trans settles (Ledger.settle_nil _).symm
    | ok next =>
        rw [outcome] at settles
        dsimp only [bind, Except.bind]
        rw [ledger_tickArp]
        exact congrArg (Ledger.settle · _) settles

namespace TransmitOperation

/-- What an operation does to the transmit rings of the block is what it logs. -/
theorem ledger_run (operation : TransmitOperation Mbuf) :
    (operation.run platform tcb).ledger = tcb.ledger.settle (operation.log platform tcb) := by
  cases operation with
  | inbound packet trimOffset mbufAbsorbed =>
      exact ledger_stages platform packet ⟨tcb, packet.payloadLen, trimOffset, mbufAbsorbed⟩
  | dispatch => exact ledger_dispatchControlFrames platform tcb
  | send buffer => exact ledger_send platform buffer tcb
  | tick now trackerRto => exact ledger_onTick platform now trackerRto tcb

/-- The events of operations in a row, each with the platform it meets. -/
def runLog : Tcb Mbuf → List (Platform × TransmitOperation Mbuf) → List RingEvent
  | _, [] => []
  | tcb, (platform, operation) :: calls =>
      operation.log platform tcb ++ runLog (operation.run platform tcb) calls

/-- Along every run, the rings of the block are as the log of the run says. -/
theorem ledger_execute (calls : List (Platform × TransmitOperation Mbuf)) (tcb : Tcb Mbuf) :
    (execute (fun tcb call => call.2.run call.1 tcb) tcb calls).ledger =
      tcb.ledger.settle (runLog tcb calls) := by
  induction calls generalizing tcb with
  | nil => exact (Ledger.settle_nil _).symm
  | cons call calls ih => rw [execute_cons, ih, ledger_run, runLog, Ledger.settle_append]

end TransmitOperation

end SlabFlux.Net.Tcp
