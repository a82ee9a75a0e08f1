import SlabFlux.Net.Tcp.Arrival

/-!
# Duplicate ACKs

The third duplicate ACK in a row halves the slow start threshold.  The counter has eight bits
and is compared with three, whether or not anything is outstanding, and an echo of congestion
cuts the threshold as often as it comes while the window is inflated.
-/

namespace SlabFlux.Net.Tcp

open Lib

variable {Mbuf : Type} {tcb : Tcb Mbuf}

/-! ## One duplicate -/

/-- A packet with the other arguments of `process_inbound`. -/
structure Arrival (Mbuf : Type) where
  platform : Platform
  packet : Packet Mbuf
  trimOffset : BitVec 32
  mbufAbsorbed : Option Bool

/-- The block after an arrival. -/
def Tcb.receive (tcb : Tcb Mbuf) (arrival : Arrival Mbuf) : Tcb Mbuf :=
  (processInbound arrival.platform arrival.packet tcb arrival.trimOffset
    arrival.mbufAbsorbed).call.tcb

/-- A duplicate ACK. -/
def isDuplicateAck (tcb : Tcb Mbuf) (arrival : Arrival Mbuf) : Bool :=
  arrival.packet.flagged Flag.ack ∧ isDup tcb arrival.packet

/-- The sending side after a duplicate ACK that is only counted. -/
structure Counted (before after : SendPart) : Prop where
  sndUna : after.sndUna = before.sndUna
  sndNxt : after.sndNxt = before.sndNxt
  sndWnd : after.sndWnd = before.sndWnd
  ssthresh : after.ssthresh = before.ssthresh
  recover : after.recover = before.recover
  dupAcks : after.dupAcks = before.dupAcks + 1

/-- The sending side after the entry to fast recovery. -/
structure RecoveryEntered (before after : SendPart) : Prop where
  sndUna : after.sndUna = before.sndUna
  sndNxt : after.sndNxt = before.sndNxt
  sndWnd : after.sndWnd = before.sndWnd
  recover : after.recover = before.sndNxt
  dupAcks : after.dupAcks = before.dupAcks + 1

/-- What a duplicate ACK can do to the sending side. -/
inductive DuplicateEffect (before after : SendPart) : Prop where
  | unchanged (same : after = before)
  | counted (other : before.dupAcks + 1 ≠ 3) (counted : Counted before after)
  | entered (third : before.dupAcks + 1 = 3) (entered : RecoveryEntered before after)

theorem noSyn_of_isDup {packet : Packet Mbuf} (dup : isDup tcb packet = true) :
    packet.flagged Flag.syn = false := by
  have unflagged := of_decide_eq_false (of_decide_eq_true dup).2.2.2
  have within : (Flag.syn ||| Flag.fin) &&& Flag.syn = Flag.syn := by decide
  refine decide_eq_false ?_
  rw [not_not] at unflagged ⊢
  rw [← within, ← BitVec.and_assoc, unflagged]
  exact BitVec.zero_and

section Duplicate

variable (platform : Platform) {packet : Packet Mbuf} {call : Call Mbuf}

theorem ackProgresses_of_isDup (same : packet.tcpAck = tcb.sndUna) :
    ackProgresses tcb packet = false := by
  refine decide_eq_false ?_
  rintro ⟨positive, -⟩
  rw [same, BitVec.sub_self] at positive
  exact absurd positive (by decide)

/-- The counted block enters fast recovery. -/
theorem recoveryEntered_fastRetransmit {before : SendPart} (call : Call Mbuf)
    (counted : Counted before call.tcb.sendPart) :
    Ensures (fastRetransmit platform call)
      (fun next => RecoveryEntered before next.tcb.sendPart)
      fun result => RecoveryEntered before result.call.tcb.sendPart := by
  obtain ⟨una, nxt, window, -, -, count⟩ := counted
  have entered : RecoveryEntered before (call.on enterRecovery).tcb.sendPart := by
    simp only [Call.on, enterRecovery, Tcb.sendPart]
    exact ⟨una, nxt, window, nxt, count⟩
  unfold fastRetransmit retransmit
  dsimp only
  generalize call.on enterRecovery = recovering at entered ⊢
  obtain ⟨una, nxt, window, recover, count⟩ := entered
  split
  · split_ifs <;> exact ⟨una, nxt, window, recover, count⟩
  · exact ⟨una, nxt, window, recover, count⟩

/-- Inflating the window is no more than counting. -/
theorem Counted.inflate {before : SendPart} (counted : Counted before tcb.sendPart) :
    Counted before (Tcp.inflate tcb).sendPart := by
  have grown : (Tcp.inflate tcb).sendPart =
      { tcb.sendPart with cwnd := (Tcp.inflate tcb).cwnd } := by
    unfold Tcp.inflate
    split_ifs <;> rfl
  rw [grown]
  exact ⟨counted.sndUna, counted.sndNxt, counted.sndWnd, counted.ssthresh, counted.recover,
    counted.dupAcks⟩

theorem duplicateEffect_applyAck (dup : isDup call.tcb packet = true) :
    Ensures (applyAck platform packet call)
      (fun next => DuplicateEffect call.tcb.sendPart next.tcb.sendPart)
      fun result => DuplicateEffect call.tcb.sendPart result.call.tcb.sendPart := by
  have same : packet.tcpAck = call.tcb.sndUna := (of_decide_eq_true dup).1
  have count : countDup call.tcb packet = call.tcb.dupAcks + 1 := if_pos dup
  have kept : Counted call.tcb.sendPart
      (call.on fun tcb => { tcb with dupAcks := countDup tcb packet }).tcb.sendPart :=
    ⟨rfl, rfl, rfl, rfl, rfl, count⟩
  unfold applyAck plainAck
  rw [dup]
  generalize counting : call.on (fun tcb => { tcb with dupAcks := countDup tcb packet }) =
    counted at kept ⊢
  have more : counted.tcb.dupAcks = call.tcb.dupAcks + 1 := kept.dupAcks
  have una : counted.tcb.sndUna = call.tcb.sndUna := kept.sndUna
  have still : ackProgresses counted.tcb packet = false :=
    ackProgresses_of_isDup (same.trans una.symm)
  have behind : ¬ 0 < (packet.tcpAck - counted.tcb.sndUna).toInt := by
    rw [una, same, BitVec.sub_self]
    decide
  by_cases third : call.tcb.dupAcks + 1 = 3
  · rw [if_pos (more.trans third)]
    exact (recoveryEntered_fastRetransmit platform counted kept).mono (fun _ => .entered third)
      fun _ => .entered third
  · rw [if_neg (more ▸ third)]
    by_cases further : 3 < counted.tcb.dupAcks
    · rw [if_pos further]
      exact .counted third kept.inflate
    · rw [if_neg further, if_neg (by rw [still]; exact Bool.false_ne_true), if_neg behind,
        if_neg (fun both => Bool.noConfusion both.1)]
      exact .counted third kept

theorem duplicateEffect_processAck (acks : packet.flagged Flag.ack = true)
    (dup : isDup call.tcb packet = true) :
    Ensures (processAck platform packet call)
      (fun next => DuplicateEffect call.tcb.sendPart next.tcb.sendPart)
      fun result => DuplicateEffect call.tcb.sendPart result.call.tcb.sendPart := by
  have same : packet.tcpAck = call.tcb.sndUna := (of_decide_eq_true dup).1
  have noSyn := noSyn_of_isDup dup
  have applied := duplicateEffect_applyAck platform dup
  unfold processAck completeHandshake
  rw [if_pos acks, noSyn, ackProgresses_of_isDup same, if_neg Bool.false_ne_true,
    if_neg Bool.false_ne_true]
  split_ifs
  · exact applied
  · exact .unchanged (sendPart_triggerChallengeAck call.tcb platform.now)
  · exact applied

end Duplicate

/-- The sending side that ACK processing finds. -/
structure Prepared (packet : Packet Mbuf) (tcb : Tcb Mbuf) (before : SendPart) : Prop where
  sndUna : before.sndUna = tcb.sndUna
  sndNxt : before.sndNxt = tcb.sndNxt
  dupAcks : before.dupAcks = tcb.dupAcks
  recover : before.recover = tcb.recover
  ssthresh : echoCuts packet tcb = false → before.ssthresh = tcb.ssthresh

theorem Touched.prepared {packet : Packet Mbuf} {tcb after : Tcb Mbuf}
    (touched : Touched packet tcb after) : Prepared packet tcb after.sendPart := by
  obtain ⟨⟨base, either, only⟩, -⟩ := touched
  have baseEq : base = { tcb with cwnd := base.cwnd, ssthresh := base.ssthresh } := by
    rcases either with rfl | rfl
    · rfl
    · exact afterEcho_only packet tcb
  have threshold : echoCuts packet tcb = false → base.ssthresh = tcb.ssthresh := by
    intro uncut
    rcases either with rfl | rfl
    · rfl
    · rw [afterEcho, if_neg (by rw [uncut]; exact Bool.false_ne_true)]
  rw [only, baseEq]
  exact ⟨rfl, rfl, rfl, rfl, threshold⟩

/-- A duplicate ACK through the whole call. -/
theorem duplicateEffect_receive {arrival : Arrival Mbuf}
    (duplicate : isDuplicateAck tcb arrival = true) :
    ∃ before, Prepared arrival.packet tcb before ∧
      DuplicateEffect before (tcb.receive arrival).sendPart := by
  obtain ⟨acks, dup⟩ := of_decide_eq_true duplicate
  have noSyn := noSyn_of_isDup dup
  by_cases passed : passes arrival.packet tcb = true
  · obtain ⟨after, admitted, -, outcome⟩ := processInbound_of_passes arrival.platform
      arrival.trimOffset arrival.mbufAbsorbed noSyn passed
    have dup : isDup after arrival.packet = true := by
      rw [admitted.only, afterEcho_only]
      exact dup
    refine ⟨after.sendPart, admitted.touched.prepared, ?_⟩
    rw [Tcb.receive, outcome]
    exact sendPart_ackStages arrival.platform arrival.packet _
      (duplicateEffect_processAck arrival.platform acks dup)
  · have stopped := stopped_of_not_passes arrival.platform
      arrival.trimOffset arrival.mbufAbsorbed noSyn (Bool.eq_false_iff.mpr passed)
    exact ⟨(tcb.receive arrival).sendPart, stopped.touched.prepared, .unchanged rfl⟩

/-! ## Runs of duplicates -/

/-- The blocks of a run at which an arrival lowers the slow start threshold. -/
def reductions (tcb : Tcb Mbuf) : List (Arrival Mbuf) → List (Tcb Mbuf)
  | [] => []
  | arrival :: rest =>
      if (tcb.receive arrival).ssthresh < tcb.ssthresh then
        tcb :: reductions (tcb.receive arrival) rest
      else reductions (tcb.receive arrival) rest

/-- One response to a loss: the threshold is lowered at most once in a run, and only while data
is outstanding. -/
def RespondsOnce (tcb : Tcb Mbuf) (run : List (Arrival Mbuf)) : Prop :=
  (reductions tcb run).length ≤ 1 ∧ ∀ before ∈ reductions tcb run, before.sndUna ≠ before.sndNxt

/-- The counter does not wrap, a third duplicate finds data outstanding, and no echo cuts the
window. -/
def countsSafely (tcb : Tcb Mbuf) (arrival : Arrival Mbuf) : Bool :=
  tcb.dupAcks ≠ 255 ∧ (tcb.dupAcks = 2 → tcb.sndUna ≠ tcb.sndNxt) ∧
    echoCuts arrival.packet tcb = false

/-- What a step of such a run keeps: the counter does not fall, and only the third duplicate
lowers the threshold. -/
theorem receive_countsSafely {arrival : Arrival Mbuf}
    (duplicate : isDuplicateAck tcb arrival = true) (safe : countsSafely tcb arrival = true) :
    tcb.dupAcks ≤ (tcb.receive arrival).dupAcks ∧ ((tcb.receive arrival).ssthresh < tcb.ssthresh →
        tcb.dupAcks = 2 ∧ (tcb.receive arrival).dupAcks = 3) := by
  obtain ⟨bounded, -, uncut⟩ := of_decide_eq_true safe
  obtain ⟨before, prepared, effect⟩ := duplicateEffect_receive duplicate
  have count := prepared.dupAcks
  have threshold := prepared.ssthresh uncut
  have up : tcb.dupAcks ≤ tcb.dupAcks + 1 := by bv_omega
  cases effect with
  | unchanged same =>
      have kept : (tcb.receive arrival).dupAcks = tcb.dupAcks :=
        (congrArg SendPart.dupAcks same).trans count
      have level : (tcb.receive arrival).ssthresh = tcb.ssthresh :=
        (congrArg SendPart.ssthresh same).trans threshold
      rw [kept, level]
      exact ⟨BitVec.le_refl _, fun lower => absurd lower (BitVec.lt_irrefl _)⟩
  | counted other counted =>
      have kept : (tcb.receive arrival).dupAcks = tcb.dupAcks + 1 := by
        rw [← count]
        exact counted.dupAcks
      have level : (tcb.receive arrival).ssthresh = tcb.ssthresh :=
        counted.ssthresh.trans threshold
      rw [kept, level]
      exact ⟨up, fun lower => absurd lower (BitVec.lt_irrefl _)⟩
  | entered third entered =>
      have kept : (tcb.receive arrival).dupAcks = 3 := entered.dupAcks.trans third
      have second : tcb.dupAcks = 2 := by bv_omega
      rw [kept]
      refine ⟨?_, fun _ => ⟨second, rfl⟩⟩
      rw [second]
      decide

/-- The run rule: from three duplicates on, the threshold is not lowered again. -/
theorem reductions_of_counted {run : List (Arrival Mbuf)}
    (duplicates : Admissible Tcb.receive (fun tcb arrival => isDuplicateAck tcb arrival = true)
      tcb run)
    (safe : Admissible Tcb.receive (fun tcb arrival => countsSafely tcb arrival = true) tcb run)
    (counted : 3 ≤ tcb.dupAcks) : reductions tcb run = [] := by
  induction run generalizing tcb with
  | nil => rfl
  | cons arrival run ih =>
      obtain ⟨duplicate, duplicates⟩ := duplicates
      obtain ⟨here, safe⟩ := safe
      obtain ⟨up, lowers⟩ := receive_countsSafely duplicate here
      have level : ¬ (tcb.receive arrival).ssthresh < tcb.ssthresh := by
        intro lower
        rw [(lowers lower).1] at counted
        exact absurd counted (by decide)
      rw [reductions, if_neg level]
      exact ih duplicates safe (BitVec.le_trans counted up)

/-- In every run of duplicate ACKs whose steps are safe, the threshold is lowered at most
once, and only while data is outstanding. -/
theorem respondsOnce_of_countsSafely (tcb : Tcb Mbuf) (run : List (Arrival Mbuf))
    (duplicates : Admissible Tcb.receive (fun tcb arrival => isDuplicateAck tcb arrival = true)
      tcb run)
    (safe : Admissible Tcb.receive (fun tcb arrival => countsSafely tcb arrival = true)
      tcb run) : RespondsOnce tcb run := by
  induction run generalizing tcb with
  | nil => exact ⟨Nat.zero_le 1, fun before member => absurd member List.not_mem_nil⟩
  | cons arrival run ih =>
      obtain ⟨duplicate, duplicates⟩ := duplicates
      obtain ⟨here, safe⟩ := safe
      obtain ⟨-, lowers⟩ := receive_countsSafely duplicate here
      unfold RespondsOnce
      rw [reductions]
      by_cases lower : (tcb.receive arrival).ssthresh < tcb.ssthresh
      · obtain ⟨second, third⟩ := lowers lower
        have rest : reductions (tcb.receive arrival) run = [] :=
          reductions_of_counted duplicates safe (third ▸ BitVec.le_refl _)
        rw [if_pos lower, rest]
        refine ⟨Nat.le_refl 1, fun before member => ?_⟩
        rw [List.mem_singleton.mp member]
        exact (of_decide_eq_true here).2.1 second
      · rw [if_neg lower]
        exact ih (tcb.receive arrival) duplicates safe

/-- A pure ACK of number 7 with a window of 1000. -/
def pureAck : Arrival Unit where
  platform := {}
  packet :=
    { tcpSeq := 500
      tcpAck := 7
      tcpWindow := 1000
      tcpFlags := Flag.ack
      options := []
      ipTtl := 64
      ipTos := 0
      payloadLen := 0
      payloadOffset := 54
      mbuf := none }
  trimOffset := 0
  mbufAbsorbed := none

/-- An established block that has sent up to a number. -/
def establishedBlock (sndNxt : BitVec 32) : Tcb Unit :=
  { sndUna := 7, sndNxt := sndNxt, rcvNxt := 500, sndWnd := 1000, rcvWnd := 4096, cwnd := 14600,
    ssthresh := 65535, phase := .established }

theorem respondsOnce_of_countsSafely_flight :
    RespondsOnce (establishedBlock 1007) [pureAck, pureAck, pureAck, pureAck] :=
  respondsOnce_of_countsSafely _ _ (by decide) (by decide)

/-- Three duplicates lower the threshold of a connection with nothing in flight. -/
theorem not_respondsOnce_idle :
    (establishedBlock 7).phase = .established ∧
      Admissible Tcb.receive (fun tcb arrival => isDuplicateAck tcb arrival = true)
        (establishedBlock 7) [pureAck, pureAck, pureAck] ∧
      ¬ RespondsOnce (establishedBlock 7) [pureAck, pureAck, pureAck] := by
  refine ⟨rfl, by decide, ?_⟩
  unfold RespondsOnce
  decide

end SlabFlux.Net.Tcp
