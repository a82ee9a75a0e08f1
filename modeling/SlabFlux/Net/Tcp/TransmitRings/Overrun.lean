import SlabFlux.Net.Tcp.TransmitRings.Model

/-!
# Overruns of the transmit rings

No sender looks at the occupancy of a ring.  An operation therefore spares both rings
exactly if they have room for all the segments it sends.
-/

namespace SlabFlux.Net.Tcp

open Lib SlabFlux.Core SpscRingConduit TransmitOperation Lib.Reservation

variable {Mbuf : Type}

/-- The cursors of a conduit. -/
def cursorsOf (ring : UnackedRing) : Cursors :=
  ⟨ring.localIngressCursor, ring.localEgressCursor⟩

/-! ## What the operations demand -/

/-- The number of segments for a number of bytes. -/
def segmentCount (mss length : Nat) : Nat := (length + mss - 1) / mss

namespace TransmitOperation

/-- The slots of the egress conduit an operation needs: one for a retransmission or a
control frame, one for every segment of `send`, and one more where the pool is exhausted
before the end. -/
def egressDemand (platform : Platform) (tcb : Tcb Mbuf) : TransmitOperation Mbuf → Nat
  | .inbound packet trimOffset mbufAbsorbed =>
      if (inboundBlock platform packet tcb trimOffset mbufAbsorbed).any (ackRetransmits packet)
      then 1 else 0
  | .dispatch => if tcb.dispatchDue then 1 else 0
  | .send buffer =>
      min (platform.buffers + 1) (segmentCount tcb.effectiveMss (tcb.toSend buffer.length))
  | .tick now _ => if tcb.tickRetransmits now then 1 else 0

/-- The slots of the unacknowledged ring an operation needs, if there is one. -/
def unackedDemand (platform : Platform) (tcb : Tcb Mbuf) : TransmitOperation Mbuf → Nat
  | .inbound _ _ _ => 0
  | .dispatch => if tcb.dispatchDue ∧ 0 < platform.buffers ∧ tcb.tracksControl then 1 else 0
  | .send buffer =>
      min platform.buffers (segmentCount tcb.effectiveMss (tcb.toSend buffer.length))
  | .tick _ _ => 0

/-- The operation writes no slot that is committed and not consumed, commits to no ring
that is full, and leaves both with at most 1024 entries. -/
def SparesRings (platform : Platform) (tcb : Tcb Mbuf) (egress : Cursors)
    (operation : TransmitOperation Mbuf) : Prop :=
  Spares capacity (onRing .egress (operation.log platform tcb)) egress ∧
    ∀ ring ∈ tcb.txUnackedRing, Spares capacity
      (onRing .unacked (operation.log platform tcb)) (cursorsOf ring)

/-- Both rings have room for what the operation needs. -/
def HasRoom (platform : Platform) (tcb : Tcb Mbuf) (egress : Cursors)
    (operation : TransmitOperation Mbuf) : Prop :=
  egress.occupancy + operation.egressDemand platform tcb ≤ capacity ∧ ∀ ring ∈ tcb.txUnackedRing,
      ring.occupancy + operation.unackedDemand platform tcb ≤ capacity

end TransmitOperation

/-! ## The logs, ring by ring -/

section Logs

variable {ring : TransmitRing} {log later : List RingEvent}

@[simp] theorem onRing_nil : onRing ring [] = [] := rfl

@[simp] theorem onRing_append :
    onRing ring (log ++ later) = onRing ring log ++ onRing ring later := by
  rw [onRing, List.filter_append, List.map_append]
  rfl

@[simp] theorem onRing_cons (event : RingEvent) :
    onRing ring (event :: log) =
      if event.ring = ring then event.event :: onRing ring log else onRing ring log := by
  unfold onRing
  split <;> simp_all

theorem onRing_consumeLog_egress (count : Nat) : onRing .egress (consumeLog count) = [] := by
  unfold onRing consumeLog
  rw [List.filter_eq_nil_iff.mpr, List.map_nil]
  intro event member
  rw [List.eq_of_mem_replicate member]
  decide

theorem onRing_consumeLog_unacked (count : Nat) :
    onRing .unacked (consumeLog count) = List.replicate count .consume := by
  unfold onRing consumeLog
  rw [List.filter_eq_self.mpr, List.map_replicate]
  intro event member
  rw [List.eq_of_mem_replicate member]
  decide

end Logs

/-- A log that only produces, with what it demands. -/
def Demands (log : List Event) (slots : Nat) : Prop := .consume ∉ log ∧ demand log = slots

theorem Demands.spares_iff {log : List Event} {slots : Nat} (demands : Demands log slots)
    {cursors : Cursors} (fits : cursors.Fits capacity) :
    Spares capacity log cursors ↔ cursors.occupancy + slots ≤ capacity := by
  rw [spares_iff_demand (by decide) demands.1 fits, demands.2]

theorem demands_nil : Demands [] 0 := ⟨List.not_mem_nil, rfl⟩

/-- A retransmission takes a slot whether or not it is committed. -/
theorem demands_retransmitLog (platform : Platform) (due : Bool) :
    Demands (onRing .egress (if due then retransmitLog platform else []))
      (if due then 1 else 0) ∧
      onRing .unacked (if due then retransmitLog platform else []) = [] := by
  unfold retransmitLog
  cases due with
  | false => exact ⟨demands_nil, rfl⟩
  | true => cases platform.retains <;> exact ⟨⟨by decide, rfl⟩, rfl⟩

theorem segmentCount_zero {mss : Nat} (positive : 0 < mss) : segmentCount mss 0 = 0 :=
  Nat.div_eq_of_lt (by omega)

theorem segmentCount_step {mss length : Nat} (positive : 0 < mss) (some : 0 < length) :
    segmentCount mss length = segmentCount mss (length - mss) + 1 := by
  unfold segmentCount
  by_cases short : length ≤ mss
  · rw [Nat.sub_eq_zero_of_le short, Nat.div_eq_of_lt (show 0 + mss - 1 < mss by omega)]
    exact Nat.div_eq_of_lt_le (by omega) (by omega)
  · have split : length + mss - 1 = length - mss + mss - 1 + mss := by omega
    rw [split, Nat.add_div_right _ positive]

/-- The loop of `send`: one slot for every segment, as long as the pool gives buffers. -/
theorem demands_chunksLog {mss : Nat} (positive : 0 < mss) (tracked : Bool) (buffers : Nat)
    (bytes : Bytes) :
    Demands (onRing .egress (Tcb.chunksLog mss tracked buffers bytes))
        (min (buffers + 1) (segmentCount mss bytes.length)) ∧
      Demands (onRing .unacked (Tcb.chunksLog mss tracked buffers bytes))
        (if tracked then min buffers (segmentCount mss bytes.length) else 0) := by
  induction buffers generalizing bytes with
  | zero =>
      unfold Tcb.chunksLog
      by_cases empty : bytes = []
      · subst empty
        rw [List.length_nil, segmentCount_zero positive]
        cases tracked <;> exact ⟨demands_nil, demands_nil⟩
      · rw [if_neg empty, segmentCount_step positive (List.length_pos_iff.mpr empty)]
        refine ⟨⟨by decide, ?_⟩, ?_⟩
        · change 1 = _
          omega
        · rw [Nat.zero_min, ite_self]
          exact demands_nil
  | succ buffers ih =>
      unfold Tcb.chunksLog
      by_cases empty : bytes = []
      · subst empty
        rw [List.length_nil, segmentCount_zero positive]
        cases tracked <;> exact ⟨demands_nil, demands_nil⟩
      · rw [if_neg empty, segmentCount_step positive (List.length_pos_iff.mpr empty),
          ← List.length_drop]
        obtain ⟨⟨egressFree, egressDemand⟩, unackedFree, unackedDemand⟩ := ih (bytes.drop mss)
        unfold Tcb.chunkLog
        cases tracked with
        | false =>
            refine ⟨⟨by simpa using egressFree, ?_⟩, by simpa using unackedFree, ?_⟩
            · simp [demand, egressDemand]
            · simpa using unackedDemand
        | true =>
            refine ⟨⟨by simpa using egressFree, ?_⟩, by simpa using unackedFree, ?_⟩
            · simp [demand, egressDemand]
            · simp [demand, unackedDemand]

theorem toSend_le (tcb : Tcb Mbuf) (length : Nat) : tcb.toSend length ≤ length := by
  unfold Tcb.toSend
  split
  · exact Nat.zero_le length
  · exact Nat.min_le_left ..

/-- The block once the data carry the pending ACK. -/
def Tcb.quiet (tcb : Tcb Mbuf) : Tcb Mbuf :=
  { tcb.lower TemporalFlag.ackPending with delayedAckDeadlineTsc := 0 }

/-- A call either has nothing to send, and changes a flag at most, or sends segments. -/
theorem send_cases (platform : Platform) (buffer : Bytes) (tcb : Tcb Mbuf) :
    (tcb.toSend buffer.length = 0 ∧ ∃ flags result,
        tcb.send platform buffer = ({ tcb with temporalFlags := flags }, result) ∧
          result.getD 0 = 0) ∨
      0 < tcb.toSend buffer.length ∧ tcb.toSend buffer.length ≤ tcb.usableWindow.toNat ∧
        tcb.send platform buffer = ((Tcb.sendChunks tcb.effectiveMss platform.buffers
            (buffer.take (tcb.toSend buffer.length)) tcb.quiet).1,
          some (Tcb.sendChunks tcb.effectiveMss platform.buffers
            (buffer.take (tcb.toSend buffer.length)) tcb.quiet).2) := by
  unfold Tcb.send
  by_cases established : tcb.isEstablished = false
  · rw [if_pos established]
    exact .inl ⟨if_pos (.inl established), _, _, rfl, rfl⟩
  · rw [if_neg established]
    by_cases silly : tcb.avoidsSillyWindow buffer.length = true
    · rw [if_pos silly]
      exact .inl ⟨if_pos (.inr silly), _, _, rfl, rfl⟩
    · have sends : tcb.toSend buffer.length = min buffer.length tcb.usableWindow.toNat :=
        if_neg (not_or.mpr ⟨established, silly⟩)
      rw [if_neg silly]
      rw [← sends]
      rcases Nat.eq_zero_or_pos (tcb.toSend buffer.length) with idle | busy
      · rw [if_pos idle]
        refine .inl ⟨idle, ?_⟩
        split <;> exact ⟨_, _, rfl, rfl⟩
      · rw [if_neg busy.ne']
        exact .inr ⟨busy, by omega, rfl⟩

/-! ## All operations -/

namespace TransmitOperation

variable (platform : Platform) (tcb : Tcb Mbuf)

theorem demands_dispatchLog :
    Demands (onRing .egress (tcb.dispatchLog platform)) (if tcb.dispatchDue then 1 else 0) ∧
      Demands (onRing .unacked (tcb.dispatchLog platform))
        (if tcb.dispatchDue ∧ 0 < platform.buffers ∧ tcb.tracksControl then 1 else 0) := by
  unfold Tcb.dispatchLog
  cases tcb.dispatchDue with
  | false => exact ⟨demands_nil, demands_nil⟩
  | true =>
      by_cases given : 0 < platform.buffers
      · rw [if_pos given]
        cases tcb.tracksControl <;> cases platform.retains <;>
          exact ⟨⟨by decide, rfl⟩, by decide, by simp [demand, given]⟩
      · rw [if_neg given]
        exact ⟨⟨by decide, rfl⟩, by decide, by simp [demand, given]⟩

theorem demands_egress (operation : TransmitOperation Mbuf) :
    Demands (onRing .egress (operation.log platform tcb))
      (operation.egressDemand platform tcb) := by
  cases operation with
  | inbound packet trimOffset mbufAbsorbed =>
      dsimp only [log, egressDemand]
      cases inboundBlock platform packet tcb trimOffset mbufAbsorbed with
      | none => exact demands_nil
      | some block =>
          rw [inboundLog, onRing_append, onRing_consumeLog_egress, List.nil_append, Option.any_some]
          exact (demands_retransmitLog platform (ackRetransmits packet block)).1
  | dispatch => exact (demands_dispatchLog platform tcb).1
  | send buffer =>
      have demands := (demands_chunksLog (effectiveMss_bounds tcb).1 tcb.txUnackedRing.isSome
        platform.buffers (buffer.take (tcb.toSend buffer.length))).1
      rw [List.length_take, Nat.min_eq_left (toSend_le tcb buffer.length)] at demands
      exact demands
  | tick now trackerRto =>
      dsimp only [log, egressDemand]
      rw [Tcb.tickLog, onRing_append, onRing_consumeLog_egress, List.append_nil]
      exact (demands_retransmitLog platform (tcb.tickRetransmits now)).1

theorem spares_unacked (operation : TransmitOperation Mbuf) {ring : UnackedRing}
    (bound : tcb.txUnackedRing = some ring)
    (fits : (cursorsOf ring).Fits capacity) :
    Spares capacity (onRing .unacked (operation.log platform tcb))
        (cursorsOf ring) ↔
      ring.occupancy + operation.unackedDemand platform tcb ≤ capacity := by
  have consumes (count : Nat) : Spares capacity
      (List.replicate count .consume) (cursorsOf ring) ↔ ring.occupancy + 0 ≤ capacity :=
    iff_of_true (spares_replicate_consume count fits.room) fits.room
  cases operation with
  | inbound packet trimOffset mbufAbsorbed =>
      dsimp only [log, unackedDemand]
      cases inboundBlock platform packet tcb trimOffset mbufAbsorbed with
      | none => exact consumes 0
      | some block =>
          rw [inboundLog, onRing_append, onRing_consumeLog_unacked,
            (demands_retransmitLog platform (ackRetransmits packet block)).2, List.append_nil]
          exact consumes _
  | dispatch => exact (demands_dispatchLog platform tcb).2.spares_iff fits
  | send buffer =>
      have demands := (demands_chunksLog (effectiveMss_bounds tcb).1 tcb.txUnackedRing.isSome
        platform.buffers (buffer.take (tcb.toSend buffer.length))).2
      rw [List.length_take, Nat.min_eq_left (toSend_le tcb buffer.length), bound] at demands
      refine Demands.spares_iff ?_ fits
      rw [log, Tcb.sendLog, bound]
      exact demands
  | tick now trackerRto =>
      dsimp only [log, unackedDemand]
      rw [Tcb.tickLog, onRing_append, onRing_consumeLog_unacked,
        (demands_retransmitLog platform (tcb.tickRetransmits now)).2, List.nil_append]
      exact consumes _

end TransmitOperation

/-- An operation spares both rings, whatever their occupancy, exactly if they have room
for every segment it sends. -/
theorem sparesRings_iff_hasRoom (platform : Platform) (tcb : Tcb Mbuf) (egress : Cursors)
    (operation : TransmitOperation Mbuf) (egressFits : egress.Fits capacity)
    (unackedFits : ∀ ring ∈ tcb.txUnackedRing, (cursorsOf ring).Fits capacity) :
    operation.SparesRings platform tcb egress ↔ operation.HasRoom platform tcb egress := by
  unfold SparesRings HasRoom
  rw [(operation.demands_egress platform tcb).spares_iff egressFits]
  refine and_congr_right fun _ => forall_congr' fun ring => ?_
  refine forall_congr' fun bound => ?_
  exact operation.spares_unacked platform tcb bound (unackedFits ring bound)

/-- A connection with a control frame to send. -/
def acknowledging : Tcb Unit :=
  { phase := .established, flagsPending := Flag.ack, txEgressConduit := some [],
    txMbufPool := true }

/-- A full egress conduit. -/
def fullRing : Cursors := ⟨1024, 0⟩

/-- A control frame that finds the last free slot. -/
theorem sparesRings_iff_hasRoom_lastSlot :
    (⟨1023, 0⟩ : Cursors).Fits capacity ∧ dispatch.SparesRings {} acknowledging ⟨1023, 0⟩ := by
  have fits : (⟨1023, 0⟩ : Cursors).Fits capacity := ⟨by decide, by decide⟩
  have unbound : ∀ ring : UnackedRing, ring ∉ acknowledging.txUnackedRing :=
    fun ring held => absurd held.symm (Option.some_ne_none ring)
  refine ⟨fits, (sparesRings_iff_hasRoom {} acknowledging ⟨1023, 0⟩ .dispatch fits
    fun ring held => absurd held (unbound ring)).mpr ⟨by decide, ?_⟩⟩
  exact fun ring held => absurd held (unbound ring)

/-- With a full egress conduit the control frame goes to the slot of the oldest one that
waits there, and is committed. -/
theorem dispatch_overruns_fullRing :
    ¬ dispatch.SparesRings {} acknowledging fullRing ∧
      onRing .egress (dispatch.log {} acknowledging) = [.write, .commit] ∧
      (replay (onRing .egress (dispatch.log {} acknowledging)) fullRing).occupancy = 1025 := by
  refine ⟨fun spares => ?_, by decide, by decide⟩
  exact spares.1.1 ⟨0, by decide, by decide, by decide⟩

end SlabFlux.Net.Tcp
