import SlabFlux.Net.Tcp.Sending.Wire
import SlabFlux.Net.Tcp.TransmitRings.Overrun

/-!
# What `send` does with the bytes it takes

`send` returns how many bytes of the buffer it took.  It is faithful if these were cut into
segments that follow one another from `snd_nxt` on, each valid on the wire, of a size the
peer accepts, and placed in both transmit rings; if the window bounds what is in flight;
and if a refusal changes nothing.

A control block for which this fails has no ring for the segments, no room in a ring, no
room for data beside the options, or a keep-alive probe still to be sent: the first segment
of data is then built as that probe.
-/

namespace SlabFlux.Net.Tcp

open SlabFlux.Core Lib SpscRingConduit TransmitOperation Tcb Lib.Reservation

variable {Mbuf : Type} {tcb : Tcb Mbuf}
variable {ring : UnackedRing} {waiting : List Frame}

/-- The segments follow one another from a sequence number on. -/
def Consecutive : BitVec 32 → List Frame → Prop
  | _, [] => True
  | seq, segment :: rest =>
      segment.tcpSeq = seq ∧ Consecutive (seq + BitVec.ofNat 32 segment.payload.length) rest

/-- The smaller of `mss_` and the peer's maximum segment size, where it named one. -/
def Tcb.segmentLimit (tcb : Tcb Mbuf) : Nat :=
  if tcb.remoteMss = 0 then 1460 else min 1460 tcb.remoteMss.toNat

/-- Bytes went out in the given segments. -/
structure Delivers (addresses : Addresses) (tcb after : Tcb Mbuf) (taken : Bytes)
    (segments : List Frame) : Prop where
  cut : segments.flatMap Frame.payload = taken
  filled : ∀ segment ∈ segments, segment.payload ≠ []
  consecutive : Consecutive tcb.sndNxt segments
  advanced : after.sndNxt = tcb.sndNxt + BitVec.ofNat 32 taken.length
  egress : ∃ waiting, tcb.txEgressConduit = some waiting ∧
    after.txEgressConduit = some (waiting ++ segments)
  unacked : ∃ ring, tcb.txUnackedRing = some ring ∧ ∃ grown, after.txUnackedRing = some grown ∧
    ∃ added, grown.entries = ring.entries ++ added ∧ added.map OutboundSegment.frame = segments ∧
      ∀ entry ∈ added, entry.held
  verifies : ∀ segment ∈ segments, segment.Verifies addresses
  bounded : ∀ segment ∈ segments,
    segment.payload.length + segment.options.bytes.length ≤ tcb.segmentLimit

/-- Sending a buffer is faithful.  `egress` are the cursors of the egress conduit. -/
structure SendsFaithfully (platform : Platform) (addresses : Addresses) (tcb : Tcb Mbuf)
    (egress : Cursors) (buffer : Bytes) : Prop where
  spares : (send buffer).SparesRings platform tcb egress
  wired : tcb.sendLog platform buffer ≠ [] → tcb.txEgressConduit.isSome
  delivers : ∀ count, (tcb.send platform buffer).2 = some count → 0 < count →
    count ≤ buffer.length ∧ ∃ segments,
      Delivers addresses tcb (tcb.send platform buffer).1 (buffer.take count) segments
  windowed : (tcb.send platform buffer).1.inflight.toNat ≤
    max tcb.inflight.toNat (min tcb.cwnd.toNat tcb.sndWnd.toNat)
  refuses : (tcb.send platform buffer).2.getD 0 = 0 →
    (tcb.send platform buffer).1.sndNxt = tcb.sndNxt ∧
      (tcb.send platform buffer).1.txEgressConduit = tcb.txEgressConduit ∧
      (tcb.send platform buffer).1.txUnackedRing = tcb.txUnackedRing

/-- If there is something to send: the egress conduit is bound and both rings have room.
If the pool has a buffer for it, the segments are tracked, no probe is pending, and the
options leave room for data. -/
def Unhindered (platform : Platform) (tcb : Tcb Mbuf) (egress : Cursors) (buffer : Bytes) : Prop :=
  0 < tcb.toSend buffer.length →
    tcb.txEgressConduit.isSome ∧ (send buffer).HasRoom platform tcb egress ∧
      (0 < platform.buffers → tcb.txUnackedRing.isSome ∧ tcb.isProbe = false ∧
        tcb.optLen Flag.psh < tcb.segmentLimit)

/-! ## Delivered segments -/

theorem consecutive_append {seq : BitVec 32} {left right : List Frame}
    (first : Consecutive seq left)
    (second : Consecutive (seq + BitVec.ofNat 32 (left.flatMap Frame.payload).length) right) :
    Consecutive seq (left ++ right) := by
  induction left generalizing seq with
  | nil =>
      rw [List.flatMap_nil, List.length_nil, BitVec.add_zero] at second
      exact second
  | cons segment rest ih =>
      refine ⟨first.1, ih first.2 ?_⟩
      rw [List.flatMap_cons, List.length_append, BitVec.ofNat_add, ← BitVec.add_assoc] at second
      exact second

namespace Delivers

variable {addresses : Addresses} {mid after : Tcb Mbuf}

theorem refl (wired : tcb.txEgressConduit = some waiting) (bound : tcb.txUnackedRing = some ring) :
    Delivers addresses tcb tcb [] [] where
  cut := rfl
  filled _ member := absurd member List.not_mem_nil
  consecutive := trivial
  advanced := (BitVec.add_zero _).symm
  egress := ⟨waiting, wired, by rw [wired, List.append_nil]⟩
  unacked := ⟨ring, bound, ring, bound, [], (List.append_nil _).symm, rfl,
    fun _ member => absurd member List.not_mem_nil⟩
  verifies _ member := absurd member List.not_mem_nil
  bounded _ member := absurd member List.not_mem_nil

/-- Sending on. -/
theorem append {taken more : Bytes} {segments later : List Frame}
    (first : Delivers addresses tcb mid taken segments)
    (second : Delivers addresses mid after more later)
    (same : mid.segmentLimit = tcb.segmentLimit) :
    Delivers addresses tcb after (taken ++ more) (segments ++ later) where
  cut := by rw [List.flatMap_append, first.cut, second.cut]
  filled segment member := (List.mem_append.mp member).elim (first.filled _) (second.filled _)
  consecutive := by
    refine consecutive_append first.consecutive ?_
    rw [first.cut, ← first.advanced]
    exact second.consecutive
  advanced := by
    rw [second.advanced, first.advanced, List.length_append, BitVec.ofNat_add, BitVec.add_assoc]
  egress := by
    obtain ⟨waiting, wired, passed⟩ := first.egress
    obtain ⟨still, wired', passed'⟩ := second.egress
    obtain rfl : waiting ++ segments = still := Option.some.inj (passed.symm.trans wired')
    exact ⟨waiting, wired, by rw [passed', List.append_assoc]⟩
  unacked := by
    obtain ⟨ring, bound, grown, kept, added, entries, frames, held⟩ := first.unacked
    obtain ⟨ring', bound', grown', kept', added', entries', frames', held'⟩ := second.unacked
    obtain rfl : grown = ring' := Option.some.inj (kept.symm.trans bound')
    refine ⟨ring, bound, grown', kept', added ++ added', ?_, ?_, ?_⟩
    · rw [entries', entries, List.append_assoc]
    · rw [List.map_append, frames, frames']
    · intro entry member
      exact (List.mem_append.mp member).elim (held entry) (held' entry)
  verifies segment member :=
    (List.mem_append.mp member).elim (first.verifies _) (second.verifies _)
  bounded segment member :=
    (List.mem_append.mp member).elim (first.bounded _) fun held => same ▸ second.bounded _ held

end Delivers

/-! ## The loop -/

variable {chunk : Bytes}

/-- The segment of one turn of the loop. -/
def Tcb.dataFrame (tcb : Tcb Mbuf) (chunk : Bytes) : Frame :=
  { tcb.outboundFrame chunk.length Flag.psh with payload := chunk }

/-- The two rings after a turn of the loop. -/
theorem rings_sendChunk (tcb : Tcb Mbuf) (short : chunk.length ≤ 1460) :
    (tcb.sendChunk chunk).txUnackedRing =
        tcb.txUnackedRing.map (·.commit (OutboundSegment.hold (tcb.dataFrame chunk))) ∧
      (tcb.sendChunk chunk).txEgressConduit =
        tcb.txEgressConduit.map (· ++ [tcb.dataFrame chunk]) := by
  unfold sendChunk prepareOutboundHeader dataFrame
  rw [clampPayload_of_le tcb Flag.psh short]
  exact ⟨rfl, rfl⟩

theorem sndNxt_sendChunk (tcb : Tcb Mbuf) (short : chunk.length ≤ 1460) :
    (tcb.sendChunk chunk).sndNxt =
      if tcb.isProbe then tcb.sndNxt else tcb.sndNxt + BitVec.ofNat 32 chunk.length := by
  unfold sendChunk prepareOutboundHeader
  rw [clampPayload_of_le tcb Flag.psh short]
  rfl

theorem isProbe_sendChunk (tcb : Tcb Mbuf) (chunk : Bytes) :
    (tcb.sendChunk chunk).isProbe = false :=
  isProbe_afterOutbound tcb (tcb.clampPayload chunk.length Flag.psh) Flag.psh

theorem delivers_sendChunk (addresses : Addresses)
    (wired : tcb.txEgressConduit = some waiting) (bound : tcb.txUnackedRing = some ring)
    (ordered : ring.localEgressCursor ≤ ring.localIngressCursor)
    (room : ring.occupancy < capacity) (fresh : tcb.isProbe = false)
    (nonempty : chunk ≠ []) (short : chunk.length ≤ 1460)
    (fits : chunk.length + tcb.optLen Flag.psh ≤ tcb.segmentLimit) :
    Delivers addresses tcb (tcb.sendChunk chunk) chunk [tcb.dataFrame chunk] := by
  have only {motive : Frame → Prop} (holds : motive (tcb.dataFrame chunk)) :
      ∀ segment ∈ [tcb.dataFrame chunk], motive segment := by
    intro segment member
    rw [List.mem_singleton.mp member]
    exact holds
  have seq : tcb.outboundSeq = tcb.sndNxt := by
    unfold outboundSeq
    rw [fresh]
    rfl
  have advanced := sndNxt_sendChunk tcb short
  rw [fresh] at advanced
  obtain ⟨tracked, passed⟩ := rings_sendChunk tcb short
  constructor
  case cut => exact List.append_nil chunk
  case filled => exact only nonempty
  case consecutive => exact ⟨seq, trivial⟩
  case advanced => exact advanced
  case egress => exact ⟨waiting, wired, by rw [passed, wired]; rfl⟩
  case unacked =>
    refine ⟨ring, bound, _, by rw [tracked, bound]; rfl, _, entries_commit _ ordered room, rfl, ?_⟩
    intro entry member
    rw [List.mem_singleton.mp member]
    rfl
  case verifies => exact only (verifies_outboundFrame tcb Flag.psh short addresses)
  case bounded =>
    refine only ?_
    have options := length_optionBytes tcb chunk.length Flag.psh
    change chunk.length + (tcb.outboundFrame chunk.length Flag.psh).options.bytes.length ≤ _
    rw [options]
    exact fits

variable {mss : Nat}

theorem delivers_sendChunks (positive : 0 < mss) (short : mss ≤ 1460) (addresses : Addresses)
    (buffers : Nat) {bytes : Bytes}
    (wired : tcb.txEgressConduit = some waiting) (bound : tcb.txUnackedRing = some ring)
    (ordered : ring.localEgressCursor ≤ ring.localIngressCursor)
    (room : ring.occupancy + min buffers (segmentCount mss bytes.length) ≤ capacity)
    (fresh : tcb.isProbe = false) (fits : mss + tcb.optLen Flag.psh ≤ tcb.segmentLimit) :
    ∃ segments, Delivers addresses tcb (sendChunks mss buffers bytes tcb).1
      (bytes.take (sendChunks mss buffers bytes tcb).2) segments := by
  induction buffers generalizing bytes tcb waiting ring with
  | zero => exact ⟨[], .refl wired bound⟩
  | succ buffers ih =>
      rw [sendChunks]
      by_cases empty : bytes = []
      · rw [if_pos empty]
        exact ⟨[], .refl wired bound⟩
      · rw [if_neg empty]
        have count := segmentCount_step positive (List.length_pos_iff.mpr empty)
        have nonempty : bytes.take mss ≠ [] :=
          fun none => (List.take_eq_nil_iff.mp none).elim positive.ne' empty
        have within : (bytes.take mss).length ≤ mss := List.length_take_le ..
        have first := delivers_sendChunk addresses wired bound ordered (by omega) fresh nonempty
          (within.trans short) (by omega)
        -- The next turn finds one more entry in the ring, and the same limits.
        obtain ⟨grown, longer⟩ := rings_sendChunk tcb (within.trans short)
        rw [bound] at grown
        rw [wired] at longer
        have more : (ring.commit (OutboundSegment.hold
            (tcb.dataFrame (bytes.take mss)))).occupancy = ring.occupancy + 1 := by
          unfold occupancy commit
          dsimp only
          omega
        have left : (ring.commit (OutboundSegment.hold
            (tcb.dataFrame (bytes.take mss)))).occupancy +
              min buffers (segmentCount mss (bytes.drop mss).length) ≤ capacity := by
          rw [List.length_drop]
          omega
        obtain ⟨segments, rest⟩ := ih longer grown (Nat.le_succ_of_le ordered) left
          (isProbe_sendChunk tcb (bytes.take mss)) fits
        refine ⟨[tcb.dataFrame (bytes.take mss)] ++ segments, ?_⟩
        have whole := first.append rest rfl
        rw [← List.take_length_add_append, List.take_append_drop] at whole
        exact whole

/-- The loop moves `snd_nxt` by no more than it sends. -/
theorem sndNxt_sendChunks (short : mss ≤ 1460) (buffers : Nat) (bytes : Bytes) (tcb : Tcb Mbuf) :
    (sendChunks mss buffers bytes tcb).1.sndUna = tcb.sndUna ∧
      ∃ moved ≤ (sendChunks mss buffers bytes tcb).2,
        (sendChunks mss buffers bytes tcb).1.sndNxt = tcb.sndNxt + BitVec.ofNat 32 moved := by
  induction buffers generalizing bytes tcb with
  | zero => exact ⟨rfl, 0, Nat.le_refl 0, (BitVec.add_zero _).symm⟩
  | succ buffers ih =>
      rw [sendChunks]
      by_cases empty : bytes = []
      · rw [if_pos empty]
        exact ⟨rfl, 0, Nat.le_refl 0, (BitVec.add_zero _).symm⟩
      · rw [if_neg empty]
        dsimp only
        obtain ⟨una, moved, within, next⟩ := ih (bytes.drop mss) (tcb.sendChunk (bytes.take mss))
        have step := sndNxt_sendChunk tcb ((List.length_take_le mss bytes).trans short)
        refine ⟨una, ?_⟩
        rw [next, step]
        cases tcb.isProbe with
        | true => exact ⟨moved, by omega, rfl⟩
        | false =>
            refine ⟨(bytes.take mss).length + moved, by omega, ?_⟩
            rw [BitVec.ofNat_add, ← BitVec.add_assoc]
            rfl

/-- What the egress conduit has received starts with the segment of the first turn. -/
theorem egress_sendChunks (buffers : Nat) (bytes : Bytes)
    (wired : tcb.txEgressConduit = some waiting) :
    ∃ segments, (sendChunks mss buffers bytes tcb).1.txEgressConduit =
      some (waiting ++ segments) := by
  induction buffers generalizing bytes tcb waiting with
  | zero => exact ⟨[], by rw [List.append_nil]; exact wired⟩
  | succ buffers ih =>
      rw [sendChunks]
      by_cases empty : bytes = []
      · rw [if_pos empty]
        exact ⟨[], by rw [List.append_nil]; exact wired⟩
      · rw [if_neg empty]
        have longer : ∃ frame, (tcb.sendChunk (bytes.take mss)).txEgressConduit =
            some (waiting ++ [frame]) := by
          unfold sendChunk
          rw [wired]
          exact ⟨_, rfl⟩
        obtain ⟨frame, longer⟩ := longer
        obtain ⟨segments, passed⟩ := ih (bytes.drop mss) longer
        exact ⟨frame :: segments, by rw [passed, List.append_assoc]; rfl⟩

/-! ## The whole call -/

theorem isProbe_quiet (tcb : Tcb Mbuf) : tcb.quiet.isProbe = tcb.isProbe :=
  has_and_of_subset (by decide) tcb.temporalFlags

/-- A call that has something to send. -/
theorem send_of_toSend (platform : Platform) {buffer : Bytes}
    (busy : 0 < tcb.toSend buffer.length) :
    tcb.send platform buffer = ((sendChunks tcb.effectiveMss platform.buffers
          (buffer.take (tcb.toSend buffer.length)) tcb.quiet).1,
        some (sendChunks tcb.effectiveMss platform.buffers
          (buffer.take (tcb.toSend buffer.length)) tcb.quiet).2) ∧
      tcb.toSend buffer.length ≤ tcb.usableWindow.toNat := by
  rcases send_cases platform buffer tcb with ⟨idle, -⟩ | ⟨-, window, sends⟩
  · omega
  · exact ⟨sends, window⟩

theorem send_idle (platform : Platform) {buffer : Bytes} (idle : tcb.toSend buffer.length = 0) :
    (tcb.send platform buffer).2.getD 0 = 0 ∧ (tcb.send platform buffer).1.sndNxt = tcb.sndNxt ∧
      (tcb.send platform buffer).1.sndUna = tcb.sndUna ∧
      (tcb.send platform buffer).1.txEgressConduit = tcb.txEgressConduit ∧
      (tcb.send platform buffer).1.txUnackedRing = tcb.txUnackedRing := by
  rcases send_cases platform buffer tcb with ⟨-, flags, result, sends, nothing⟩ | ⟨busy, -⟩
  · rw [sends]
    exact ⟨nothing, rfl, rfl, rfl, rfl⟩
  · omega

/-- Room in the window, if any, is what is missing to the smaller of the two limits. -/
theorem inflight_add_usableWindow (tcb : Tcb Mbuf) (positive : 0 < tcb.usableWindow.toNat) :
    tcb.inflight.toNat + tcb.usableWindow.toNat ≤ min tcb.cwnd.toNat tcb.sndWnd.toNat := by
  have room {limit : BitVec 32} (above : tcb.inflight < limit) :
      (limit - tcb.inflight).toNat = limit.toNat - tcb.inflight.toNat :=
    BitVec.toNat_sub_of_le (BitVec.le_of_lt above)
  unfold usableWindow at positive ⊢
  have compare (left right : BitVec 32) : left < right ↔ left.toNat < right.toNat := Iff.rfl
  by_cases receiver : tcb.inflight < tcb.sndWnd
  · by_cases congestion : tcb.inflight < tcb.cwnd
    · have one := room receiver
      have two := room congestion
      rw [compare] at receiver congestion
      simp only [if_pos receiver, if_pos congestion, compare] at positive ⊢
      split <;> omega
    · split at positive <;> simp_all
  · simp only [if_neg receiver] at positive
    split at positive <;> simp_all

/-- The window bounds what is in flight. -/
theorem inflight_send (platform : Platform) (tcb : Tcb Mbuf) (buffer : Bytes) :
    (tcb.send platform buffer).1.inflight.toNat ≤
      max tcb.inflight.toNat (min tcb.cwnd.toNat tcb.sndWnd.toNat) := by
  by_cases idle : tcb.toSend buffer.length = 0
  · obtain ⟨-, next, una, -⟩ := send_idle platform idle
    have same : (tcb.send platform buffer).1.inflight = tcb.inflight := by
      unfold inflight
      rw [next, una]
    rw [same]
    exact Nat.le_max_left ..
  · obtain ⟨result, within⟩ := send_of_toSend platform (Nat.pos_of_ne_zero idle)
    have short := (effectiveMss_bounds tcb).2
    obtain ⟨una, moved, few, next⟩ := sndNxt_sendChunks short platform.buffers
      (buffer.take (tcb.toSend buffer.length)) tcb.quiet
    have all := sendChunks_le tcb.effectiveMss platform.buffers
      (buffer.take (tcb.toSend buffer.length)) tcb.quiet
    rw [List.length_take] at all
    have room := inflight_add_usableWindow tcb (by omega)
    have flight : (tcb.send platform buffer).1.inflight = tcb.inflight + BitVec.ofNat 32 moved := by
      rw [result]
      unfold inflight
      rw [next, una]
      change tcb.sndNxt + _ - tcb.sndUna = _
      rw [BitVec.sub_eq_add_neg, BitVec.sub_eq_add_neg, BitVec.add_assoc, BitVec.add_assoc,
        BitVec.add_comm (BitVec.ofNat 32 moved)]
    rw [flight, BitVec.toNat_add, BitVec.toNat_ofNat]
    omega

theorem segmentLimit_eq (tcb : Tcb Mbuf) :
    (if 0 < tcb.remoteMss ∧ tcb.remoteMss < 1460 then tcb.remoteMss.toNat else 1460) =
      tcb.segmentLimit := by
  have compare (left right : BitVec 16) : left < right ↔ left.toNat < right.toNat := Iff.rfl
  have zero : (0 : BitVec 16).toNat = 0 := rfl
  have most : (1460 : BitVec 16).toNat = 1460 := rfl
  unfold segmentLimit
  simp only [compare, ← BitVec.toNat_inj, zero, most]
  split <;> split <;> omega

/-- The segments fill the limit if the options leave room for data. -/
theorem effectiveMss_add_optLen (roomy : tcb.optLen Flag.psh < tcb.segmentLimit) :
    tcb.effectiveMss + tcb.optLen Flag.psh = tcb.segmentLimit := by
  unfold effectiveMss
  rw [segmentLimit_eq, if_pos roomy]
  omega

/-- A call that builds a segment returns a positive number, and the first segment takes the
sequence number of a probe if one is pending. -/
theorem first_sendChunks (positive : 0 < mss) (short : mss ≤ 1460) (buffers : Nat)
    {bytes : Bytes} (nonempty : bytes ≠ [])
    (wired : tcb.txEgressConduit = some waiting) :
    0 < (sendChunks mss (buffers + 1) bytes tcb).2 ∧
      ∃ later, (sendChunks mss (buffers + 1) bytes tcb).1.txEgressConduit =
        some (waiting ++ tcb.dataFrame (bytes.take mss) :: later) := by
  have within : (bytes.take mss).length ≤ 1460 := (List.length_take_le mss bytes).trans short
  have some : 0 < (bytes.take mss).length := by
    rw [List.length_take]
    have := List.length_pos_iff.mpr nonempty
    omega
  rw [sendChunks, if_neg nonempty]
  refine ⟨Nat.add_pos_left some _, ?_⟩
  have longer := (rings_sendChunk tcb within).2
  rw [wired] at longer
  obtain ⟨later, passed⟩ := egress_sendChunks buffers (bytes.drop mss) longer
  exact ⟨later, by rw [passed, List.append_assoc]; rfl⟩

/-- A segment that is numbered like data is not numbered like a probe. -/
theorem isProbe_of_outboundSeq (seq : tcb.outboundSeq = tcb.sndNxt) : tcb.isProbe = false := by
  by_contra probing
  unfold outboundSeq at seq
  rw [if_pos (by simpa using probing)] at seq
  have shifted := congrArg BitVec.toNat seq
  have one : (1 : BitVec 32).toNat = 1 := rfl
  rw [BitVec.toNat_sub] at shifted
  omega

/-- A call with something to send touches the egress conduit. -/
theorem sendLog_eq_nil_iff (platform : Platform) (tcb : Tcb Mbuf) (buffer : Bytes) :
    tcb.sendLog platform buffer = [] ↔ tcb.toSend buffer.length = 0 := by
  have within := toSend_le tcb buffer.length
  have empty : buffer.take (tcb.toSend buffer.length) = [] ↔ tcb.toSend buffer.length = 0 := by
    rw [← List.length_eq_zero_iff, List.length_take]
    omega
  unfold sendLog
  rw [← empty]
  generalize buffer.take (tcb.toSend buffer.length) = bytes
  cases platform.buffers with
  | zero => simp [chunksLog]
  | succ buffers => simp [chunksLog, chunkLog]

/-- A call spares the rings exactly if they have room for its segments. -/
theorem sparesRings_send_iff (platform : Platform) (tcb : Tcb Mbuf) {egress : Cursors}
    (buffer : Bytes) (egressFits : egress.Fits capacity)
    (unackedFits : ∀ ring ∈ tcb.txUnackedRing, (cursorsOf ring).Fits capacity) :
    (send buffer).SparesRings platform tcb egress ↔ (send buffer).HasRoom platform tcb egress := by
  refine and_congr ?_ (forall_congr' fun ring => forall_congr' fun bound => ?_)
  · exact ((send buffer).demands_egress platform tcb).spares_iff egressFits
  · exact (send buffer).spares_unacked platform tcb bound
      (unackedFits ring bound)

theorem take_toSend_ne_nil {buffer : Bytes}
    (busy : 0 < tcb.toSend buffer.length) : buffer.take (tcb.toSend buffer.length) ≠ [] := by
  have within := toSend_le tcb buffer.length
  rw [← List.length_pos_iff, List.length_take]
  omega

section Calls

variable {platform : Platform} {addresses : Addresses} {egress : Cursors}
variable {buffer : Bytes}

/-- A faithful call that builds a segment has nothing against it.  Its segments are those
the conduit received, so the first one is known. -/
theorem SendsFaithfully.clear (faithful : SendsFaithfully platform addresses tcb egress buffer)
    (busy : 0 < tcb.toSend buffer.length) (given : 0 < platform.buffers)
    (wired : tcb.txEgressConduit = some waiting) :
    tcb.txUnackedRing.isSome ∧ tcb.isProbe = false ∧ tcb.optLen Flag.psh < tcb.segmentLimit := by
  obtain ⟨positive, short⟩ := effectiveMss_bounds tcb
  have wired' : tcb.quiet.txEgressConduit = some waiting := wired
  obtain ⟨buffers, more⟩ := Nat.exists_eq_succ_of_ne_zero given.ne'
  obtain ⟨some, later, passed⟩ :=
    first_sendChunks positive short buffers (take_toSend_ne_nil busy) wired'
  have result := (send_of_toSend platform busy).1
  rw [more] at result
  obtain ⟨-, segments, delivered⟩ := faithful.delivers _ (congrArg Prod.snd result) some
  obtain ⟨ring, bound, -⟩ := delivered.unacked
  obtain ⟨waiting', wired'', passed'⟩ := delivered.egress
  obtain rfl : waiting = waiting' := Option.some.inj (wired.symm.trans wired'')
  rw [congrArg Prod.fst result] at passed'
  have same : tcb.quiet.dataFrame _ :: later = segments :=
    List.append_cancel_left (Option.some.inj (passed.symm.trans passed'))
  subst same
  refine ⟨Option.isSome_iff_exists.mpr ⟨ring, bound⟩, ?_, ?_⟩
  · rw [← isProbe_quiet]
    exact isProbe_of_outboundSeq delivered.consecutive.1
  · have bounded := delivered.bounded _ List.mem_cons_self
    have options := length_optionBytes tcb.quiet
      ((buffer.take (tcb.toSend buffer.length)).take tcb.effectiveMss).length Flag.psh
    have data := List.length_pos_iff.mpr (delivered.filled _ List.mem_cons_self)
    unfold dataFrame at bounded data
    rw [options] at bounded
    change _ + tcb.optLen Flag.psh ≤ tcb.segmentLimit at bounded
    omega

namespace Unhindered

variable (unhindered : Unhindered platform tcb egress buffer)
include unhindered

/-- The rings have room for an unhindered call, also if it has nothing to send. -/
theorem hasRoom (egressFits : egress.Fits capacity)
    (unackedFits : ∀ ring ∈ tcb.txUnackedRing, (cursorsOf ring).Fits capacity) :
    (send buffer).HasRoom platform tcb egress := by
  by_cases idle : tcb.toSend buffer.length = 0
  · have none := segmentCount_zero (effectiveMss_bounds tcb).1
    refine ⟨?_, fun ring bound => ?_⟩
    · dsimp only [egressDemand]
      rw [idle, none]
      exact egressFits.room
    · dsimp only [unackedDemand]
      rw [idle, none, Nat.min_zero]
      exact (unackedFits ring bound).room
  · exact (unhindered (Nat.pos_of_ne_zero idle)).2.1

theorem delivers (unackedFits : ∀ ring ∈ tcb.txUnackedRing, (cursorsOf ring).Fits capacity)
    (busy : 0 < tcb.toSend buffer.length) (given : 0 < platform.buffers)
    (addresses : Addresses) :
    ∃ segments, Delivers addresses tcb (tcb.send platform buffer).1
      (buffer.take ((tcb.send platform buffer).2.getD 0)) segments := by
  obtain ⟨wired, ⟨-, room⟩, open'⟩ := unhindered busy
  obtain ⟨tracked, fresh, roomy⟩ := open' given
  obtain ⟨waiting, wired⟩ := Option.isSome_iff_exists.mp wired
  obtain ⟨ring, bound⟩ := Option.isSome_iff_exists.mp tracked
  obtain ⟨positive, short⟩ := effectiveMss_bounds tcb
  have within := toSend_le tcb buffer.length
  have size : (buffer.take (tcb.toSend buffer.length)).length = tcb.toSend buffer.length := by
    rw [List.length_take, Nat.min_eq_left within]
  have demand := room ring bound
  dsimp only [unackedDemand] at demand
  rw [← size] at demand
  have wired' : tcb.quiet.txEgressConduit = some waiting := wired
  obtain ⟨segments, delivered⟩ := delivers_sendChunks positive short addresses platform.buffers
    wired' bound (unackedFits ring bound).ordered demand ((isProbe_quiet tcb).trans fresh)
    (effectiveMss_add_optLen roomy).le
  have all := sendChunks_le tcb.effectiveMss platform.buffers
    (buffer.take (tcb.toSend buffer.length)) tcb.quiet
  rw [size] at all
  rw [List.take_take, Nat.min_eq_left all] at delivered
  rw [(send_of_toSend platform busy).1]
  exact ⟨segments, delivered.cut, delivered.filled, delivered.consecutive, delivered.advanced,
    delivered.egress, delivered.unacked, delivered.verifies, delivered.bounded⟩

/-- An unhindered call that returns nothing sent has changed nothing. -/
theorem refuses (refused : (tcb.send platform buffer).2.getD 0 = 0) :
    (tcb.send platform buffer).1.sndNxt = tcb.sndNxt ∧
      (tcb.send platform buffer).1.txEgressConduit = tcb.txEgressConduit ∧
      (tcb.send platform buffer).1.txUnackedRing = tcb.txUnackedRing := by
  by_cases idle : tcb.toSend buffer.length = 0
  · obtain ⟨-, next, -, passed, kept⟩ := send_idle platform idle
    exact ⟨next, passed, kept⟩
  · have busy := Nat.pos_of_ne_zero idle
    have result := (send_of_toSend platform busy).1
    cases more : platform.buffers with
    | zero =>
        rw [more] at result
        rw [result]
        exact ⟨rfl, rfl, rfl⟩
    | succ buffers =>
        obtain ⟨waiting, wired⟩ := Option.isSome_iff_exists.mp (unhindered busy).1
        have wired' : tcb.quiet.txEgressConduit = some waiting := wired
        obtain ⟨positive, short⟩ := effectiveMss_bounds tcb
        obtain ⟨some, -⟩ :=
          first_sendChunks positive short buffers (take_toSend_ne_nil busy) wired'
        rw [result, more, Option.getD_some] at refused
        omega

end Unhindered

end Calls

/-- `send` is faithful, whatever the block and the buffer, exactly if the call is
unhindered. -/
theorem sendsFaithfully_iff_unhindered (platform : Platform) (addresses : Addresses)
    (tcb : Tcb Mbuf) (egress : Cursors) (buffer : Bytes)
    (egressFits : egress.Fits capacity)
    (unackedFits : ∀ ring ∈ tcb.txUnackedRing, (cursorsOf ring).Fits capacity) :
    SendsFaithfully platform addresses tcb egress buffer ↔
      Unhindered platform tcb egress buffer := by
  have spared := sparesRings_send_iff platform tcb buffer egressFits unackedFits
  constructor
  · intro faithful busy
    have touched : tcb.sendLog platform buffer ≠ [] :=
      fun none => busy.ne' ((sendLog_eq_nil_iff platform tcb buffer).mp none)
    have wired := faithful.wired touched
    obtain ⟨waiting, bound⟩ := Option.isSome_iff_exists.mp wired
    exact ⟨wired, spared.mp faithful.spares, fun given => faithful.clear busy given bound⟩
  · intro unhindered
    constructor
    case spares => exact spared.mpr (unhindered.hasRoom egressFits unackedFits)
    case wired =>
      intro touched
      refine (unhindered (Nat.pos_of_ne_zero fun idle => touched ?_)).1
      exact (sendLog_eq_nil_iff platform tcb buffer).mpr idle
    case delivers =>
      intro count returned some
      have busy : 0 < tcb.toSend buffer.length := by
        refine Nat.pos_of_ne_zero fun idle => ?_
        have nothing := (send_idle platform idle).1
        rw [returned, Option.getD_some] at nothing
        omega
      have result := (send_of_toSend platform busy).1
      have given : 0 < platform.buffers := by
        refine Nat.pos_of_ne_zero fun none => ?_
        rw [none] at result
        rw [result] at returned
        exact some.ne (Option.some.inj returned)
      have delivered := unhindered.delivers unackedFits busy given addresses
      rw [returned] at delivered
      refine ⟨?_, delivered⟩
      have all := sendChunks_le tcb.effectiveMss platform.buffers
        (buffer.take (tcb.toSend buffer.length)) tcb.quiet
      rw [result] at returned
      rw [Option.some.inj returned] at all
      exact all.trans (List.length_take_le' ..)
    case windowed => exact inflight_send platform tcb buffer
    case refuses => exact unhindered.refuses

/-- A connection with both rings and an open window. -/
def talking : Tcb Unit :=
  { phase := .established, sndUna := 1000, sndNxt := 1000, sndWnd := 4096, cwnd := 4096,
    txEgressConduit := some [], txMbufPool := true,
    txUnackedRing := some
      { ring := fun _ => { frame := .zero, held := false, isSacked := false }
        localIngressCursor := 0, localEgressCursor := 0, cachedIngressCursor := 0 } }

/-- The same with a keep-alive probe to be sent. -/
def probing : Tcb Unit := { talking with temporalFlags := TemporalFlag.keepaliveProbe }

/-- Two bytes on a connection with room. -/
theorem sendsFaithfully_iff_unhindered_talking :
    (⟨0, 0⟩ : Cursors).Fits capacity ∧
      (∀ ring ∈ talking.txUnackedRing, (cursorsOf ring).Fits capacity) ∧
      SendsFaithfully {} (.ipv4 0 0) talking ⟨0, 0⟩ [0x41, 0x42] := by
  have fits : (⟨0, 0⟩ : Cursors).Fits capacity := ⟨by decide, by decide⟩
  have unackedFits : ∀ ring ∈ talking.txUnackedRing, (cursorsOf ring).Fits capacity := by
    intro ring bound
    obtain rfl := Option.some.inj bound
    exact ⟨by decide, by decide⟩
  refine ⟨fits, unackedFits, (sendsFaithfully_iff_unhindered {} (.ipv4 0 0) talking ⟨0, 0⟩
    [0x41, 0x42] fits unackedFits).mpr fun _ => ⟨rfl, ⟨by decide, ?_⟩, fun _ => ?_⟩⟩
  · intro ring bound
    obtain rfl := Option.some.inj bound
    decide
  · decide

/-- A byte sent while a probe is pending is returned as sent, but its segment takes the
number before `snd_nxt`, and `snd_nxt` does not move: the byte is lost. -/
theorem send_probing_misnumbers :
    (probing.send {} [0x41]).2 = some 1 ∧
      (probing.send {} [0x41]).1.txEgressConduit.map (·.map Frame.tcpSeq) = some [999] ∧
      (probing.send {} [0x41]).1.sndNxt = 1000 ∧
      ¬ SendsFaithfully {} (.ipv4 0 0) probing ⟨0, 0⟩ [0x41] := by
  refine ⟨by decide, by decide, by decide, fun faithful => ?_⟩
  exact absurd (faithful.clear (by decide) (by decide) rfl).2.1 (by decide)

end SlabFlux.Net.Tcp
