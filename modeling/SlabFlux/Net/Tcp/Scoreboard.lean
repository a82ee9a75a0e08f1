import SlabFlux.Net.Tcp.Arrival
import SlabFlux.Net.Tcp.TransmitRings.Overrun

/-!
# The SACK scoreboard

A mark in the unacknowledged ring should stand for a SACK block of an accepted ACK that
came while the segment was in the ring, after the last retransmission timeout.  Segments
are numbered from the construction of the ring, which tells apart those that use one slot
after the other, and a run records which numbers such a block has covered.

Four paths put a mark where none should be: a slot keeps its mark when it is used again,
the options are read before the ACK and the rest of the options are checked, a timeout
leaves the marks alone if there is no egress conduit, and a block half the circle away that
is shorter than a segment passes both comparisons of its ends with those of the segment.
-/

namespace SlabFlux.Net.Tcp

open SlabFlux.Core Lib SpscRingConduit OutboundSegment Tcb

variable {Mbuf : Type} {covered : Nat → Bool} {after : Tcb Mbuf}
variable {blocks : List (BitVec 32 × BitVec 32)}

/-! ## Numbered segments -/

/-- The slot of the segment with a number. -/
def entryAt (ring : UnackedRing) (number : Nat) : OutboundSegment :=
  ring.ring (number % capacity)

/-- The segment with the number is in the ring. -/
abbrev InRing (ring : UnackedRing) (number : Nat) : Prop :=
  ring.localEgressCursor ≤ number ∧ number < ring.localIngressCursor

/-- Marked segments are covered, and lie below the horizon up to which a timeout clears
marks. -/
structure Accounted (covered : Nat → Bool) (ring : UnackedRing) : Prop where
  bounded : ring.Bounded
  marked : ∀ number, InRing ring number → (entryAt ring number).isSacked = true →
    number < ring.refresh.cachedIngressCursor ∧ covered number = true

/-- What the blocks cover in the ring is recorded. -/
def Recorded (covered : Nat → Bool) (blocks : List (BitVec 32 × BitVec 32))
    (ring : UnackedRing) : Prop :=
  ∀ block ∈ blocks, ∀ number, InRing ring number →
    sackCovers block (entryAt ring number).frame = true → covered number = true

theorem Recorded.remarked {ring after : UnackedRing} (recorded : Recorded covered blocks ring)
    (remarked : Remarked ring after) :
    Recorded covered blocks after := by
  intro block member number held covers
  unfold InRing at held
  rw [remarked.ingress, remarked.egress] at held
  rw [entryAt, remarked.frame] at covers
  exact recorded block member number held covers

section Horizon

variable {ring next : UnackedRing}

theorem cached_refresh (ring : UnackedRing) :
    ring.refresh.cachedIngressCursor =
      if ring.localEgressCursor = ring.cachedIngressCursor then ring.localIngressCursor
      else ring.cachedIngressCursor := by
  unfold refresh
  split <;> rfl

theorem cached_refresh_refresh (ring : UnackedRing) :
    ring.refresh.refresh.cachedIngressCursor = ring.refresh.cachedIngressCursor := by
  obtain ⟨-, ingressEq, egressEq⟩ := ring_refresh ring
  rw [cached_refresh ring.refresh, cached_refresh ring]
  split_ifs <;> simp_all

theorem bounded_refresh_iff : ring.refresh.Bounded ↔ ring.Bounded := by
  obtain ⟨-, ingressEq, egressEq⟩ := ring_refresh ring
  have cachedEq := cached_refresh ring
  constructor <;>
    · rintro ⟨consumed, published, room⟩
      constructor <;> split_ifs at cachedEq <;> omega

/-- Segments leave the ring and marks go away. -/
theorem Accounted.mono (accounted : Accounted covered ring) (bounded : next.Bounded)
    (ingress : next.localIngressCursor = ring.localIngressCursor)
    (egress : ring.localEgressCursor ≤ next.localEgressCursor)
    (horizon : ring.refresh.cachedIngressCursor ≤ next.refresh.cachedIngressCursor)
    (marks : ∀ slot, (next.ring slot).isSacked = true → (ring.ring slot).isSacked = true) :
    Accounted covered next := by
  refine ⟨bounded, fun number held marked => ?_⟩
  have before : InRing ring number := ⟨egress.trans held.1, ingress ▸ held.2⟩
  obtain ⟨shown, known⟩ := accounted.marked number before (marks _ marked)
  exact ⟨shown.trans_le horizon, known⟩

theorem Accounted.weaken {known : Nat → Bool} (accounted : Accounted covered ring)
    (implied : ∀ number, covered number = true → known number = true) : Accounted known ring :=
  ⟨accounted.bounded, fun number held marked =>
    (accounted.marked number held marked).imp_right (implied number)⟩

theorem accounted_refresh_iff : Accounted covered ring.refresh ↔ Accounted covered ring := by
  obtain ⟨slotsEq, ingressEq, egressEq⟩ := ring_refresh ring
  have horizon := cached_refresh_refresh ring
  have marks (slot : Nat) : (ring.refresh.ring slot).isSacked = (ring.ring slot).isSacked := by
    rw [slotsEq]
  constructor <;> intro accounted
  · exact accounted.mono (bounded_refresh_iff.mp accounted.bounded) ingressEq.symm egressEq.le
      horizon.le fun slot marked => (marks slot).trans marked
  · exact accounted.mono (bounded_refresh_iff.mpr accounted.bounded) ingressEq egressEq.ge
      horizon.ge fun slot marked => (marks slot).symm.trans marked

theorem isSacked_modifyPeekSlot (ring : UnackedRing) {change : OutboundSegment → OutboundSegment}
    (keeps : ∀ segment, (change segment).isSacked = segment.isSacked) (offset slot : Nat) :
    ((ring.modifyPeekSlot offset change).ring slot).isSacked = (ring.ring slot).isSacked := by
  dsimp only [modifyPeekSlot]
  rw [Function.update_apply]
  split
  next here => rw [keeps, here]
  next => rfl

theorem accounted_modifyPeekSlot_iff {change : OutboundSegment → OutboundSegment}
    (keeps : ∀ segment, (change segment).isSacked = segment.isSacked) (offset : Nat) :
    Accounted covered (ring.modifyPeekSlot offset change) ↔ Accounted covered ring := by
  have marks := isSacked_modifyPeekSlot ring keeps offset
  have horizon : (ring.modifyPeekSlot offset change).refresh.cachedIngressCursor =
      ring.refresh.cachedIngressCursor := by
    rw [cached_refresh, cached_refresh]
    rfl
  constructor <;> intro accounted
  · exact accounted.mono ⟨accounted.bounded.1, accounted.bounded.2, accounted.bounded.3⟩ rfl
      le_rfl horizon.le fun slot marked => (marks slot).trans marked
  · exact accounted.mono ⟨accounted.bounded.1, accounted.bounded.2, accounted.bounded.3⟩ rfl
      le_rfl horizon.ge fun slot marked => (marks slot).symm.trans marked

end Horizon

/-! ## The writes to the ring -/

variable {tcb : Tcb Mbuf}

section Writes

variable {ring : UnackedRing}

/-- A turn of a loop that releases segments. -/
theorem accounted_releaseFirst (accounted : Accounted covered ring)
    (shown : ring.refresh.available ≠ 0) :
    Accounted covered (ring.refresh.modifyPeekSlot 0 release).consume := by
  have released : Accounted covered (ring.refresh.modifyPeekSlot 0 release) :=
    (accounted_modifyPeekSlot_iff (fun _ => by rfl) 0).mpr (accounted_refresh_iff.mpr accounted)
  have remains : (ring.refresh.modifyPeekSlot 0 release).localEgressCursor <
      (ring.refresh.modifyPeekSlot 0 release).cachedIngressCursor :=
    Nat.lt_of_sub_ne_zero shown
  generalize ring.refresh.modifyPeekSlot 0 release = before at released remains ⊢
  obtain ⟨consumed, published, room⟩ := released.bounded
  refine released.mono ⟨remains, published, room.trans (by simp [consume])⟩ rfl
    (Nat.le_succ _) ?_ fun _ marked => marked
  rw [cached_refresh before, if_neg remains.ne, cached_refresh]
  split_ifs
  · exact published
  · exact le_rfl

theorem accounted_consumeAcked (ack : BitVec 32) (fuel : Nat)
    (accounted : Accounted covered ring) : Accounted covered (consumeAcked ack fuel ring) := by
  induction fuel generalizing ring with
  | zero => exact accounted_refresh_iff.mpr accounted
  | succ fuel ih =>
      rw [consumeAcked]
      split_ifs with drained
      · exact accounted_refresh_iff.mpr accounted
      · exact ih (accounted_releaseFirst accounted drained)
      · exact accounted_refresh_iff.mpr accounted

theorem accounted_releaseAll (fuel : Nat) (accounted : Accounted covered ring) :
    Accounted covered (releaseAll fuel ring) := by
  induction fuel generalizing ring with
  | zero => exact accounted_refresh_iff.mpr accounted
  | succ fuel ih =>
      rw [releaseAll]
      split_ifs with drained
      · exact accounted_refresh_iff.mpr accounted
      · exact ih (accounted_releaseFirst accounted drained)

/-- A new segment takes over the mark of its slot. -/
theorem isSacked_commit (ring : UnackedRing) (frame : Frame) (number : Nat) :
    (entryAt (ring.commit (hold frame)) number).isSacked = (entryAt ring number).isSacked := by
  dsimp only [entryAt, commit]
  rw [Function.update_apply]
  split
  next here => rw [here]; rfl
  next => rfl

/-- The next slot of the ring is free, and its last segment left no mark in it. -/
theorem accounted_commit (accounted : Accounted covered ring) (frame : Frame)
    (room : ring.localIngressCursor + 1 ≤ ring.localEgressCursor + capacity)
    (clean : (entryAt ring ring.localIngressCursor).isSacked = false) :
    Accounted covered (ring.commit (hold frame)) := by
  obtain ⟨consumed, published, -⟩ := accounted.bounded
  refine ⟨⟨consumed, published.trans (Nat.le_succ _), room⟩, fun number held marked => ?_⟩
  have before : (entryAt ring number).isSacked = true :=
    (isSacked_commit ring frame number).symm.trans marked
  have older : number ≠ ring.localIngressCursor := by
    rintro rfl
    exact Bool.false_ne_true (clean.symm.trans before)
  have inside : InRing ring number := ⟨held.1, Nat.lt_of_le_of_ne (Nat.le_of_lt_succ held.2) older⟩
  obtain ⟨shown, known⟩ := accounted.marked number inside before
  refine ⟨shown.trans_le ?_, known⟩
  rw [cached_refresh ring, cached_refresh (ring.commit _)]
  by_cases used : ring.localEgressCursor = ring.cachedIngressCursor
  · rw [if_pos used, if_pos (by exact used)]
    exact Nat.le_succ _
  · rw [if_neg used, if_neg (by exact used)]
    exact le_rfl

/-- A block marks what it covers. -/
theorem accounted_markSacked {block : BitVec 32 × BitVec 32} {offset : Nat}
    (accounted : Accounted covered ring) (shown : offset < ring.refresh.available)
    (recorded : Recorded covered [block] ring) :
    Accounted covered (markSacked block ring offset) := by
  unfold markSacked
  split
  next covers =>
    obtain ⟨consumed, published, room⟩ := accounted.bounded
    refine ⟨⟨consumed, published, room⟩, fun number held marked => ?_⟩
    have horizon : (ring.modifyPeekSlot offset fun segment =>
        { segment with isSacked := true }).refresh.cachedIngressCursor =
          ring.refresh.cachedIngressCursor := by
      rw [cached_refresh, cached_refresh]
      rfl
    rw [horizon]
    by_cases here : number = ring.localEgressCursor + offset
    · subst here
      refine ⟨?_, recorded block List.mem_cons_self _ held covers⟩
      unfold available at shown
      rw [(ring_refresh ring).2.2] at shown
      omega
    · have elsewhere : number % capacity ≠ (ring.localEgressCursor + offset) % capacity := by
        have size : capacity = 1024 := rfl
        have last : offset < capacity := by
          have bounded := (bounded_refresh_iff.mpr accounted.bounded).published
          obtain ⟨-, ingressEq, egressEq⟩ := ring_refresh ring
          unfold available at shown
          omega
        have lower := held.1
        have upper := held.2
        dsimp only [modifyPeekSlot] at lower upper
        rw [size] at room last ⊢
        omega
      refine accounted.marked number held ?_
      rw [← marked]
      dsimp only [entryAt, modifyPeekSlot]
      rw [Function.update_of_ne elsewhere]
  next => exact accounted

theorem accounted_applySackBlock (tcb : Tcb Mbuf) {block : BitVec 32 × BitVec 32}
    (accounted : Accounted covered ring) (recorded : Recorded covered [block] ring) :
    Accounted covered (applySackBlock tcb ring block) := by
  unfold applySackBlock
  split
  next =>
    have row : Accounted covered
          ((List.range ring.refresh.available).foldl (markSacked block) ring.refresh) ∧
        Remarked ring
          ((List.range ring.refresh.available).foldl (markSacked block) ring.refresh) := by
      refine List.foldlRecOn
        (motive := fun after => Accounted covered after ∧ Remarked ring after) _ _
        ⟨accounted_refresh_iff.mpr accounted, remarked_refresh ring⟩ ?_
      rintro after ⟨kept, remarked⟩ offset member
      refine ⟨accounted_markSacked kept ?_ (recorded.remarked remarked),
        remarked.trans (remarked_markSacked block after offset)⟩
      rw [remarked.horizon]
      exact List.mem_range.mp member
    exact row.1
  next => exact accounted

/-- A timeout clears every mark. -/
theorem accounted_clearSacked (accounted : Accounted covered ring) :
    Accounted (fun _ => false) (clearSacked ring) := by
  have cleared (count : Nat) : ∃ slots, (List.range count).foldl (fun ring offset =>
        ring.modifyPeekSlot offset fun segment => { segment with isSacked := false })
          ring.refresh = { ring.refresh with ring := slots } ∧
      ∀ slot, (slots slot).isSacked = true → (ring.refresh.ring slot).isSacked = true ∧
        ∀ offset < count, slot ≠ (ring.refresh.localEgressCursor + offset) % capacity := by
    induction count with
    | zero => exact ⟨ring.refresh.ring, rfl, fun _ marked => ⟨marked, fun _ none => nomatch none⟩⟩
    | succ count ih =>
        obtain ⟨slots, same, marks⟩ := ih
        rw [List.range_succ, List.foldl_append, same]
        refine ⟨_, rfl, fun slot marked => ?_⟩
        rw [Function.update_apply] at marked
        split at marked
        next => exact absurd marked Bool.false_ne_true
        next elsewhere =>
          obtain ⟨before, passed⟩ := marks slot marked
          refine ⟨before, fun offset small => ?_⟩
          rcases Nat.lt_succ_iff_lt_or_eq.mp small with earlier | rfl
          · exact passed offset earlier
          · exact elsewhere
  obtain ⟨slots, same, marks⟩ := cleared ring.refresh.available
  have refreshed := accounted_refresh_iff.mpr accounted
  obtain ⟨consumed, published, room⟩ := refreshed.bounded
  rw [clearSacked, same]
  refine ⟨⟨consumed, published, room⟩, fun number held marked => ?_⟩
  obtain ⟨before, passed⟩ := marks _ marked
  have shown : number < ring.refresh.cachedIngressCursor :=
    (refreshed.marked number held before).1.trans_eq (cached_refresh_refresh ring)
  have offset := passed (number - ring.refresh.localEgressCursor)
    (Nat.sub_lt_sub_right held.1 shown)
  rw [Nat.add_sub_cancel' held.1] at offset
  exact absurd rfl offset

end Writes

/-! ## The block -/

/-- The marks of the block's ring are accounted for. -/
def Truthful (covered : Nat → Bool) (tcb : Tcb Mbuf) : Prop :=
  ∀ ring ∈ tcb.txUnackedRing, Accounted covered ring

theorem Truthful.congr (truthful : Truthful covered tcb)
    (same : after.txUnackedRing = tcb.txUnackedRing) : Truthful covered after := by
  unfold Truthful
  rw [same]
  exact truthful

theorem truthful_map {write : UnackedRing → UnackedRing}
    {known : Nat → Bool} (truthful : Truthful covered tcb)
    (written : after.txUnackedRing = tcb.txUnackedRing.map write)
    (keeps : ∀ ring ∈ tcb.txUnackedRing, Accounted covered ring → Accounted known (write ring)) :
    Truthful known after := by
  intro ring bound
  rw [written] at bound
  obtain ⟨before, held, rfl⟩ := Option.map_eq_some_iff.mp bound
  exact keeps before held (truthful before held)

theorem ringsView_ring : RingsView (fun tcb : Tcb Mbuf => tcb.txUnackedRing) :=
  ⟨fun _ _ _ _ _ ring => ring⟩

theorem ringsView_truthful : RingsView (Truthful covered : Tcb Mbuf → Prop) :=
  ⟨fun tcb after _ _ _ ring => by
    unfold Truthful
    rw [ring]⟩

theorem truthful_of_ring {ring : UnackedRing} (bound : tcb.txUnackedRing = some ring) :
    Truthful covered tcb ↔ Accounted covered ring := by
  unfold Truthful
  rw [bound]
  simp

theorem flightView_truthful : FlightView (Truthful covered : Tcb Mbuf → Prop) where
  same tcb after _ _ ring := by
    unfold Truthful
    rw [ring]
  refresh tcb ring bound := by
    rw [truthful_of_ring bound, truthful_of_ring rfl, accounted_refresh_iff]
  resend tcb ring egress offset bound := by
    rw [truthful_of_ring bound, truthful_of_ring rfl, accounted_modifyPeekSlot_iff fun _ => by rfl]

/-! ## Inbound segments -/

/-- The blocks of the SACK options of a packet. -/
def Packet.sackBlocks (packet : Packet Mbuf) : List (BitVec 32 × BitVec 32) :=
  (packet.tokens.filter (·.kind = 5)).flatMap (·.sackBlocks)

/-- The marks are accounted for, and what the SACK blocks of a packet cover is recorded. -/
structure SackReady (covered : Nat → Bool) (blocks : List (BitVec 32 × BitVec 32))
    (tcb : Tcb Mbuf) : Prop where
  truthful : Truthful covered tcb
  recorded : ∀ ring ∈ tcb.txUnackedRing, Recorded covered blocks ring

theorem SackReady.congr (ready : SackReady covered blocks tcb)
    (same : after.txUnackedRing = tcb.txUnackedRing) :
    SackReady covered blocks after :=
  ⟨ready.truthful.congr same, by rw [same]; exact ready.recorded⟩

theorem sackReady_sackOption {token : OptionToken}
    (known : ∀ block ∈ token.sackBlocks, block ∈ blocks) (ready : SackReady covered blocks tcb) :
    SackReady covered blocks (sackOption token tcb) := by
  unfold sackOption
  split
  next => exact ready
  next ring bound =>
    have recorded := ready.recorded ring bound
    have row : Accounted covered (token.sackBlocks.foldl (applySackBlock tcb) ring) ∧
        Remarked ring (token.sackBlocks.foldl (applySackBlock tcb) ring) := by
      refine List.foldlRecOn
        (motive := fun after => Accounted covered after ∧ Remarked ring after) _ _
        ⟨ready.truthful ring bound, .refl ring⟩ ?_
      rintro after ⟨kept, remarked⟩ block member
      have single : Recorded covered [block] after := by
        intro other chosen
        rw [List.mem_singleton.mp chosen]
        exact recorded.remarked remarked block (known block member)
      exact ⟨accounted_applySackBlock tcb kept single,
        remarked.trans (remarked_applySackBlock tcb after block)⟩
    refine ⟨(truthful_of_ring rfl).mpr row.1, fun after held => ?_⟩
    cases held
    exact recorded.remarked row.2

variable {call : Call Mbuf} (platform : Platform)

theorem truthful_processOptions (packet : Packet Mbuf) {tokens : List OptionToken}
    (known : ∀ token ∈ tokens, token.kind = 5 → ∀ block ∈ token.sackBlocks, block ∈ blocks)
    (ready : SackReady covered blocks call.tcb) :
    Ensures (processOptions platform packet tokens call) (fun next => Truthful covered next.tcb)
      fun result => Truthful covered result.call.tcb := by
  induction tokens generalizing call with
  | nil => exact ready.truthful
  | cons token rest ih =>
      have later {next : Call Mbuf} (still : SackReady covered blocks next.tcb) :=
        ih (fun other member => known other (List.mem_cons_of_mem _ member)) still
      rw [processOptions]
      split_ifs with syn sack odd stamp stale
      · refine later (ready.congr ?_)
        simp only [Call.on, synOption]
        split_ifs <;> rfl
      · exact ready.truthful
      · exact later (sackReady_sackOption (known token List.mem_cons_self sack.1) ready)
      · exact ready.truthful.congr (ringsView_ring.leaves_challenge platform call)
      · refine later (ready.congr ?_)
        simp only [Call.on, recordTimestamp]
        split_ifs <;> rfl
      · exact later ready

theorem truthful_slideUnacked (truthful : Truthful covered tcb) :
    Truthful covered (slideUnacked tcb) :=
  truthful_map truthful rfl fun _ _ => accounted_consumeAcked _ _

theorem truthful_processAck (packet : Packet Mbuf) (truthful : Truthful covered call.tcb) :
    Ensures (processAck platform packet call) (fun next => Truthful covered next.tcb)
      fun result => Truthful covered result.call.tcb := by
  have opened : Ensures (completeHandshake platform packet call)
      (fun next => Truthful covered next.tcb) fun result => Truthful covered result.call.tcb := by
    unfold completeHandshake
    split_ifs
    · exact truthful.congr rfl
    · exact truthful
    · exact truthful.congr rfl
    · exact truthful.congr (ringsView_ring.leaves_challenge platform call)
    · exact truthful
  unfold processAck
  split_ifs
  · refine opened.bind fun next kept => ?_
    have effect {after : Prop} (outcome : after = Truthful covered next.tcb ∨
        ackProgresses next.tcb packet = true ∧
          after = Truthful covered (slideUnacked (advanceUna packet next.tcb))) : after := by
      rcases outcome with same | ⟨-, moved⟩
      · exact same ▸ kept
      · exact moved ▸ truthful_slideUnacked (kept.congr rfl)
    exact (flightView_truthful.ackView.effect_applyAck platform packet next).mono
      (fun _ outcome => effect outcome.1) fun _ => effect
  · exact truthful

/-- An inbound segment marks what its SACK blocks cover. -/
theorem truthful_processInbound {packet : Packet Mbuf} (trimOffset : BitVec 32)
    (mbufAbsorbed : Option Bool) (ready : SackReady covered packet.sackBlocks tcb) :
    Truthful covered
      (processInbound platform packet tcb trimOffset mbufAbsorbed).call.tcb := by
  have blocks : ∀ token ∈ packet.tokens, token.kind = 5 →
      ∀ block ∈ token.sackBlocks, block ∈ packet.sackBlocks := by
    intro token member kind block chosen
    refine List.mem_flatMap.mpr ⟨token, List.mem_filter.mpr ⟨member, ?_⟩, chosen⟩
    exact decide_eq_true kind
  refine runStages_screened platform packet _ (fun result => Truthful covered result.call.tcb)
    (fun _ same => ready.truthful.congr (congrArg Screened.txUnackedRing same)) fun _ same => ?_
  have ready := ready.congr (congrArg Screened.txUnackedRing same)
  refine runStages_cons (truthful_processOptions platform packet blocks ready)
    fun parsed marked => ?_
  refine runStages_cons (truthful_processAck platform packet marked) fun acked kept => ?_
  exact (ringsView_truthful.view_receiveStages platform packet acked).mpr kept

/-! ## Timers -/

theorem truthful_retransmitFirst (wired : tcb.txEgressConduit.isSome = true)
    (truthful : Truthful covered tcb) :
    Ensures (tcb.retransmitFirst platform) (Truthful fun _ => false)
      (Truthful fun _ => false) := by
  unfold retransmitFirst
  split
  next ring egress bound _ =>
    have cleared : Accounted (fun _ => false) (clearSacked ring).refresh :=
      accounted_refresh_iff.mpr (accounted_clearSacked (truthful ring bound))
    dsimp only
    split_ifs
    · exact (truthful_of_ring rfl).mpr
        ((accounted_modifyPeekSlot_iff (fun _ => by rfl) 0).mpr cleared)
    · exact (truthful_of_ring rfl).mpr cleared
    · exact (truthful_of_ring rfl).mpr cleared
  next unbound =>
    intro ring bound
    obtain ⟨egress, wire⟩ := Option.isSome_iff_exists.mp wired
    exact absurd wire (unbound ring egress bound)

variable (now : BitVec 64)

/-- What a tick knows of the segments: a timeout forgets them all. -/
def coveredTick (now : BitVec 64) (tcb : Tcb Mbuf) (covered : Nat → Bool) : Nat → Bool :=
  if tcb.timesOut now then fun _ => false else covered

theorem truthful_tickRetransmission (trackerRto : BitVec 32) (openPhase : tcb.phase ≠ .closed)
    (wired : tcb.timesOut now = true → tcb.txEgressConduit.isSome = true)
    (truthful : Truthful covered tcb) :
    Ensures (tcb.tickRetransmission platform now trackerRto)
      (Truthful (coveredTick now tcb covered)) (Truthful (coveredTick now tcb covered)) := by
  have quiet (untimely : ¬ tcb.timesOut now = true) : coveredTick now tcb covered = covered :=
    if_neg untimely
  unfold tickRetransmission tickFlight
  dsimp only
  split_ifs with flight unarmed expired exhausted
  · rw [quiet fun due => (of_decide_eq_true due).2.2.1 unarmed]
    exact truthful.congr rfl
  · rw [quiet fun due => (of_decide_eq_true due).2.2.2.2 exhausted]
    exact truthful.congr rfl
  · have due : tcb.timesOut now = true :=
      decide_eq_true ⟨openPhase, flight, unarmed, expired, exhausted⟩
    rw [coveredTick, if_pos due]
    exact truthful_retransmitFirst platform (wired due) (truthful.congr rfl)
  · rw [quiet fun due => expired (of_decide_eq_true due).2.2.2.1]
    exact truthful.congr rfl
  · rw [quiet fun due => flight (of_decide_eq_true due).2.1]
    exact truthful.congr (ringsView_ring.leaves_tickIdle now trackerRto tcb)

theorem truthful_tickArp (truthful : Truthful covered tcb) :
    Truthful covered (tcb.tickArp now) := by
  unfold tickArp
  split_ifs
  · exact truthful.congr rfl
  · exact truthful_map truthful rfl fun _ _ => accounted_releaseAll _
  · exact truthful
  · exact truthful

theorem truthful_onTick (trackerRto : BitVec 32)
    (wired : tcb.timesOut now = true → tcb.txEgressConduit.isSome = true)
    (truthful : Truthful covered tcb) :
    Truthful (coveredTick now tcb covered) (tcb.onTick platform now trackerRto) := by
  unfold onTick
  split_ifs with closed
  · rw [coveredTick, if_neg fun due => (of_decide_eq_true due).1 closed]
    exact truthful
  · have sections : Ensures (tcb.tickSections platform now trackerRto)
        (Truthful (coveredTick now tcb covered)) (Truthful (coveredTick now tcb covered)) := by
      refine Ensures.bind (truthful_tickRetransmission platform now trackerRto closed wired
        truthful) fun timed kept => ?_
      refine Ensures.bind ((ringsView_ring.leaves_tickPersist now timed).mono
        (fun _ => kept.congr) fun _ => kept.congr) fun persisting kept => ?_
      refine Ensures.bind ((ringsView_ring.leaves_tickKeepalive now persisting).mono
        (fun _ => kept.congr) fun _ => kept.congr) fun probing kept => ?_
      exact truthful_tickArp now kept
    cases outcome : tcb.tickSections platform now trackerRto with
    | error result =>
        rw [outcome] at sections
        exact sections
    | ok next =>
        rw [outcome] at sections
        exact sections

/-! ## New segments -/

/-- The next slots of the ring are free and without a mark. -/
abbrev CleanSlots (count : Nat) (tcb : Tcb Mbuf) : Prop :=
  ∀ ring ∈ tcb.txUnackedRing, ring.localIngressCursor + count ≤ ring.localEgressCursor + capacity ∧
      ∀ ahead < count, (entryAt ring (ring.localIngressCursor + ahead)).isSacked = false

theorem CleanSlots.congr {count : Nat} (clean : CleanSlots count tcb)
    (same : after.txUnackedRing = tcb.txUnackedRing) : CleanSlots count after := by
  unfold CleanSlots
  rw [same]
  exact clean

theorem truthful_commit {count : Nat} {frame : Frame}
    (clean : CleanSlots (count + 1) tcb) (truthful : Truthful covered tcb)
    (written : after.txUnackedRing = tcb.txUnackedRing.map (·.commit (hold frame))) :
    Truthful covered after ∧ CleanSlots count after := by
  constructor
  · refine truthful_map truthful written fun ring bound accounted => ?_
    obtain ⟨room, unmarked⟩ := clean ring bound
    exact accounted_commit accounted frame (by omega) (unmarked 0 (Nat.succ_pos count))
  · intro next held
    rw [written] at held
    obtain ⟨ring, bound, rfl⟩ := Option.map_eq_some_iff.mp held
    obtain ⟨room, unmarked⟩ := clean ring bound
    dsimp only [commit]
    refine ⟨by omega, fun ahead small => ?_⟩
    have next := unmarked (1 + ahead) (by omega)
    rw [← Nat.add_assoc] at next
    exact (isSacked_commit ring frame _).trans next

theorem truthful_sendChunks {mss : Nat} (positive : 0 < mss) (buffers : Nat)
    (bytes : Bytes) (clean : CleanSlots (min buffers (segmentCount mss bytes.length)) tcb)
    (truthful : Truthful covered tcb) :
    Truthful covered (sendChunks mss buffers bytes tcb).1 := by
  induction buffers generalizing bytes tcb with
  | zero => exact truthful
  | succ buffers ih =>
      rw [sendChunks]
      split_ifs with empty
      · exact truthful
      · rw [segmentCount_step positive (List.length_pos_iff.mpr empty), ← List.length_drop,
          Nat.succ_min_succ] at clean
        obtain ⟨sent, remaining⟩ := truthful_commit clean truthful
          (show (tcb.sendChunk (bytes.take mss)).txUnackedRing = _ from rfl)
        exact ih (bytes.drop mss) remaining sent

theorem truthful_send (buffer : Bytes) (clean : CleanSlots (min platform.buffers
      (segmentCount tcb.effectiveMss (tcb.toSend buffer.length))) tcb)
    (truthful : Truthful covered tcb) : Truthful covered (tcb.send platform buffer).1 := by
  rcases send_cases platform buffer tcb with ⟨-, flags, result, sends, -⟩ | ⟨-, -, sends⟩
  · rw [sends]
    exact truthful.congr rfl
  · rw [sends]
    refine truthful_sendChunks (effectiveMss_bounds tcb).1 platform.buffers _ ?_
      (truthful.congr rfl)
    rw [List.length_take, Nat.min_eq_left (toSend_le tcb buffer.length)]
    exact clean.congr rfl

theorem truthful_trackControl (frame : Frame) {flags : BitVec 8} (truthful : Truthful covered tcb)
    (clean : has flags (Flag.syn ||| Flag.fin) = true → tcb.txUnackedRing.isSome = true →
      CleanSlots (0 + 1) tcb) :
    Truthful covered (tcb.trackControl platform frame flags) := by
  unfold trackControl
  split
  next tracks =>
    split
    next => exact truthful
    next ring bound =>
      split
      next =>
        have written : some (ring.commit (hold frame)) =
            tcb.txUnackedRing.map (·.commit (hold frame)) := by
          rw [bound]
          rfl
        exact (truthful_commit (clean tracks (Option.isSome_of_eq_some bound)) truthful written).1
      next => exact truthful.congr rfl
  next => exact truthful

theorem truthful_dispatch
    (clean : CleanSlots (TransmitOperation.dispatch.unackedDemand platform tcb) tcb)
    (truthful : Truthful covered tcb) :
    Truthful covered (tcb.dispatchControlFrames platform) := by
  unfold dispatchControlFrames
  split
  next => exact truthful
  next egress wire =>
    split_ifs with due given
    · refine Truthful.congr (?_ : Truthful covered (trackControl platform _ _ _)) rfl
      refine truthful_trackControl platform _ (truthful.congr rfl) fun tracks kept => ?_
      have needed : TransmitOperation.dispatch.unackedDemand platform tcb = 0 + 1 :=
        if_pos ⟨decide_eq_true ⟨Option.isSome_of_eq_some wire, due⟩, given,
          decide_eq_true ⟨tracks, kept⟩⟩
      exact (needed ▸ clean).congr rfl
    · exact truthful.congr rfl
    · exact truthful

/-! ## Runs -/

/-- The sequence numbers of a segment lie in a block, on the circle of the numbers. -/
def Frame.liesIn (frame : Frame) (block : BitVec 32 × BitVec 32) : Bool :=
  (frame.tcpSeq - block.1).toNat + frame.seqLength ≤ (block.2 - block.1).toNat

/-- The two signed comparisons amount to containment for a block that is not shorter than the
segment. -/
theorem liesIn_of_sackCovers {frame : Frame} {block : BitVec 32 × BitVec 32}
    (covers : sackCovers block frame = true)
    (long : frame.seqLength ≤ (block.2 - block.1).toNat) : frame.liesIn block = true := by
  have ends := of_decide_eq_true covers
  unfold Frame.liesIn
  unfold Frame.seqEnd at ends
  have split : block.2 - block.1 = frame.tcpSeq - block.1 + BitVec.ofNat 32 frame.seqLength +
      (block.2 - (frame.tcpSeq + BitVec.ofNat 32 frame.seqLength)) := by bv_omega
  generalize frame.tcpSeq - block.1 = front at *
  generalize block.2 - (frame.tcpSeq + BitVec.ofNat 32 frame.seqLength) = back at *
  rw [split] at long ⊢
  rw [decide_eq_true_iff]
  rw [front.toInt_eq_toNat_cond, back.toInt_eq_toNat_cond] at ends
  rw [BitVec.toNat_add, BitVec.toNat_add, BitVec.toNat_ofNat] at long ⊢
  omega

/-- No block that passes the comparisons for a frame is shorter than it. -/
def LongFor (blocks : List (BitVec 32 × BitVec 32)) (frame : Frame) : Prop :=
  ∀ block ∈ blocks, sackCovers block frame = true → frame.seqLength ≤ (block.2 - block.1).toNat

-- by the list: pairs of words are a finite type, but too large to go through
instance (blocks : List (BitVec 32 × BitVec 32)) (frame : Frame) :
    Decidable (LongFor blocks frame) :=
  show Decidable (∀ block ∈ blocks, _) from List.decidableBAll _ _

/-- The same for every segment in the ring. -/
abbrev LongBlocks (blocks : List (BitVec 32 × BitVec 32)) (tcb : Tcb Mbuf) : Prop :=
  ∀ ring ∈ tcb.txUnackedRing, ∀ segment ∈ ring.entries, LongFor blocks segment.frame

theorem entryAt_mem_entries {ring : UnackedRing} {number : Nat} (held : InRing ring number) :
    entryAt ring number ∈ ring.entries := by
  refine List.mem_map.mpr ⟨number - ring.localEgressCursor, ?_, ?_⟩
  · exact List.mem_range.mpr (Nat.sub_lt_sub_right held.1 held.2)
  · rw [peekSlot, Nat.add_sub_cancel' held.1]
    rfl

/-- The engine accepts the segment as an acknowledgement: it is in the window, its hop count
and its timestamps are plausible, and it acknowledges nothing that was not sent. -/
def acceptsAck (packet : Packet Mbuf) (tcb : Tcb Mbuf) : Bool :=
  packet.flagged Flag.ack ∧ packet.flagged (Flag.syn ||| Flag.rst) = false ∧ passes packet tcb ∧
      (ackProgresses tcb packet ∨ tcb.phase ≠ .synRcvd ∧ (packet.tcpAck - tcb.sndUna).toInt ≤ 0)

/-- A connection with the numbers of the segments that an accepted ACK has covered since
the last timeout. -/
structure SackRun (Mbuf : Type) where
  tcb : Tcb Mbuf
  covered : Nat → Bool

/-- What happens to the block of a connection.  A gateway drains the ring of a connection
that ends; everything else leaves it alone. -/
inductive SackMove (Mbuf : Type) where
  | operate (platform : Platform) (operation : TransmitOperation Mbuf)
  | drain
  | adjust (change : Tcb Mbuf → Tcb Mbuf)

namespace SackRun

variable (run : SackRun Mbuf)

/-- The segments that are covered once an operation is done. -/
def coveredAfter : TransmitOperation Mbuf → Nat → Bool
  | .inbound packet _ _ => fun number =>
      run.covered number || (acceptsAck packet run.tcb && run.tcb.txUnackedRing.any fun ring =>
          InRing ring number && packet.sackBlocks.any (entryAt ring number).frame.liesIn)
  | .tick now _ => coveredTick now run.tcb run.covered
  | _ => run.covered

def step : SackMove Mbuf → SackRun Mbuf
  | .operate platform operation =>
      { tcb := operation.run platform run.tcb, covered := run.coveredAfter operation }
  | .drain =>
      { run with
        tcb.txUnackedRing :=
          run.tcb.txUnackedRing.map fun ring => releaseAll ring.occupancy ring }
  | .adjust change =>
      { run with tcb := { change run.tcb with txUnackedRing := run.tcb.txUnackedRing } }

/-- New segments find clean slots, SACK blocks come with an ACK that is accepted and are not
too short, and a timeout finds the egress conduit. -/
def Regular : SackMove Mbuf → Prop
  | .operate platform operation =>
      CleanSlots (operation.unackedDemand platform run.tcb) run.tcb ∧ match operation with
        | .inbound packet _ _ =>
            acceptsAck packet run.tcb = true ∧ LongBlocks packet.sackBlocks run.tcb ∨
              packet.sackBlocks = []
        | .tick now _ => run.tcb.timesOut now = true → run.tcb.txEgressConduit.isSome = true
        | _ => True
  | _ => True

/-- Every marked segment of the ring was covered. -/
def Faithful : Prop :=
  ∀ ring ∈ run.tcb.txUnackedRing, ∀ number, InRing ring number →
    (entryAt ring number).isSacked = true → run.covered number = true

/-- The invariant of a run. -/
def Sound : Prop := Truthful run.covered run.tcb

theorem sound_step (move : SackMove Mbuf) (truthful : run.Sound)
    (regular : run.Regular move) : (run.step move).Sound := by
  cases move with
  | drain => exact truthful_map truthful rfl fun _ _ => accounted_releaseAll _
  | adjust change => exact truthful.congr rfl
  | operate platform operation =>
      obtain ⟨clean, regular⟩ := regular
      cases operation with
      | dispatch => exact truthful_dispatch platform clean truthful
      | send buffer => exact truthful_send platform buffer clean truthful
      | tick now trackerRto => exact truthful_onTick platform now trackerRto regular truthful
      | inbound packet trimOffset mbufAbsorbed =>
          refine truthful_processInbound platform trimOffset mbufAbsorbed ⟨?_, ?_⟩
          · intro ring bound
            refine (truthful ring bound).weaken fun number known => ?_
            exact Bool.or_eq_true_iff.mpr (.inl known)
          · intro ring bound block member number held covers
            rcases regular with ⟨accepted, long⟩ | none
            · have here : (run.tcb.txUnackedRing.any fun ring => InRing ring number &&
                  packet.sackBlocks.any (entryAt ring number).frame.liesIn) = true := by
                rw [show run.tcb.txUnackedRing = some ring from bound, Option.any_some,
                  decide_eq_true held]
                exact List.any_eq_true.mpr ⟨block, member, liesIn_of_sackCovers covers
                  (long ring bound _ (entryAt_mem_entries held) block member covers)⟩
              refine Bool.or_eq_true_iff.mpr (.inr ?_)
              rw [accepted, here]
              rfl
            · rw [none] at member
              exact absurd member List.not_mem_nil

/-- The run of a block before its first move. -/
def start (tcb : Tcb Mbuf) : SackRun Mbuf := ⟨tcb, fun _ => false⟩

end SackRun

/-- The ring of the block has no mark in any slot. -/
def Unmarked (tcb : Tcb Mbuf) : Prop :=
  ∀ ring ∈ tcb.txUnackedRing, ring.Bounded ∧ ∀ slot, (ring.ring slot).isSacked = false

/-- In every regular run that starts without marks, a segment of the ring is marked only if
an accepted ACK has covered it since it was put there and since the last timeout. -/
theorem marks_covered (tcb : Tcb Mbuf) (moves : List (SackMove Mbuf)) (unmarked : Unmarked tcb)
    (regular : Admissible SackRun.step SackRun.Regular (.start tcb) moves) :
    (execute SackRun.step (.start tcb) moves).Faithful := by
  have initially : (SackRun.start tcb).Sound := by
    intro ring bound
    obtain ⟨bounded, clean⟩ := unmarked ring bound
    exact ⟨bounded, fun number _ marked => absurd ((clean _).symm.trans marked) Bool.false_ne_true⟩
  have sound : (execute SackRun.step (.start tcb) moves).Sound :=
    execute_invariant_of_admissible SackRun.sound_step initially regular
  exact fun ring bound number held marked => ((sound ring bound).marked number held marked).2

/-! ## Examples of runs -/

/-- An open connection that has not sent anything. -/
def openSender : Tcb Unit :=
  { phase := .established, sndUna := 1000, sndNxt := 1000, rcvNxt := 500, sndWnd := 65535,
    rcvWnd := 4096, cwnd := 14600, ssthresh := 65535, sackPermitted := 1,
    txEgressConduit := some [], txMbufPool := true,
    txUnackedRing := some ⟨fun _ => ⟨Frame.zero, false, false⟩, 0, 0, 0⟩ }

/-- An ACK with a SACK block for the numbers from 1010 to 1020. -/
def sackPacket (ack : BitVec 32) : Packet Unit where
  tcpSeq := 500
  tcpAck := ack
  tcpWindow := 65535
  tcpFlags := Flag.ack
  options := [1, 1, 5, 10, 0, 0, 3, 0xF2, 0, 0, 3, 0xFC]
  ipTtl := 64
  ipTos := 0
  payloadLen := 0
  payloadOffset := 0
  mbuf := none

/-- Two segments of ten bytes, and an ACK for the second one. -/
def sackMoves (ack : BitVec 32) : List (SackMove Unit) :=
  [.operate {} (.send (List.replicate 10 7)), .operate {} (.send (List.replicate 10 8)),
    .operate {} (.inbound (sackPacket ack) 0 none)]

theorem unmarked_openSender : Unmarked openSender := by
  rintro ring ⟨rfl⟩
  exact ⟨by decide, fun _ => rfl⟩

/-- The second segment is marked. -/
def secondMarked (ack : BitVec 32) : Bool :=
  (execute SackRun.step (.start openSender) (sackMoves ack)).tcb.txUnackedRing.any fun ring =>
    InRing ring 1 && (entryAt ring 1).isSacked

/-- An ACK for what was sent. -/
theorem marks_covered_sent :
    secondMarked 1000 = true ∧
      (execute SackRun.step (.start openSender) (sackMoves 1000)).Faithful := by
  refine ⟨by decide +kernel, marks_covered openSender (sackMoves 1000) unmarked_openSender ?_⟩
  exact ⟨⟨by decide +kernel, trivial⟩, ⟨by decide +kernel, trivial⟩,
    ⟨by decide +kernel, .inl ⟨by decide +kernel, by decide +kernel⟩⟩, trivial⟩

/-- An ACK for bytes that were never sent is answered with a challenge, but its SACK block
has marked the second segment. -/
theorem not_faithful_unsent :
    Unmarked openSender ∧
      ¬ (execute SackRun.step (.start openSender) (sackMoves 1021)).Faithful := by
  refine ⟨unmarked_openSender, fun faithful => ?_⟩
  have marked : secondMarked 1021 = true := by decide +kernel
  have uncovered : (execute SackRun.step (.start openSender) (sackMoves 1021)).covered 1 =
      false := by decide +kernel
  obtain ⟨ring, bound, here⟩ := (Option.any_eq_true ..).mp marked
  rw [Bool.and_eq_true] at here
  have known := faithful ring bound 1 (of_decide_eq_true here.1) here.2
  exact Bool.false_ne_true (uncovered.symm.trans known)

end SlabFlux.Net.Tcp
