import SlabFlux.Net.Tcp.Arrival

/-!
# Acknowledgements stay inside the flight

`snd_una` moves inside the flight, and the unacknowledged ring loses from its front what ends
at or before it.  What waits in the ring keeps everything but its SACK mark, its
acknowledgement and its window, and the buffers that are returned are those of the segments
that leave.
-/

namespace SlabFlux.Net.Tcp

open SlabFlux.Core Lib SpscRingConduit OutboundSegment
open Core.SpscRingConduit (capacity)

variable {Mbuf : Type} {ring : UnackedRing}

/-! ## Rings up to what changes while a segment waits -/

/-- A segment without its SACK mark, and without the acknowledgement and the window, which a
retransmission refreshes. -/
def OutboundSegment.kept (segment : OutboundSegment) : Frame × Bool :=
  ({ segment.frame with tcpAck := 0, tcpWindow := 0 }, segment.held)

/-- The slots of a ring and its cursors, without the cached one. -/
structure KeptRing where
  slots : Nat → Frame × Bool
  ingress : Nat
  egress : Nat

def keptRing (ring : UnackedRing) : KeptRing where
  slots slot := (ring.ring slot).kept
  ingress := ring.localIngressCursor
  egress := ring.localEgressCursor

theorem keptRing_refresh (ring : UnackedRing) : keptRing ring.refresh = keptRing ring := by
  unfold refresh
  split_ifs <;> rfl

theorem keptRing_modifyPeekSlot {offset : Nat} {change : OutboundSegment → OutboundSegment}
    (keeps : (change (ring.peekSlot offset)).kept = (ring.peekSlot offset).kept) :
    keptRing (ring.modifyPeekSlot offset change) = keptRing ring := by
  have slots : (fun slot => ((ring.modifyPeekSlot offset change).ring slot).kept) =
      fun slot => (ring.ring slot).kept := by
    funext slot
    dsimp only [modifyPeekSlot]
    rw [Function.update_apply]
    split_ifs with here
    · rw [here]
      exact keeps
    · rfl
  unfold keptRing
  rw [slots]
  rfl

theorem keptRing_of_remarked {ring after : UnackedRing} (remarked : Remarked ring after) :
    keptRing after = keptRing ring := by
  have slots : (fun slot => (after.ring slot).kept) = fun slot => (ring.ring slot).kept := by
    funext slot
    unfold kept
    rw [remarked.frame, remarked.held]
  unfold keptRing
  rw [slots, remarked.ingress, remarked.egress]

namespace KeptRing

/-- The entries that are committed and not consumed. -/
def entries (ring : KeptRing) : List (Frame × Bool) :=
  (List.range (ring.ingress - ring.egress)).map fun offset =>
    ring.slots ((ring.egress + offset) % capacity)

/-- One of the first entries is in the slot. -/
abbrev isFront (ring : KeptRing) (count slot : Nat) : Prop :=
  ∃ offset < count, slot = (ring.egress + offset) % capacity

/-- Return the buffers of the first entries and consume them. -/
def release (ring : KeptRing) (count : Nat) : KeptRing :=
  { ring with
    slots := fun slot =>
      if ring.isFront count slot then ((ring.slots slot).1, false) else ring.slots slot
    egress := ring.egress + count }

/-- How many of the first entries an acknowledgement covers. -/
def covered (ring : KeptRing) (ack : BitVec 32) : Nat :=
  (ring.entries.takeWhile fun entry => fullyAcked ack entry.1).length

theorem release_zero (ring : KeptRing) : ring.release 0 = ring := by
  have none (slot : Nat) : ¬ring.isFront 0 slot := fun ⟨_, less, _⟩ => Nat.not_lt_zero _ less
  unfold release
  simp only [none, if_false, Nat.add_zero]

theorem release_release (ring : KeptRing) (first second : Nat) :
    (ring.release first).release second = ring.release (first + second) := by
  have front (slot : Nat) : ring.isFront (first + second) slot ↔
      (ring.release first).isFront second slot ∨ ring.isFront first slot := by
    unfold isFront release
    dsimp only
    constructor
    · rintro ⟨offset, less, here⟩
      by_cases early : offset < first
      · exact .inr ⟨offset, early, here⟩
      · exact .inl ⟨offset - first, by omega, by rw [here]; congr 1; omega⟩
    · rintro (⟨offset, less, here⟩ | ⟨offset, less, here⟩)
      · exact ⟨first + offset, by omega, by rw [here, Nat.add_assoc]⟩
      · exact ⟨offset, by omega, here⟩
  have slots : ((ring.release first).release second).slots =
      (ring.release (first + second)).slots := by
    funext slot
    have split := front slot
    change (if (ring.release first).isFront second slot then
      ((if ring.isFront first slot then ((ring.slots slot).1, false) else ring.slots slot).1, false)
      else if ring.isFront first slot then ((ring.slots slot).1, false) else ring.slots slot) =
        if ring.isFront (first + second) slot then ((ring.slots slot).1, false)
        else ring.slots slot
    by_cases late : (ring.release first).isFront second slot
    · by_cases early : ring.isFront first slot <;> simp [split, late, early]
    · by_cases early : ring.isFront first slot <;> simp [split, late, early]
  have egress : ((ring.release first).release second).egress =
      (ring.release (first + second)).egress := Nat.add_assoc _ _ _
  unfold release at *
  simp only [KeptRing.mk.injEq]
  exact ⟨slots, trivial, egress⟩

/-- Consuming drops entries from the front. -/
theorem entries_release {ring : KeptRing} {count : Nat}
    (room : ring.ingress ≤ ring.egress + capacity) :
    (ring.release count).entries = ring.entries.drop count := by
  have size : capacity = 1024 := rfl
  apply List.ext_getElem
  · simp only [entries, List.length_map, List.length_range, List.length_drop]
    change ring.ingress - (ring.egress + count) = _
    omega
  · intro offset inside _
    simp only [entries, List.length_map, List.length_range] at inside
    have below : offset < ring.ingress - (ring.egress + count) := inside
    have behind : ¬ring.isFront count ((ring.egress + (count + offset)) % capacity) := by
      rintro ⟨front, less, here⟩
      rw [size] at here room
      omega
    simp only [entries, List.getElem_map, List.getElem_range, List.getElem_drop]
    change (ring.release count).slots ((ring.egress + count + offset) % capacity) = _
    rw [Nat.add_assoc]
    exact if_neg behind

end KeptRing

/-! ## The loop that releases acknowledged segments -/

/-- The cursors of a ring whose entries can all be looked at, one after the other. -/
structure Browsable (ring : UnackedRing) : Prop where
  ordered : ring.localEgressCursor ≤ ring.localIngressCursor
  shown : ring.refresh.available ≤ ring.occupancy
  all : ring.refresh.available = 0 → ring.occupancy = 0

theorem browsable_of_bounded (bounded : ring.Bounded) : Browsable ring := by
  obtain ⟨consumed, published, -⟩ := bounded
  refine ⟨Nat.le_trans consumed published, ?_, ?_⟩ <;>
    · unfold refresh available occupancy
      split_ifs
      · dsimp only
        omega
      · omega

theorem Browsable.remarked {ring after : UnackedRing} (browsable : Browsable ring)
    (remarked : Remarked ring after) : Browsable after := by
  have occupancy : after.occupancy = ring.occupancy := by
    unfold occupancy
    rw [remarked.ingress, remarked.egress]
  refine ⟨?_, ?_, ?_⟩
  · rw [remarked.ingress, remarked.egress]
    exact browsable.ordered
  · rw [remarked.horizon, occupancy]
    exact browsable.shown
  · rw [remarked.horizon, occupancy]
    exact browsable.all

/-- One turn of the loop. -/
theorem keptRing_consume (ring : UnackedRing) :
    keptRing (ring.refresh.modifyPeekSlot 0 release).consume = (keptRing ring).release 1 := by
  obtain ⟨slotsEq, ingressEq, egressEq⟩ := ring_refresh ring
  have slots : (fun slot =>
      ((ring.refresh.modifyPeekSlot 0 release).ring slot).kept) =
        ((keptRing ring).release 1).slots := by
    funext slot
    have front : (keptRing ring).isFront 1 slot ↔
        slot = (ring.localEgressCursor + 0) % capacity := by
      constructor
      · rintro ⟨offset, less, here⟩
        obtain rfl : offset = 0 := by omega
        exact here
      · exact fun here => ⟨0, Nat.zero_lt_one, here⟩
    dsimp only [modifyPeekSlot, KeptRing.release]
    rw [slotsEq, egressEq, Function.update_apply]
    by_cases here : slot = (ring.localEgressCursor + 0) % capacity
    · rw [if_pos here, if_pos (front.mpr here), here]
      rfl
    · rw [if_neg here, if_neg (mt front.mp here)]
      rfl
  unfold keptRing consume at *
  rw [slots]
  dsimp only [modifyPeekSlot, KeptRing.release]
  rw [ingressEq, egressEq]

theorem browsable_consume (browsable : Browsable ring) (some : ring.refresh.available ≠ 0) :
    Browsable (ring.refresh.modifyPeekSlot 0 release).consume := by
  obtain ⟨ordered, shown, all⟩ := browsable
  obtain ⟨-, ingress, egress⟩ := ring_refresh ring
  generalize ring.refresh = refreshed at *
  have horizon : (refreshed.modifyPeekSlot 0 release).consume.refresh.available =
      if refreshed.localEgressCursor + 1 = refreshed.cachedIngressCursor then
        refreshed.localIngressCursor - (refreshed.localEgressCursor + 1)
      else refreshed.cachedIngressCursor - (refreshed.localEgressCursor + 1) := by
    by_cases last : refreshed.localEgressCursor + 1 = refreshed.cachedIngressCursor
    · rw [if_pos last, refresh, if_pos (by exact last)]
      rfl
    · rw [if_neg last, refresh, if_neg (by exact last)]
      rfl
  have left : (refreshed.modifyPeekSlot 0 release).consume.occupancy =
      refreshed.localIngressCursor - (refreshed.localEgressCursor + 1) := rfl
  unfold occupancy at shown all
  unfold available at shown all some
  refine ⟨?_, ?_, ?_⟩
  · change refreshed.localEgressCursor + 1 ≤ refreshed.localIngressCursor
    omega
  · rw [horizon]
    split_ifs <;> omega
  · rw [horizon]
    split_ifs <;> omega

theorem covered_of_empty (ack : BitVec 32) (empty : ring.occupancy = 0) :
    (keptRing ring).covered ack = 0 := by
  have none : (keptRing ring).entries = [] := by
    unfold KeptRing.entries
    rw [List.map_eq_nil_iff, List.range_eq_nil]
    exact empty
  unfold KeptRing.covered
  rw [none]
  rfl

theorem entries_keptRing (room : ring.localIngressCursor ≤ ring.localEgressCursor + capacity)
    (some : ring.occupancy ≠ 0) :
    (keptRing ring).entries =
      (ring.refresh.peekSlot 0).kept :: ((keptRing ring).release 1).entries := by
  obtain ⟨slots, -, egress⟩ := ring_refresh ring
  have first : (ring.refresh.peekSlot 0).kept =
      (keptRing ring).slots (((keptRing ring).egress + 0) % capacity) := by
    unfold peekSlot
    rw [slots, egress]
    rfl
  have size : ring.localIngressCursor - ring.localEgressCursor =
      ring.localIngressCursor - ring.localEgressCursor - 1 + 1 := by
    unfold occupancy at some
    omega
  rw [KeptRing.entries_release room, first]
  change List.map _ (List.range (ring.localIngressCursor - ring.localEgressCursor)) =
    _ :: List.drop 1 (List.map _ (List.range (ring.localIngressCursor - ring.localEgressCursor)))
  rw [size, List.range_succ_eq_map, List.map_cons, List.drop_one, List.tail_cons]

/-- The loop consumes the entries that the acknowledgement covers. -/
theorem keptRing_consumeAcked (ack : BitVec 32) {fuel : Nat} (browsable : Browsable ring)
    (room : ring.localIngressCursor ≤ ring.localEgressCursor + capacity)
    (enough : ring.occupancy ≤ fuel) :
    keptRing (consumeAcked ack fuel ring) =
      (keptRing ring).release ((keptRing ring).covered ack) := by
  have stays {ring : UnackedRing} (empty : (keptRing ring).covered ack = 0) :
      keptRing ring.refresh = (keptRing ring).release ((keptRing ring).covered ack) := by
    rw [empty, KeptRing.release_zero, keptRing_refresh]
  induction fuel generalizing ring with
  | zero => exact stays (covered_of_empty ack (Nat.le_zero.mp enough))
  | succ fuel ih =>
      rw [consumeAcked]
      by_cases none : ring.refresh.available = 0
      · rw [if_pos none]
        exact stays (covered_of_empty ack (browsable.all none))
      · have some : ring.occupancy ≠ 0 := fun empty =>
          none (Nat.le_zero.mp (empty ▸ browsable.shown))
        have first := entries_keptRing room some
        have test : fullyAcked ack (ring.refresh.peekSlot 0).frame =
            fullyAcked ack (ring.refresh.peekSlot 0).kept.1 := rfl
        rw [if_neg none, test]
        by_cases covers : fullyAcked ack (ring.refresh.peekSlot 0).kept.1 = true
        · have shrunk : (keptRing ring).covered ack =
              1 + ((keptRing ring).release 1).covered ack := by
            unfold KeptRing.covered
            rw [first, List.takeWhile_cons, if_pos covers, List.length_cons, Nat.add_comm]
          obtain ⟨-, ingress, egress⟩ := ring_refresh ring
          have left : (ring.refresh.modifyPeekSlot 0 release).consume.occupancy =
              ring.localIngressCursor - (ring.localEgressCursor + 1) := by
            rw [← ingress, ← egress]
            rfl
          rw [if_pos covers, ih (browsable_consume browsable none), keptRing_consume,
            KeptRing.release_release, shrunk]
          · change ring.refresh.localIngressCursor ≤ ring.refresh.localEgressCursor + 1 + capacity
            omega
          · unfold occupancy at enough
            omega
        · have empty : (keptRing ring).covered ack = 0 := by
            unfold KeptRing.covered
            rw [first, List.takeWhile_cons, if_neg covers]
            rfl
          rw [if_neg covers]
          exact stays empty

/-! ## What a call leaves of the flight -/

/-- The segment ends in the flight. -/
abbrev endsInFlight (tcb : Tcb Mbuf) (segment : OutboundSegment) : Prop :=
  0 < (segment.frame.seqEnd - tcb.sndUna).toNat ∧
    (segment.frame.seqEnd - tcb.sndUna).toNat ≤ (tcb.sndNxt - tcb.sndUna).toNat

/-- The segment ends at or before a number, counted from where the flight starts. -/
def endsBy (start number : BitVec 32) (segment : OutboundSegment) : Bool :=
  (segment.frame.seqEnd - start).toNat ≤ (number - start).toNat

/-- How many of the first segments end at or before the new `snd_una`. -/
def departing (tcb after : Tcb Mbuf) (ring : UnackedRing) : Nat :=
  (ring.entries.takeWhile (endsBy tcb.sndUna after.sndUna)).length

/-- A block and its ring after a call that stays inside the flight. -/
structure AcksInside (tcb after : Tcb Mbuf) (ring left : UnackedRing) : Prop where
  sndUna : (after.sndUna - tcb.sndUna).toNat ≤ (tcb.sndNxt - tcb.sndUna).toNat
  sndNxt : after.sndNxt = tcb.sndNxt
  ingress : left.localIngressCursor = ring.localIngressCursor
  egress : left.localEgressCursor = ring.localEgressCursor + departing tcb after ring
  segments : left.entries.map kept =
    (ring.entries.dropWhile (endsBy tcb.sndUna after.sndUna)).map kept
  /-- The buffers that are returned are those of the segments that leave. -/
  released : ∀ slot, (left.ring slot).held = true ↔ (ring.ring slot).held = true ∧
    ∀ offset < departing tcb after ring, slot ≠ (ring.localEgressCursor + offset) % capacity

theorem entries_kept (ring : UnackedRing) : (keptRing ring).entries = ring.entries.map kept := by
  unfold KeptRing.entries entries
  rw [List.map_map]
  rfl

theorem takeWhile_congr {Item : Type} {first second : Item → Bool} {items : List Item}
    (same : ∀ item ∈ items, first item = second item) :
    items.takeWhile first = items.takeWhile second := by
  induction items with
  | nil => rfl
  | cons item rest ih =>
      rw [List.takeWhile_cons, List.takeWhile_cons, same item List.mem_cons_self,
        ih fun other member => same other (List.mem_cons_of_mem item member)]

section Call

variable {tcb after : Tcb Mbuf} {left : UnackedRing}

theorem acksInside_of_release (bounded : ring.Bounded)
    (sndUna : (after.sndUna - tcb.sndUna).toNat ≤ (tcb.sndNxt - tcb.sndUna).toNat)
    (sndNxt : after.sndNxt = tcb.sndNxt)
    (kept : keptRing left = (keptRing ring).release (departing tcb after ring)) :
    AcksInside tcb after ring left := by
  have room : (keptRing ring).ingress ≤ (keptRing ring).egress + capacity := bounded.room
  refine ⟨sndUna, sndNxt, congrArg KeptRing.ingress kept, congrArg KeptRing.egress kept, ?_, ?_⟩
  · have front : (ring.entries.takeWhile (endsBy tcb.sndUna after.sndUna) ++
        ring.entries.dropWhile (endsBy tcb.sndUna after.sndUna)).drop (departing tcb after ring) =
          ring.entries.dropWhile (endsBy tcb.sndUna after.sndUna) := List.drop_left
    rw [List.takeWhile_append_dropWhile] at front
    rw [← entries_kept, kept, KeptRing.entries_release room, entries_kept, ← List.map_drop, front]
  · intro slot
    have heldEq : (left.ring slot).held =
        (((keptRing ring).release (departing tcb after ring)).slots slot).2 :=
      congrArg Prod.snd (congrFun (congrArg KeptRing.slots kept) slot)
    rw [heldEq]
    dsimp only [KeptRing.release]
    by_cases front : (keptRing ring).isFront (departing tcb after ring) slot
    · rw [if_pos front]
      obtain ⟨offset, less, here⟩ := front
      exact ⟨fun held => Bool.noConfusion held, fun both => absurd here (both.2 offset less)⟩
    · rw [if_neg front]
      exact ⟨fun held => ⟨held, fun offset less here => front ⟨offset, less, here⟩⟩, And.left⟩

/-- Nothing has been acknowledged. -/
theorem acksInside_of_unmoved (bounded : ring.Bounded)
    (inFlight : ∀ segment ∈ ring.entries, endsInFlight tcb segment)
    (sndUna : after.sndUna = tcb.sndUna) (sndNxt : after.sndNxt = tcb.sndNxt)
    (kept : keptRing left = keptRing ring) : AcksInside tcb after ring left := by
  have stays : departing tcb after ring = 0 := by
    unfold departing
    cases held : ring.entries with
    | nil => rfl
    | cons first rest =>
        have ahead := (inFlight first (held ▸ List.mem_cons_self)).1
        have later : ¬endsBy tcb.sndUna after.sndUna first = true := by
          unfold endsBy
          rw [decide_eq_true_iff, sndUna, BitVec.sub_self]
          exact Nat.not_le.mpr ahead
        rw [List.takeWhile_cons, if_neg later]
        rfl
  refine acksInside_of_release bounded ?_ sndNxt ?_
  · rw [sndUna, BitVec.sub_self]
    exact Nat.zero_le _
  · rw [stays, KeptRing.release_zero, kept]

/-- The test of the loop is right about the segments of a short flight. -/
theorem fullyAcked_eq_endsBy {ack : BitVec 32} {segment : OutboundSegment}
    (short : (tcb.sndNxt - tcb.sndUna).toNat < 2 ^ 31)
    (reached : (ack - tcb.sndUna).toNat ≤ (tcb.sndNxt - tcb.sndUna).toNat)
    (inFlight : endsInFlight tcb segment) :
    fullyAcked ack segment.frame = endsBy tcb.sndUna ack segment := by
  obtain ⟨-, ends⟩ := inFlight
  unfold fullyAcked endsBy
  rw [decide_eq_decide]
  have distance := Sequence.toNat_sub_eq tcb.sndUna segment.frame.seqEnd ack
  rw [distance]
  split_ifs <;> omega

theorem acksInside_of_slid {ack : BitVec 32} {middle : UnackedRing} (bounded : ring.Bounded)
    (short : (tcb.sndNxt - tcb.sndUna).toNat < 2 ^ 31)
    (inFlight : ∀ segment ∈ ring.entries, endsInFlight tcb segment)
    (reached : (ack - tcb.sndUna).toNat ≤ (tcb.sndNxt - tcb.sndUna).toNat)
    (sndUna : after.sndUna = ack) (sndNxt : after.sndNxt = tcb.sndNxt)
    (remarked : Remarked ring middle)
    (kept : keptRing left = keptRing (consumeAcked ack middle.occupancy middle)) :
    AcksInside tcb after ring left := by
  have room : middle.localIngressCursor ≤ middle.localEgressCursor + capacity := by
    rw [remarked.ingress, remarked.egress]
    exact bounded.room
  have browsable := (browsable_of_bounded bounded).remarked remarked
  have slid := keptRing_consumeAcked ack browsable room (Nat.le_refl _)
  rw [keptRing_of_remarked remarked] at slid
  have leaving : (keptRing ring).covered ack = departing tcb after ring := by
    unfold KeptRing.covered departing
    rw [entries_kept, List.takeWhile_map, List.length_map, sndUna]
    refine congrArg List.length (takeWhile_congr fun segment member => ?_)
    exact fullyAcked_eq_endsBy short reached (inFlight segment member)
  refine acksInside_of_release bounded ?_ sndNxt ?_
  · rw [sndUna]
    exact reached
  · rw [kept, slid, leaving]

end Call

/-- `snd_una`, `snd_nxt` and what waits in the unacknowledged ring. -/
structure FlightSide where
  sndUna : BitVec 32
  sndNxt : BitVec 32
  unacked : Option KeptRing

def Tcb.flight (tcb : Tcb Mbuf) : FlightSide where
  sndUna := tcb.sndUna
  sndNxt := tcb.sndNxt
  unacked := tcb.txUnackedRing.map keptRing

theorem flightView_flight : FlightView (Tcb.flight : Tcb Mbuf → FlightSide) where
  same tcb after una nxt ring := by
    simp only [Tcb.flight, una, nxt, ring]
  refresh tcb ring bound := by
    simp only [Tcb.flight, bound, Option.map_some, keptRing_refresh]
  resend tcb ring egress offset bound := by
    have kept : keptRing (ring.modifyPeekSlot offset fun segment =>
        { segment with
          frame := { (ring.peekSlot offset).frame with
            tcpAck := tcb.rcvNxt, tcpWindow := tcb.advertisedWindow } }) = keptRing ring :=
      keptRing_modifyPeekSlot rfl
    simp only [Tcb.flight, Tcb.resend, bound, Option.map_some, kept]

theorem exists_of_unacked {side : Option UnackedRing}
    (same : side.map keptRing = some (keptRing ring)) :
    ∃ left, side = some left ∧ keptRing left = keptRing ring := by
  cases side with
  | none => cases same
  | some left => exact ⟨left, rfl, Option.some.inj same⟩

theorem exists_of_remarked {side : Option UnackedRing} (remarked : RingRemarked (some ring) side) :
    ∃ left, side = some left ∧ Remarked ring left := by
  cases remarked with
  | some remarked => exact ⟨_, rfl, remarked⟩

theorem Touched.numbers {packet : Packet Mbuf} {tcb after : Tcb Mbuf}
    (touched : Touched packet tcb after) :
    after.sndUna = tcb.sndUna ∧ after.sndNxt = tcb.sndNxt ∧ after.phase = tcb.phase := by
  obtain ⟨base, either, only⟩ := touched.only
  rw [only]
  rcases either with rfl | rfl
  · exact ⟨rfl, rfl, rfl⟩
  · rw [afterEcho_only]
    exact ⟨rfl, rfl, rfl⟩

/-- The flight after ACK processing in a phase that has been open. -/
def FlightEffect (packet : Packet Mbuf) (tcb : Tcb Mbuf) (side : FlightSide) : Prop :=
  side = tcb.flight ∨ packet.flagged Flag.ack = true ∧ ackProgresses tcb packet = true ∧
    side = (slideUnacked (advanceUna packet tcb)).flight

theorem flightEffect_processAck (platform : Platform) (packet : Packet Mbuf) {call : Call Mbuf}
    (synchronized : call.tcb.phase.guardsSyn = true) :
    Ensures (processAck platform packet call)
      (fun next => FlightEffect packet call.tcb next.tcb.flight)
      fun result => FlightEffect packet call.tcb result.call.tcb.flight := by
  by_cases acks : packet.flagged Flag.ack = true
  · rw [processAck_of_guardsSyn platform synchronized acks]
    exact (flightView_flight.ackView.effect_applyAck platform packet call).mono
      (fun _ outcome => outcome.1.imp_right fun moved => ⟨acks, moved⟩)
      fun _ => Or.imp_right fun moved => ⟨acks, moved⟩
  · unfold processAck
    rw [if_neg acks]
    exact .inl rfl

/-- What a segment that passes the checks leaves of the flight. -/
theorem flightEffect_processInbound (platform : Platform) {packet : Packet Mbuf} {tcb : Tcb Mbuf}
    (trimOffset : BitVec 32) (mbufAbsorbed : Option Bool)
    (synchronized : tcb.phase.guardsSyn = true) (noSyn : packet.flagged Flag.syn = false)
    (passed : passes packet tcb = true) :
    ∃ checked, Admitted packet tcb checked ∧ FlightEffect packet checked
      (processInbound platform packet tcb trimOffset mbufAbsorbed).call.tcb.flight := by
  obtain ⟨checked, admitted, -, outcome⟩ :=
    processInbound_of_passes platform trimOffset mbufAbsorbed noSyn passed
  refine ⟨checked, admitted, ?_⟩
  let property (side : SendPart) : Prop :=
    FlightEffect packet checked ⟨side.sndUna, side.sndNxt, side.txUnackedRing.map keptRing⟩
  have processed : Ensures
      (processAck platform packet ⟨checked, packet.payloadLen, trimOffset, mbufAbsorbed⟩)
      (fun next => property next.tcb.sendPart) fun result => property result.call.tcb.sendPart :=
    flightEffect_processAck platform packet (admitted.touched.numbers.2.2.symm ▸ synchronized)
  have met := sendPart_ackStages platform packet _ processed
  rw [← outcome] at met
  exact met

/-- ACK processing moves inside the flight, and `snd_nxt` and the ring follow. -/
theorem acksInside_processInbound (platform : Platform) (packet : Packet Mbuf) {tcb : Tcb Mbuf}
    {ring : UnackedRing} (trimOffset : BitVec 32) (mbufAbsorbed : Option Bool)
    (synchronized : tcb.phase.synchronized = true)
    (short : (tcb.sndNxt - tcb.sndUna).toNat < 2 ^ 31)
    (bound : tcb.txUnackedRing = some ring) (bounded : ring.Bounded)
    (inFlight : ∀ segment ∈ ring.entries, endsInFlight tcb segment)
    (lasts : ¬(packet.flagged Flag.syn = true ∧ recycles tcb packet = true)) :
    let after := (processInbound platform packet tcb trimOffset mbufAbsorbed).call.tcb
    ∃ left, after.txUnackedRing = some left ∧ AcksInside tcb after ring left := by
  intro after
  have unmoved (touched : Touched packet tcb after) :
      ∃ left, after.txUnackedRing = some left ∧ AcksInside tcb after ring left := by
    obtain ⟨una, nxt, -⟩ := touched.numbers
    have remarked := touched.remarked
    rw [bound] at remarked
    obtain ⟨left, held, remarked⟩ := exists_of_remarked remarked
    exact ⟨left, held,
      acksInside_of_unmoved bounded inFlight una nxt (keptRing_of_remarked remarked)⟩
  by_cases syn : packet.flagged Flag.syn = true
  · have stays : recycles tcb packet = false :=
      Bool.eq_false_iff.mpr fun again => lasts ⟨syn, again⟩
    exact unmoved (stopped_of_syn platform trimOffset mbufAbsorbed syn synchronized stays).touched
  · have noSyn : packet.flagged Flag.syn = false := Bool.eq_false_iff.mpr syn
    by_cases passed : passes packet tcb = true
    · obtain ⟨checked, admitted, effect⟩ :=
        flightEffect_processInbound platform trimOffset mbufAbsorbed synchronized noSyn passed
      obtain ⟨una, nxt, -⟩ := admitted.touched.numbers
      have remarked := admitted.remarked
      rw [bound] at remarked
      obtain ⟨middle, found, remarked⟩ := exists_of_remarked remarked
      rcases effect with kept | ⟨-, progresses, moved⟩
      · have sameRing : after.txUnackedRing.map keptRing = some (keptRing ring) := by
          rw [← keptRing_of_remarked remarked]
          exact (congrArg FlightSide.unacked kept).trans (by rw [Tcb.flight, found]; rfl)
        obtain ⟨left, held, same⟩ := exists_of_unacked sameRing
        exact ⟨left, held, acksInside_of_unmoved bounded inFlight
          ((congrArg FlightSide.sndUna kept).trans una)
          ((congrArg FlightSide.sndNxt kept).trans nxt) same⟩
      · have slidRing : after.txUnackedRing.map keptRing =
            some (keptRing (consumeAcked packet.tcpAck middle.occupancy middle)) := by
          refine (congrArg FlightSide.unacked moved).trans ?_
          simp only [Tcb.flight, slideUnacked, advanceUna, found, Option.map_some]
        obtain ⟨left, held, same⟩ := exists_of_unacked slidRing
        have reached := (of_decide_eq_true progresses).2
        rw [una, nxt] at reached
        exact ⟨left, held, acksInside_of_slid bounded short inFlight reached
          (congrArg FlightSide.sndUna moved) ((congrArg FlightSide.sndNxt moved).trans nxt)
          remarked same⟩
    · exact unmoved (stopped_of_not_passes platform trimOffset mbufAbsorbed noSyn
        (Bool.eq_false_iff.mpr passed)).touched

/-- A segment of one hundred bytes. -/
def waitingSegment (tcpSeq : BitVec 32) : OutboundSegment where
  frame :=
    { Frame.zero with ipIhlVer := 0x45, ipLen := 140, tcpDataOffset := 0x50, tcpSeq := tcpSeq }
  held := true
  isSacked := false

/-- Two segments, from 7 on. -/
def waitingRing : UnackedRing where
  ring slot := if slot = 0 then waitingSegment 7 else waitingSegment 107
  localIngressCursor := 2
  localEgressCursor := 0
  cachedIngressCursor := 2

def waitingBlock : Tcb Unit :=
  { sndUna := 7, sndNxt := 207, rcvNxt := 500, sndWnd := 1000, rcvWnd := 4096, cwnd := 14600,
    ssthresh := 65535, phase := .established, txUnackedRing := some waitingRing,
    txEgressConduit := some [] }

/-- An ACK inside the second segment. -/
def innerAck : Packet Unit where
  tcpSeq := 500
  tcpAck := 150
  tcpWindow := 1000
  tcpFlags := Flag.ack
  options := []
  ipTtl := 64
  ipTos := 0
  payloadLen := 0
  payloadOffset := 54
  mbuf := none

theorem acksInside_processInbound_inner :
    ∃ left, (processInbound {} innerAck waitingBlock 0 none).call.tcb.txUnackedRing = some left ∧
      AcksInside waitingBlock (processInbound {} innerAck waitingBlock 0 none).call.tcb
        waitingRing left :=
  acksInside_processInbound {} innerAck 0 none (by decide) (by decide) rfl (by decide)
    (by decide) (by decide)

end SlabFlux.Net.Tcp
