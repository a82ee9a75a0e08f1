import SlabFlux.Net.Tcp.Inbound

/-!
# What the options of a segment do

SACK blocks only ever add marks to the unacknowledged ring.  `pawsStops` says which rows of
options end with a timestamp that PAWS rejects.
-/

namespace SlabFlux.Net.Tcp

open SlabFlux.Core Lib SpscRingConduit

variable {Mbuf : Type}

/-! ## Conditions on the block before the call -/

/-- An echo from the peer that cuts the congestion window. -/
def echoCuts (packet : Packet Mbuf) (tcb : Tcb Mbuf) : Bool :=
  tcb.ecnPermitted ≠ 0 ∧ packet.flagged Flag.ece ∧ tcb.ssthresh < tcb.cwnd

/-- The block with the window that an echo leaves. -/
def afterEcho (packet : Packet Mbuf) (tcb : Tcb Mbuf) : Tcb Mbuf :=
  if echoCuts packet tcb then
    { tcb with cwnd := Tcb.halved tcb.safeCwnd, ssthresh := Tcb.halved tcb.safeCwnd }
  else tcb

/-- An option is a timestamp that PAWS rejects, before the walk ends. -/
def pawsStops (packet : Packet Mbuf) : List OptionToken → Tcb Mbuf → Bool
  | [], _ => false
  | token :: rest, tcb =>
      if token.kind = 5 ∧ tcb.sackPermitted ≠ 0 then
        if token.data.length % 8 ≠ 0 then false else pawsStops packet rest tcb
      else if token.kind = 8 ∧ token.data.length = 8 ∧ tcb.tsPermitted ≠ 0 then
        if pawsRejects tcb packet (token.word 0) then true
        else pawsStops packet rest (recordTimestamp packet (token.word 0) tcb)
      else pawsStops packet rest tcb

/-! ## SACK marks -/

/-- A ring after SACK marks: only marks were added, and only the cached cursor moved. -/
structure Remarked (ring after : UnackedRing) : Prop where
  ingress : after.localIngressCursor = ring.localIngressCursor
  egress : after.localEgressCursor = ring.localEgressCursor
  horizon : after.refresh.available = ring.refresh.available
  frame : ∀ slot, (after.ring slot).frame = (ring.ring slot).frame
  held : ∀ slot, (after.ring slot).held = (ring.ring slot).held
  marks : ∀ slot, (ring.ring slot).isSacked = true → (after.ring slot).isSacked = true

namespace Remarked

variable {ring middle after : UnackedRing}

theorem refl (ring : UnackedRing) : Remarked ring ring :=
  ⟨rfl, rfl, rfl, fun _ => rfl, fun _ => rfl, fun _ marked => marked⟩

theorem trans (first : Remarked ring middle) (second : Remarked middle after) :
    Remarked ring after where
  ingress := second.ingress.trans first.ingress
  egress := second.egress.trans first.egress
  horizon := second.horizon.trans first.horizon
  frame slot := (second.frame slot).trans (first.frame slot)
  held slot := (second.held slot).trans (first.held slot)
  marks slot marked := second.marks slot (first.marks slot marked)

theorem foldl {Item : Type} {write : UnackedRing → Item → UnackedRing}
    (remarks : ∀ ring item, Remarked ring (write ring item)) (items : List Item)
    (ring : UnackedRing) : Remarked ring (items.foldl write ring) := by
  induction items generalizing ring with
  | nil => exact refl ring
  | cons item items ih => exact (remarks ring item).trans (ih (write ring item))

end Remarked

theorem refresh_refresh_available (ring : UnackedRing) :
    ring.refresh.refresh.available = ring.refresh.available := by
  unfold refresh
  split
  next used =>
    split
    next => rfl
    next => rfl
  next => rfl

theorem available_refresh_modifyPeekSlot (ring : UnackedRing) (offset : Nat)
    (change : OutboundSegment → OutboundSegment) :
    (ring.modifyPeekSlot offset change).refresh.available = ring.refresh.available := by
  unfold refresh modifyPeekSlot
  split <;> rfl

theorem ring_refresh (ring : UnackedRing) :
    ring.refresh.ring = ring.ring ∧ ring.refresh.localIngressCursor = ring.localIngressCursor ∧
      ring.refresh.localEgressCursor = ring.localEgressCursor := by
  unfold refresh
  split <;> exact ⟨rfl, rfl, rfl⟩

theorem remarked_refresh (ring : UnackedRing) : Remarked ring ring.refresh := by
  obtain ⟨slotsEq, ingressEq, egressEq⟩ := ring_refresh ring
  refine ⟨ingressEq, egressEq, refresh_refresh_available ring, ?_, ?_, ?_⟩ <;>
    · intro slot
      rw [slotsEq]
      try exact id

theorem remarked_markSacked (block : BitVec 32 × BitVec 32) (ring : UnackedRing)
    (offset : Nat) : Remarked ring (markSacked block ring offset) := by
  unfold markSacked
  split
  next =>
    have slotOf (slot : Nat) : (ring.modifyPeekSlot offset fun segment =>
        { segment with isSacked := true }).ring slot =
          if slot = (ring.localEgressCursor + offset) % capacity then
            { ring.peekSlot offset with isSacked := true }
          else ring.ring slot := by
      dsimp only [modifyPeekSlot, peekSlot]
      rw [Function.update_apply]
    refine ⟨rfl, rfl, available_refresh_modifyPeekSlot .., ?_, ?_, ?_⟩ <;>
      · intro slot
        rw [slotOf]
        split
        next here =>
          subst here
          try rfl
          try exact fun _ => rfl
        next =>
          try rfl
          try exact id
  next => exact .refl ring

theorem remarked_applySackBlock (tcb : Tcb Mbuf) (ring : UnackedRing)
    (block : BitVec 32 × BitVec 32) : Remarked ring (applySackBlock tcb ring block) := by
  unfold applySackBlock
  split
  next =>
    exact (remarked_refresh ring).trans (Remarked.foldl (remarked_markSacked block) _ _)
  next => exact .refl ring

/-! ## Options -/

/-- The unacknowledged ring of a block, after SACK marks. -/
abbrev RingRemarked (ring after : Option UnackedRing) : Prop := Option.Rel Remarked ring after

theorem RingRemarked.refl (ring : Option UnackedRing) : RingRemarked ring ring := by
  cases ring with
  | none => exact .none
  | some ring => exact .some (.refl ring)

theorem RingRemarked.trans {ring middle after : Option UnackedRing}
    (first : RingRemarked ring middle) (second : RingRemarked middle after) :
    RingRemarked ring after := by
  cases first with
  | none => exact second
  | some first =>
      cases second with
      | some second => exact .some (first.trans second)

/-- Two blocks that the options of a packet treat alike. -/
structure SameOptions (tcb after : Tcb Mbuf) : Prop where
  rcvNxt : after.rcvNxt = tcb.rcvNxt
  sndUna : after.sndUna = tcb.sndUna
  sndNxt : after.sndNxt = tcb.sndNxt
  tsRecent : after.tsRecent = tcb.tsRecent
  sackPermitted : after.sackPermitted = tcb.sackPermitted
  tsPermitted : after.tsPermitted = tcb.tsPermitted

namespace SameOptions

variable {tcb after : Tcb Mbuf}

section

variable (same : SameOptions tcb after) (packet : Packet Mbuf)
include same packet

theorem pawsRejects_eq (tsval : BitVec 32) :
    pawsRejects after packet tsval = pawsRejects tcb packet tsval := by
  unfold pawsRejects tsOld ackInFlight
  rw [same.rcvNxt, same.sndUna, same.sndNxt, same.tsRecent]

theorem recordTimestamp (tsval : BitVec 32) :
    SameOptions (Tcp.recordTimestamp packet tsval tcb)
      (Tcp.recordTimestamp packet tsval after) := by
  unfold Tcp.recordTimestamp
  rw [same.rcvNxt]
  split
  next =>
    exact ⟨rfl, same.sndUna, same.sndNxt, rfl, same.sackPermitted, same.tsPermitted⟩
  next => exact same

theorem pawsStops_eq (tokens : List OptionToken) :
    pawsStops packet tokens after = pawsStops packet tokens tcb := by
  induction tokens generalizing tcb after with
  | nil => rfl
  | cons token rest ih =>
      rw [pawsStops, pawsStops, same.sackPermitted, same.tsPermitted, same.pawsRejects_eq,
        ih same, ih (same.recordTimestamp packet (token.word 0))]

end

end SameOptions

theorem txUnackedRing_recordTimestamp (packet : Packet Mbuf) (tsval : BitVec 32) (tcb : Tcb Mbuf) :
    (recordTimestamp packet tsval tcb).txUnackedRing = tcb.txUnackedRing := by
  unfold recordTimestamp
  split <;> rfl

theorem remarked_sackOption (token : OptionToken) (tcb : Tcb Mbuf) :
    SameOptions tcb (sackOption token tcb) ∧
      RingRemarked tcb.txUnackedRing (sackOption token tcb).txUnackedRing := by
  unfold sackOption
  split
  next => exact ⟨⟨rfl, rfl, rfl, rfl, rfl, rfl⟩, .refl _⟩
  next ring present =>
    rw [present]
    exact ⟨⟨rfl, rfl, rfl, rfl, rfl, rfl⟩,
      .some (Remarked.foldl (remarked_applySackBlock tcb) token.sackBlocks ring)⟩

/-- The block after the options of a packet without SYN: the timestamp and the marks of
the ring may be new. -/
structure OptionsDone (tcb after : Tcb Mbuf) : Prop where
  only : after = { tcb with tsRecent := after.tsRecent, txUnackedRing := after.txUnackedRing }
  remarked : RingRemarked tcb.txUnackedRing after.txUnackedRing

theorem recordTimestamp_only (packet : Packet Mbuf) (tsval : BitVec 32) (tcb : Tcb Mbuf) :
    recordTimestamp packet tsval tcb =
      { tcb with tsRecent := (recordTimestamp packet tsval tcb).tsRecent } := by
  unfold recordTimestamp
  split <;> rfl

theorem sackOption_only (token : OptionToken) (tcb : Tcb Mbuf) :
    sackOption token tcb = { tcb with txUnackedRing := (sackOption token tcb).txUnackedRing } := by
  unfold sackOption
  split <;> rfl

/-- The block after the options of a packet without SYN, unless PAWS stops it. -/
def afterOptions (packet : Packet Mbuf) : List OptionToken → Tcb Mbuf → Tcb Mbuf
  | [], tcb => tcb
  | token :: rest, tcb =>
      if token.kind = 5 ∧ tcb.sackPermitted ≠ 0 then
        if token.data.length % 8 ≠ 0 then tcb else afterOptions packet rest (sackOption token tcb)
      else if token.kind = 8 ∧ token.data.length = 8 ∧ tcb.tsPermitted ≠ 0 then
        afterOptions packet rest (recordTimestamp packet (token.word 0) tcb)
      else afterOptions packet rest tcb

/-- The options of a packet without SYN, with everything they can do. -/
theorem processOptions_done (platform : Platform) {packet : Packet Mbuf}
    (noSyn : packet.flagged Flag.syn = false) (tokens : List OptionToken) (call : Call Mbuf) :
    ∃ after, OptionsDone call.tcb after ∧
      (pawsStops packet tokens call.tcb = false → after = afterOptions packet tokens call.tcb) ∧
      processOptions platform packet tokens call =
        if pawsStops packet tokens call.tcb then { call with tcb := after }.challenge platform
        else .ok { call with tcb := after } := by
  have unchanged {tcb : Tcb Mbuf} : OptionsDone tcb tcb := ⟨rfl, .refl _⟩
  induction tokens generalizing call with
  | nil => exact ⟨call.tcb, unchanged, fun _ => rfl, rfl⟩
  | cons token rest ih =>
      rw [processOptions, if_neg (by rw [noSyn]; exact Bool.false_ne_true), pawsStops, afterOptions]
      by_cases sack : token.kind = 5 ∧ call.tcb.sackPermitted ≠ 0
      · rw [if_pos sack, if_pos sack, if_pos sack]
        by_cases odd : token.data.length % 8 ≠ 0
        · rw [if_pos odd, if_pos odd, if_pos odd]
          exact ⟨call.tcb, unchanged, fun _ => rfl, rfl⟩
        · rw [if_neg odd, if_neg odd, if_neg odd]
          obtain ⟨same, remarked⟩ := remarked_sackOption token call.tcb
          obtain ⟨after, done, quiet, outcome⟩ := ih (call.on (sackOption token))
          have done : OptionsDone (sackOption token call.tcb) after := done
          have stops : pawsStops packet rest (call.on (sackOption token)).tcb =
              pawsStops packet rest call.tcb := same.pawsStops_eq packet rest
          rw [stops] at quiet outcome
          refine ⟨after, ⟨?_, remarked.trans done.remarked⟩, quiet, outcome⟩
          rw [done.only, sackOption_only token call.tcb]
      · rw [if_neg sack, if_neg sack, if_neg sack]
        by_cases stamp : token.kind = 8 ∧ token.data.length = 8 ∧ call.tcb.tsPermitted ≠ 0
        · rw [if_pos stamp, if_pos stamp, if_pos stamp]
          by_cases rejected : pawsRejects call.tcb packet (token.word 0) = true
          · rw [if_pos rejected, if_pos rejected]
            exact ⟨call.tcb, unchanged, nofun, rfl⟩
          · rw [if_neg rejected, if_neg rejected]
            obtain ⟨after, done, quiet, outcome⟩ :=
              ih (call.on (recordTimestamp packet (token.word 0)))
            have done : OptionsDone (recordTimestamp packet (token.word 0) call.tcb) after := done
            refine ⟨after, ⟨?_, ?_⟩, quiet, outcome⟩
            · rw [done.only, recordTimestamp_only packet (token.word 0) call.tcb]
            · exact (txUnackedRing_recordTimestamp packet _ call.tcb) ▸ done.remarked
        · rw [if_neg stamp, if_neg stamp, if_neg stamp]
          exact ih call

end SlabFlux.Net.Tcp
