import SlabFlux.Net.OooMatrix.Coverage
import SlabFlux.Net.Tcp.Gateway
import SlabFlux.Net.Tcp.ReceiveSide

/-!
# Stored data that became contiguous is delivered

In a run of the receive path in which `rcv_nxt` never comes to lie inside a stored
segment, and no segment that is stored crosses the end of the matrix's window, the byte at
`rcv_nxt` is extracted whenever it is marked as present.
-/

namespace SlabFlux.Net.Tcp

open Lib Lib.Sequence Net.OooMatrix

variable {Mbuf : Type} {packet : Packet Mbuf} {tcb : Tcb Mbuf}

/-- The matrix, if there is one, represents a window and is aligned at `rcv_nxt`. -/
def Sound (side : BitVec 32 × Option (Matrix Mbuf)) : Prop :=
  ∀ matrix ∈ side.2, (∃ window, matrix.Represents window) ∧ matrix.Aligned side.1

/-! ## The condition on a move -/

/-- The number after a segment and its FIN. -/
def Packet.next (packet : Packet Mbuf) : BitVec 32 :=
  packet.payloadSeq + packet.payloadLen + if packet.flagged Flag.fin then 1 else 0

namespace Tcb

/-- The segment moves `rcv_nxt` to the number after it: it starts at `rcv_nxt` or holds it,
or its FIN is the next to come. -/
def Advances (tcb : Tcb Mbuf) (packet : Packet Mbuf) : Prop :=
  (tcb.phase.receives = true ∧ match
      placement tcb.rcvNxt packet.payloadSeq packet.payloadLen.toNat with
    | .inOrder => True
    | .tail _ => True
    | _ => False) ∨
    (packet.flagged Flag.fin = true ∧ packet.payloadSeq + packet.payloadLen = tcb.rcvNxt)

/-- The segment goes to the matrix. -/
def Buffers (tcb : Tcb Mbuf) (packet : Packet Mbuf) : Prop :=
  tcb.phase.receives = true ∧
    placement tcb.rcvNxt packet.payloadSeq packet.payloadLen.toNat = .outOfOrder

/-- The condition on a packet: where it moves `rcv_nxt` to does not lie inside a stored
segment, and where it is stored it fits. -/
@[mk_iff] structure Accepts (tcb : Tcb Mbuf) (packet : Packet Mbuf) : Prop where
  opening : packet.flagged Flag.syn = true → tcb.phase = .synSent →
    ∀ matrix ∈ tcb.oooMatrix, matrix.Aligned (packet.tcpSeq + 1)
  advancing : packet.flagged Flag.syn = false → tcb.Advances packet →
    ∀ matrix ∈ tcb.payloadMatrix, matrix.Aligned packet.next
  buffering : packet.flagged Flag.syn = false → tcb.Buffers packet →
    ∀ matrix ∈ tcb.payloadMatrix, matrix.Fits tcb.rcvNxt packet.slot

/-- The condition on a move.  A segment with payload and FIN that is extracted moves
`rcv_nxt` one further than its slot reaches. -/
def Undisturbed (tcb : Tcb Mbuf) : GatewayMove Mbuf → Prop
  | .receive _ packet => tcb.Accepts packet
  | .extract => ∀ taken ∈ tcb.extracted, has taken.2.flags Flag.fin = true →
      taken.2.len ≠ 0 → ∀ matrix ∈ tcb.oooMatrix, matrix.Aligned (tcb.rcvNxt + taken.2.len + 1)
  | .allocate packet payloadLen _ => tcb.needsMatrix packet payloadLen = true →
      Matrix.EndsInside packet.slot tcb.rcvNxt
  | .dispatch _ => True

/-! ## Moves keep the matrix sound -/

theorem sound_payloadMatrix (sound : Sound tcb.receiveSide) :
    Sound (tcb.rcvNxt, tcb.payloadMatrix) := by
  unfold payloadMatrix
  split_ifs
  · intro matrix cleared
    obtain ⟨before, _, rfl⟩ := Option.map_eq_some_iff.mp cleared
    exact ⟨⟨_, before.represents_reset _⟩, before.aligned_reset _ _⟩
  · exact sound

theorem ahead_of_outOfOrder {rcvNxt payloadSeq : BitVec 32} {payloadLen : Nat}
    (place : placement rcvNxt payloadSeq payloadLen = .outOfOrder) :
    payloadSeq ≠ rcvNxt ∧ (payloadSeq - rcvNxt).toNat ≤ 0x7FFFFFFF := by
  unfold placement at place
  split_ifs at place with same ahead
  exact ⟨same, ahead⟩

/-- The payload stage moves `rcv_nxt` to the end of the segment, stores the segment, or
does nothing. -/
theorem payloadSide_cases (tcb : Tcb Mbuf) (packet : Packet Mbuf) :
    tcb.Advances packet ∧ tcb.payloadSide packet =
          (packet.payloadSeq + packet.payloadLen, tcb.payloadMatrix) ∨
      tcb.Buffers packet ∧ tcb.payloadSide packet = (tcb.rcvNxt, tcb.payloadMatrix.map fun matrix =>
          (matrix.insertMbuf tcb.rcvNxt packet.slot).1) ∨
      tcb.payloadSide packet = (tcb.rcvNxt, tcb.payloadMatrix) := by
  unfold payloadSide Advances Buffers
  split_ifs with taken
  · cases place : placement tcb.rcvNxt packet.payloadSeq packet.payloadLen.toNat with
    | inOrder => exact .inl ⟨.inl ⟨taken.1, trivial⟩, rfl⟩
    | outOfOrder => exact .inr (.inl ⟨⟨taken.1, rfl⟩, rfl⟩)
    | leap => exact .inr (.inr rfl)
    | tail overlap => exact .inl ⟨.inl ⟨taken.1, trivial⟩, rfl⟩
    | duplicate => exact .inr (.inr rfl)
  · exact .inr (.inr rfl)

/-- The FIN stage moves `rcv_nxt` to the number after the segment, or does nothing. -/
theorem finSide_cases (packet : Packet Mbuf) (side : BitVec 32 × Option (Matrix Mbuf)) :
    (packet.flagged Flag.fin = true ∧ packet.payloadSeq + packet.payloadLen = side.1) ∧
        finSide packet side = (packet.next, side.2) ∨
      ¬(packet.flagged Flag.fin = true ∧ packet.payloadSeq + packet.payloadLen = side.1) ∧
        finSide packet side = side := by
  unfold finSide Packet.next
  split_ifs with reached fin
  · exact .inl ⟨reached, by rw [reached.2]⟩
  · exact absurd reached.1 fin
  · exact .inr ⟨reached, rfl⟩
  · exact .inr ⟨reached, rfl⟩

/-- The FIN stage after payload that ends where `rcv_nxt` is. -/
theorem finSide_end (packet : Packet Mbuf) (stored : Option (Matrix Mbuf)) :
    finSide packet (packet.payloadSeq + packet.payloadLen, stored) = (packet.next, stored) := by
  rcases finSide_cases packet (packet.payloadSeq + packet.payloadLen, stored) with
    ⟨_, result⟩ | ⟨noFin, result⟩
  · exact result
  · have finless : packet.flagged Flag.fin = false :=
      Bool.eq_false_iff.mpr fun fin => noFin ⟨fin, rfl⟩
    rw [result, Packet.next, finless]
    exact congrArg (·, stored) (BitVec.add_zero _).symm

/-- The payload and FIN stages keep the matrix sound. -/
theorem sound_segment (sound : Sound tcb.receiveSide) (noSyn : packet.flagged Flag.syn = false)
    (accepts : tcb.Accepts packet) : Sound (finSide packet (tcb.payloadSide packet)) := by
  have before := sound_payloadMatrix sound
  have advanced : tcb.Advances packet → Sound (packet.next, tcb.payloadMatrix) :=
    fun advances matrix stored =>
      ⟨(before matrix stored).1, accepts.advancing noSyn advances matrix stored⟩
  rcases tcb.payloadSide_cases packet with ⟨advances, side⟩ | ⟨buffers, side⟩ | side
  · rw [side, finSide_end]
    exact advanced advances
  · obtain ⟨different, ahead⟩ := ahead_of_outOfOrder buffers.2
    rw [side]
    rcases finSide_cases packet (tcb.rcvNxt, tcb.payloadMatrix.map fun matrix =>
      (matrix.insertMbuf tcb.rcvNxt packet.slot).1) with ⟨reached, result⟩ | ⟨_, result⟩
    · rw [result]
      intro matrix stored
      obtain ⟨old, held, rfl⟩ := Option.map_eq_some_iff.mp stored
      obtain ⟨⟨window, represents⟩, _⟩ := before old held
      refine ⟨Matrix.represents_insertMbuf represents
        (accepts.buffering noSyn buffers old held), ?_⟩
      refine (accepts.advancing noSyn (.inr reached) old held).insertMbuf tcb.rcvNxt ?_
      have finish : packet.next = tcb.rcvNxt + 1 := by
        rw [Packet.next, if_pos reached.1, reached.2]
      change (packet.payloadSeq - packet.next).toNat ≤ _
      bv_omega
    · rw [result]
      intro matrix stored
      obtain ⟨old, held, rfl⟩ := Option.map_eq_some_iff.mp stored
      obtain ⟨⟨window, represents⟩, aligned⟩ := before old held
      exact ⟨Matrix.represents_insertMbuf represents
        (accepts.buffering noSyn buffers old held), aligned.insertMbuf tcb.rcvNxt ahead⟩
  · rw [side]
    rcases finSide_cases packet (tcb.rcvNxt, tcb.payloadMatrix) with
      ⟨reached, result⟩ | ⟨_, result⟩
    · rw [result]
      exact advanced (.inr reached)
    · rw [result]
      exact before

/-- `process_inbound` keeps the matrix sound. -/
theorem sound_processInbound (platform : Platform) (sound : Sound tcb.receiveSide)
    (accepts : tcb.Accepts packet) :
    Sound (processInbound platform packet tcb 0 (some false)).call.tcb.receiveSide := by
  have effect := receiveEffect_processInbound platform packet tcb 0 false
  generalize (processInbound platform packet tcb 0 (some false)).call.tcb.receiveSide = side
    at effect ⊢
  cases effect with
  | unchanged => exact sound
  | cleared => exact sound_payloadMatrix sound
  | opened syn opening =>
      intro matrix stored
      exact ⟨(sound matrix stored).1, accepts.opening syn opening matrix stored⟩
  | synchronized before =>
      intro matrix cleared
      obtain ⟨old, _, rfl⟩ := Option.map_eq_some_iff.mp cleared
      exact ⟨⟨_, old.represents_reset _⟩, old.aligned_reset _ _⟩
  | segment noSyn => exact sound_segment sound noSyn accepts

/-- What a turn of the extraction loop does, if it takes a segment. -/
theorem extractTurn_cases (tcb : Tcb Mbuf) :
    tcb.extractTurn = none ∨
      ∃ matrix index turned, tcb.oooMatrix = some matrix ∧ matrix.active index = true ∧
        (tcb.rcvNxt - matrix.baseSeq).toNat < windowSize ∧
        (matrix.slots index).seq = tcb.rcvNxt ∧
        tcb.extracted = some ((matrix.extractContiguousMbuf tcb.rcvNxt).1, matrix.slots index) ∧
        tcb.extractTurn = some turned ∧
        turned.receiveSide = (tcb.rcvNxt + (matrix.slots index).len +
              (if has (matrix.slots index).flags Flag.fin then 1 else 0),
            some (matrix.extractContiguousMbuf tcb.rcvNxt).1) := by
  unfold extractTurn extracted
  cases stored : tcb.oooMatrix with
  | none => exact .inl rfl
  | some matrix =>
      dsimp only
      rcases matrix.extractContiguousMbuf_cases tcb.rcvNxt with
        result | ⟨index, inside, _, isActive, starts, result⟩
      · rw [result]
        exact .inl rfl
      · rw [result]
        refine .inr ⟨matrix, index, _, rfl, isActive, inside, starts, by rw [result], rfl, ?_⟩
        rw [result]
        split_ifs
        · exact receiveSide_acceptFin _
        · exact congrArg₂ Prod.mk (BitVec.add_zero _).symm rfl

/-- A turn of the extraction loop keeps the matrix sound. -/
theorem sound_extract (sound : Sound tcb.receiveSide) (undisturbed : tcb.Undisturbed .extract) :
    Sound (tcb.gatewayStep .extract).receiveSide := by
  rw [gatewayStep]
  rcases tcb.extractTurn_cases with
    result | ⟨matrix, index, turned, stored, isActive, inside, starts, taken, result, side⟩
  · rw [result]
    exact sound
  · obtain ⟨⟨window, represents⟩, _⟩ := sound matrix stored
    rw [result, Option.getD_some, side]
    rintro after ⟨⟩
    refine ⟨Matrix.represents_extractContiguousMbuf represents tcb.rcvNxt,
      Matrix.Aligned.of_active ?_ fun _ => Matrix.active_extractContiguousMbuf⟩
    have nonempty := represents.nonempty index isActive
    have finish := represents.aligned_end isActive (by rw [starts]; exact inside)
    rw [starts] at finish
    by_cases bare : (matrix.slots index).len = 0
    · -- A bare FIN takes one number.
      have fin : (matrix.slots index).fin = true := by
        by_contra noFin
        rw [MbufSlot.logicalLen, if_neg fun both => noFin both.2, bare] at nonempty
        exact absurd nonempty (by decide)
      rw [MbufSlot.logicalLen, if_pos ⟨bare, fin⟩] at finish
      have flagged : has (matrix.slots index).flags Flag.fin = true := fin
      rw [bare, if_pos flagged, add_zero]
      exact finish
    · have plain : (matrix.slots index).logicalLen = (matrix.slots index).len.toNat := by
        rw [MbufSlot.logicalLen, if_neg fun both => bare both.1]
      rw [plain, BitVec.ofNat_toNat] at finish
      split_ifs with fin
      · exact undisturbed _ taken fin bare matrix stored
      · exact (BitVec.add_zero (tcb.rcvNxt + (matrix.slots index).len)).symm ▸ finish

/-- The late allocation leaves a sound matrix. -/
theorem sound_allocateMatrix (sound : Sound tcb.receiveSide) {payloadLen : BitVec 32}
    (available : Bool) (undisturbed : tcb.Undisturbed (.allocate packet payloadLen available)) :
    Sound (tcb.allocateMatrix packet payloadLen available).receiveSide := by
  have represents := (fresh : Matrix Mbuf).represents_reset tcb.rcvNxt
  have aligned := (fresh : Matrix Mbuf).aligned_reset tcb.rcvNxt tcb.rcvNxt
  unfold allocateMatrix
  split_ifs with needed ahead
  · rintro matrix ⟨⟩
    refine ⟨Matrix.represents_insertMbuf represents ⟨undisturbed needed.1, fun _ => ?_⟩,
      aligned.insertMbuf tcb.rcvNxt ahead.1⟩
    have unmoved : Matrix.slidBase ((fresh : Matrix Mbuf).reset tcb.rcvNxt).baseSeq tcb.rcvNxt =
        tcb.rcvNxt := by
      exact ite_self _
    rw [unmoved]
    exact ⟨fun _ _ _ _ holds => Bool.noConfusion holds.1, undisturbed needed.1⟩
  · rintro matrix ⟨⟩
    exact ⟨⟨_, represents⟩, aligned⟩
  · exact sound

theorem receiveSide_dispatchControlFrames (platform : Platform) (tcb : Tcb Mbuf) :
    (tcb.dispatchControlFrames platform).receiveSide = tcb.receiveSide := by
  have tracked : ∀ (block : Tcb Mbuf) (frame : Frame) (flags : BitVec 8),
      (block.trackControl platform frame flags).receiveSide = block.receiveSide := by
    intro block frame flags
    unfold trackControl
    cases block.txUnackedRing <;> dsimp only <;> split_ifs <;> rfl
  unfold dispatchControlFrames
  split
  · rfl
  · split_ifs
    · exact tracked _ _ _
    · rfl
    · rfl

/-! ## Runs -/

/-- A move that meets its condition keeps the matrix sound. -/
theorem sound_gatewayStep (tcb : Tcb Mbuf) (move : GatewayMove Mbuf)
    (sound : Sound tcb.receiveSide) (undisturbed : tcb.Undisturbed move) :
    Sound (tcb.gatewayStep move).receiveSide := by
  cases move with
  | receive platform packet => exact sound_processInbound platform sound undisturbed
  | extract => exact sound_extract sound undisturbed
  | allocate packet payloadLen available =>
      exact sound_allocateMatrix sound available undisturbed
  | dispatch platform =>
      rw [gatewayStep, receiveSide_dispatchControlFrames]
      exact sound

/-- In every run of the receive path whose moves meet their conditions, from a block
without a matrix, the byte at `rcv_nxt` is extracted whenever it is marked as present, and
its slot is freed. -/
theorem present_extracts (start : Tcb Mbuf) (empty : start.oooMatrix = none)
    (moves : List (GatewayMove Mbuf))
    (undisturbed : Admissible gatewayStep Undisturbed start moves) {matrix : Matrix Mbuf}
    (stored : (execute gatewayStep start moves).oooMatrix = some matrix)
    (inside : ((execute gatewayStep start moves).rcvNxt - matrix.baseSeq).toNat < windowSize)
    (present : matrix.presenceMask.bit
      ((execute gatewayStep start moves).rcvNxt - matrix.baseSeq).toNat = true) :
    ∃ index mbuf, matrix.active index = true ∧ (matrix.slots index).mbuf = some mbuf ∧
      (matrix.extractContiguousMbuf (execute gatewayStep start moves).rcvNxt).2 =
        some (matrix.slots index) ∧
      (matrix.extractContiguousMbuf
        (execute gatewayStep start moves).rcvNxt).1.active index = false := by
  have initially : Sound start.receiveSide := by
    intro held bound
    rw [receiveSide, empty] at bound
    cases bound
  have sound : Sound (execute gatewayStep start moves).receiveSide :=
    execute_invariant_of_admissible sound_gatewayStep initially undisturbed
  obtain ⟨⟨window, represents⟩, aligned⟩ := sound matrix stored
  exact represents.extracts aligned inside present

/-! ## A stored segment reached and one run into -/

instance (tcb : Tcb Mbuf) (packet : Packet Mbuf) : Decidable (tcb.Advances packet) := by
  unfold Advances
  cases placement tcb.rcvNxt packet.payloadSeq packet.payloadLen.toNat <;>
    infer_instance

instance (tcb : Tcb Mbuf) (packet : Packet Mbuf) : Decidable (tcb.Buffers packet) :=
  inferInstanceAs (Decidable (_ ∧ _))

instance (tcb : Tcb Mbuf) (packet : Packet Mbuf) : Decidable (tcb.Accepts packet) :=
  decidable_of_iff _ (accepts_iff tcb packet).symm

instance (tcb : Tcb Mbuf) : DecidablePred tcb.Undisturbed := fun move => by
  cases move <;> unfold Undisturbed <;> infer_instance

/-- A segment of an open connection. -/
def dataPacket (seq len : BitVec 32) : Packet Unit where
  tcpSeq := seq
  tcpAck := 0
  tcpWindow := 1000
  tcpFlags := Flag.ack
  options := []
  ipTtl := 64
  ipTos := 0
  payloadLen := len
  payloadOffset := 54
  mbuf := some ()

/-- An open connection that expects 0. -/
def openBlock : Tcb Unit := { phase := .established, rcvWnd := 65535 }

/-- A segment is stored and then reached. -/
theorem present_extracts_reached : let moves : List (GatewayMove Unit) :=
      [.receive {} (dataPacket 100 100), .extract, .allocate (dataPacket 100 100) 0 true,
        .dispatch {}, .receive {} (dataPacket 0 100)]
    Admissible gatewayStep Undisturbed openBlock moves ∧
      ∃ matrix, (execute gatewayStep openBlock moves).oooMatrix = some matrix ∧
        ∃ index mbuf, matrix.active index = true ∧ (matrix.slots index).mbuf = some mbuf ∧
          (matrix.extractContiguousMbuf (execute gatewayStep openBlock moves).rcvNxt).2 =
            some (matrix.slots index) ∧
          (matrix.extractContiguousMbuf
            (execute gatewayStep openBlock moves).rcvNxt).1.active index = false := by
  intro moves
  have undisturbed : Admissible gatewayStep Undisturbed openBlock moves := by
    decide +kernel
  have allocated : (execute gatewayStep openBlock moves).oooMatrix.isSome = true := by
    decide +kernel
  have reached : ∀ matrix ∈ (execute gatewayStep openBlock moves).oooMatrix,
      ((execute gatewayStep openBlock moves).rcvNxt - matrix.baseSeq).toNat < windowSize ∧
        matrix.presenceMask.bit
          ((execute gatewayStep openBlock moves).rcvNxt - matrix.baseSeq).toNat = true := by
    decide +kernel
  obtain ⟨matrix, stored⟩ := Option.isSome_iff_exists.mp allocated
  obtain ⟨inside, present⟩ := reached matrix stored
  exact ⟨undisturbed, matrix, stored,
    present_extracts openBlock rfl moves undisturbed stored inside present⟩

/-- Two frames: a segment is stored, and one in order ends inside it.  The byte at
`rcv_nxt` is present and nothing is extracted. -/
theorem present_stranded :
    let tcb := (openBlock.onRawFrame {} true (dataPacket 100 100)).onRawFrame {} true
      (dataPacket 0 150)
    ∃ matrix, tcb.oooMatrix = some matrix ∧ (tcb.rcvNxt - matrix.baseSeq).toNat < windowSize ∧
      matrix.presenceMask.bit (tcb.rcvNxt - matrix.baseSeq).toNat = true ∧
      (matrix.extractContiguousMbuf tcb.rcvNxt).2 = none := by
  intro tcb
  have allocated : tcb.oooMatrix.isSome = true := by decide +kernel
  have stranded : ∀ matrix ∈ tcb.oooMatrix, (tcb.rcvNxt - matrix.baseSeq).toNat < windowSize ∧
        matrix.presenceMask.bit (tcb.rcvNxt - matrix.baseSeq).toNat = true ∧
        (matrix.extractContiguousMbuf tcb.rcvNxt).2 = none := by
    decide +kernel
  obtain ⟨matrix, stored⟩ := Option.isSome_iff_exists.mp allocated
  exact ⟨matrix, stored, stranded matrix stored⟩

end Tcb

end SlabFlux.Net.Tcp
