import SlabFlux.Lib.Bytes
import SlabFlux.Net.OooMatrix.Slots
import SlabFlux.Net.Reassembly.Model

/-!
# Reassembly delivers the stream

A sender's byte stream is cut into slices that arrive in any order, any number of times
and with any overlaps.  Every buffer the matrix holds stays a slice of the stream, with
its sequence number, payload offset and length in step, so what comes out at `rcv_nxt` is
the stream from there on, and what is delivered up to the FIN is a prefix of the stream.
-/

namespace SlabFlux.Net.Reassembly

open Lib Lib.Sequence Net.OooMatrix

variable {Mbuf : Type} {offset position length : Nat}

/-- A byte stream shorter than half the sequence space, numbered from `isn`, and what the
buffers contain. -/
structure Stream (Mbuf : Type) where
  bytes : Nat → BitVec 8
  span : Nat
  short : span < 2 ^ 31
  isn : BitVec 32
  contents : Mbuf → Nat → BitVec 8

namespace Stream

/-- The first bytes of the stream. -/
def upTo (stream : Stream Mbuf) (count : Nat) : Bytes :=
  (List.range count).map stream.bytes

/-- A stretch of a buffer. -/
def stretch (stream : Stream Mbuf) (mbuf : Mbuf) (offset length : Nat) : Bytes :=
  (List.range length).map fun index => stream.contents mbuf (offset + index)

/-- The stretch of a buffer is the stream from a position on. -/
def Carries (stream : Stream Mbuf) (mbuf : Mbuf) (offset position length : Nat) : Prop :=
  ∀ index < length, stream.contents mbuf (offset + index) = stream.bytes (position + index)

/-- A slot is a slice of the stream. -/
def IsSlice (stream : Stream Mbuf) (slot : MbufSlot Mbuf) (position : Nat) : Prop :=
  slot.seq = stream.isn + BitVec.ofNat 32 position ∧ position + slot.len.toNat ≤ stream.span ∧
    slot.payloadOffset.toNat + slot.len.toNat ≤ 2 ^ 16 ∧
    ∃ mbuf, slot.mbuf = some mbuf ∧
      stream.Carries mbuf slot.payloadOffset.toNat position slot.len.toNat

/-- A segment cut from the stream.  Its payload is addressed by a `uint16_t` offset into
one buffer. -/
structure Slice (stream : Stream Mbuf) where
  segment : Segment Mbuf
  position : Nat
  isSlice : stream.IsSlice segment.toSlot position

/-- What the events amount to, up to the first FIN. -/
def read (stream : Stream Mbuf) : List (Event Mbuf) → Bytes
  | [] => []
  | .fin :: _ => []
  | .bytes mbuf offset length :: rest =>
      stream.stretch mbuf offset length ++ stream.read rest

/-- An extracted piece is the stream from its `rcv_nxt` on. -/
def Exact (stream : Stream Mbuf) (piece : Extracted Mbuf) : Prop :=
  ∃ position, piece.rcvNxt = stream.isn + BitVec.ofNat 32 position ∧
    position + piece.outLen.toNat ≤ stream.span ∧
    stream.Carries piece.mbuf piece.outOffset.toNat position piece.outLen.toNat

end Stream

/-- Moves of the receive path on slices of one stream. -/
inductive Move (stream : Stream Mbuf) where
  | insert (slice : stream.Slice)
  | accept (slice : stream.Slice)
  | extract

/-- The receiver after one move. -/
def step {stream : Stream Mbuf} (receiver : Receiver Mbuf) : Move stream → Receiver Mbuf
  | .insert slice => receiver.insert slice.segment
  | .accept slice => receiver.accept slice.segment
  | .extract => receiver.extract

/-! ## Slices -/

/-- Skipping bytes of a buffer skips the same bytes of the stream. -/
theorem Stream.Carries.skip {stream : Stream Mbuf} {mbuf : Mbuf}
    (carries : stream.Carries mbuf offset position length) {skipped kept : Nat}
    (bound : skipped + kept ≤ length) :
    stream.Carries mbuf (offset + skipped) (position + skipped) kept := by
  intro index inside
  rw [Nat.add_assoc, Nat.add_assoc]
  exact carries (skipped + index) (by omega)

theorem Stream.Carries.stretch_eq {stream : Stream Mbuf} {mbuf : Mbuf}
    (carries : stream.Carries mbuf offset position length) :
    stream.upTo position ++ stream.stretch mbuf offset length =
      stream.upTo (position + length) := by
  rw [upTo, upTo, List.range_add, List.map_append, List.map_map]
  congr 1
  exact List.map_congr_left fun index inside => carries index (List.mem_range.mp inside)

/-- A part of a slice is a slice. -/
theorem Stream.IsSlice.part {stream : Stream Mbuf} {slot segment : MbufSlot Mbuf}
    {position : Nat} (whole : stream.IsSlice segment position)
    (part : Matrix.PartOf slot segment) : ∃ within, stream.IsSlice slot within := by
  obtain ⟨seq, inside, addressed, mbuf, buffer, carries⟩ := whole
  obtain ⟨skip, moved, shifted, same, bound⟩ := part
  refine ⟨position + skip, ?_, by omega, ?_, mbuf, same.trans buffer, ?_⟩
  · rw [moved, seq, BitVec.add_assoc, ← BitVec.ofNat_add]
  · rw [shifted, BitVec.toNat_add, BitVec.toNat_ofNat]
    omega
  · by_cases isEmpty : slot.len.toNat = 0
    · intro index impossible
      omega
    · have start : slot.payloadOffset.toNat = segment.payloadOffset.toNat + skip := by
        rw [shifted, BitVec.toNat_add, BitVec.toNat_ofNat]
        omega
      rw [start]
      exact carries.skip bound

/-! ## Progress -/

/-- How far the receiver is: `rcv_nxt` is a position of the stream, at most one past its
end, and what was delivered up to the FIN is the stream up to a position, which is that of
`rcv_nxt` until the FIN. -/
def Progress (stream : Stream Mbuf) (rcvNxt : BitVec 32) (delivered : List (Event Mbuf)) : Prop :=
  ∃ reached ≤ stream.span + 1, ∃ count ≤ stream.span,
    rcvNxt = stream.isn + BitVec.ofNat 32 reached ∧
    stream.read delivered = stream.upTo count ∧
    (.fin ∉ delivered → reached = count)

theorem read_append_of_fin (stream : Stream Mbuf) {delivered : List (Event Mbuf)}
    (ended : .fin ∈ delivered) (later : List (Event Mbuf)) :
    stream.read (delivered ++ later) = stream.read delivered := by
  induction delivered with
  | nil => cases ended
  | cons event rest ih =>
      cases event with
      | fin => rfl
      | bytes mbuf offset length =>
          have inRest : .fin ∈ rest := by simpa using ended
          rw [List.cons_append, Stream.read, Stream.read, ih inRest]

theorem read_append (stream : Stream Mbuf) {delivered : List (Event Mbuf)}
    (unended : .fin ∉ delivered) (later : List (Event Mbuf)) :
    stream.read (delivered ++ later) = stream.read delivered ++ stream.read later := by
  induction delivered with
  | nil => rfl
  | cons event rest ih =>
      cases event with
      | fin => simp at unended
      | bytes mbuf offset length =>
          have notInRest : .fin ∉ rest := by simpa using unended
          rw [List.cons_append, Stream.read, Stream.read, ih notInRest, List.append_assoc]

namespace Progress

variable {stream : Stream Mbuf} {rcvNxt : BitVec 32} {delivered : List (Event Mbuf)}

/-- Bytes of the stream that start at `rcv_nxt`. -/
theorem bytes (progress : Progress stream rcvNxt delivered) {mbuf : Mbuf}
    (starts : rcvNxt = stream.isn + BitVec.ofNat 32 position)
    (inside : position + length ≤ stream.span)
    (carries : stream.Carries mbuf offset position length) :
    Progress stream (rcvNxt + BitVec.ofNat 32 length)
      (delivered ++ [.bytes mbuf offset length]) := by
  obtain ⟨reached, reachedBound, count, countBound, number, soFar, agree⟩ := progress
  have next : rcvNxt + BitVec.ofNat 32 length =
      stream.isn + BitVec.ofNat 32 (position + length) := by
    rw [starts, BitVec.add_assoc, ← BitVec.ofNat_add]
  by_cases ended : .fin ∈ delivered
  · refine ⟨position + length, by omega, count, countBound, next, ?_, ?_⟩
    · rw [read_append_of_fin stream ended, soFar]
    · intro notEnded
      simp [ended] at notEnded
  · have same : position = count := by
      rw [agree ended] at number
      have equal := (BitVec.add_right_inj stream.isn).mp (starts.symm.trans number)
      have values := congrArg BitVec.toNat equal
      have short := stream.short
      simp only [BitVec.toNat_ofNat] at values
      rw [Nat.mod_eq_of_lt (by omega), Nat.mod_eq_of_lt (by omega)] at values
      exact values
    subst same
    refine ⟨position + length, by omega, position + length, inside, next, ?_, fun _ => rfl⟩
    rw [read_append stream ended, soFar, Stream.read, Stream.read, List.append_nil,
      carries.stretch_eq]

theorem fin (progress : Progress stream rcvNxt delivered) (position : Nat)
    (starts : rcvNxt = stream.isn + BitVec.ofNat 32 position)
    (inside : position ≤ stream.span) :
    Progress stream (rcvNxt + 1) (delivered ++ [.fin]) := by
  obtain ⟨_, _, count, countBound, _, soFar, _⟩ := progress
  refine ⟨position + 1, by omega, count, countBound, ?_, ?_, ?_⟩
  · rw [starts, BitVec.ofNat_add, ← BitVec.add_assoc]
    rfl
  · by_cases ended : .fin ∈ delivered
    · rw [read_append_of_fin stream ended, soFar]
    · rw [read_append stream ended, soFar, Stream.read, List.append_nil]
  · intro notEnded
    simp at notEnded

end Progress

/-! ## Steps -/

/-- What every run keeps. -/
structure Faithful (stream : Stream Mbuf) (receiver : Receiver Mbuf) : Prop where
  slices : ∀ index, receiver.matrix.active index = true →
    ∃ position, stream.IsSlice (receiver.matrix.slots index) position
  exact : ∀ piece ∈ receiver.extracted, stream.Exact piece
  progress : Progress stream receiver.rcvNxt receiver.delivered

namespace Faithful

variable {stream : Stream Mbuf} {receiver : Receiver Mbuf}

theorem start (stream : Stream Mbuf) (base : BitVec 32) :
    Faithful stream (.start stream.isn base) where
  slices index isActive := Bool.noConfusion isActive
  exact piece member := nomatch member
  progress := ⟨0, Nat.zero_le _, 0, Nat.zero_le _, by simp [Receiver.start], rfl, fun _ => rfl⟩

section

variable (faithful : Faithful stream receiver)
include faithful

theorem insert (slice : stream.Slice) : Faithful stream (receiver.insert slice.segment) where
  slices index isActive := by
    rcases Matrix.active_insertMbuf isActive with ⟨wasActive, same⟩ | part
    · obtain ⟨position, isSlice⟩ := faithful.slices index wasActive
      exact ⟨position, same ▸ isSlice⟩
    · exact slice.isSlice.part part
  exact := faithful.exact
  progress := faithful.progress

/-- Delivering a slice from the byte at `rcv_nxt` on. -/
theorem deliver (slice : stream.Slice) {skip : Nat}
    (starts : receiver.rcvNxt = slice.segment.seq + BitVec.ofNat 32 skip)
    (bound : skip ≤ slice.segment.len.toNat) :
    Faithful stream (receiver.deliver slice.segment skip) where
  slices := faithful.slices
  exact := faithful.exact
  progress := by
    obtain ⟨seq, inside, _, mbuf, buffer, carries⟩ := slice.isSlice
    obtain rfl : slice.segment.mbuf = mbuf := Option.some.inj buffer
    change slice.segment.seq = _ at seq
    change slice.position + slice.segment.len.toNat ≤ _ at inside
    have number : receiver.rcvNxt = stream.isn + BitVec.ofNat 32 (slice.position + skip) := by
      rw [starts, seq, BitVec.add_assoc, ← BitVec.ofNat_add]
    exact faithful.progress.bytes number (by omega)
      (carries.skip (show skip + _ ≤ slice.segment.len.toNat by omega))

theorem acceptFin (slice : stream.Slice) : Faithful stream (receiver.acceptFin slice.segment) := by
  unfold Receiver.acceptFin
  split_ifs with counts
  · refine ⟨faithful.slices, faithful.exact, ?_⟩
    obtain ⟨seq, inside, _⟩ := slice.isSlice
    change slice.segment.seq = _ at seq
    refine faithful.progress.fin _ ?_ inside
    rw [← counts.2, seq, BitVec.ofNat_add, ← BitVec.add_assoc]
    change _ = _ + BitVec.ofNat 32 slice.segment.len.toNat
    rw [BitVec.ofNat_toNat, BitVec.setWidth_eq]
  · exact faithful

theorem accept (slice : stream.Slice) : Faithful stream (receiver.accept slice.segment) := by
  unfold Receiver.accept
  split_ifs with nothing
  · exact faithful
  · cases place : placement receiver.rcvNxt slice.segment.seq slice.segment.len.toNat with
    | inOrder =>
        refine (faithful.deliver slice ?_ (Nat.zero_le _)).acceptFin slice
        rw [placement_eq_inOrder place]
        simp
    | outOfOrder => exact (faithful.insert slice).acceptFin slice
    | leap => exact faithful
    | tail overlap =>
        obtain ⟨starts, bound⟩ := placement_eq_tail place
        exact (faithful.deliver slice starts bound.le).acceptFin slice
    | duplicate => exact faithful.acceptFin slice

theorem extract : Faithful stream receiver.extract := by
  have kept : ∀ index,
      (receiver.matrix.extractContiguousMbuf receiver.rcvNxt).1.active index = true →
      ∃ position, stream.IsSlice
        ((receiver.matrix.extractContiguousMbuf receiver.rcvNxt).1.slots index) position := by
    intro index isActive
    obtain ⟨wasActive, same⟩ := Matrix.active_extractContiguousMbuf isActive
    rw [same]
    exact faithful.slices index wasActive
  have found := @Matrix.extractContiguousMbuf_eq_some _ receiver.matrix receiver.rcvNxt
  unfold Receiver.extract
  cases result : receiver.matrix.extractContiguousMbuf receiver.rcvNxt with
  | mk matrix taken =>
      rw [result] at kept found
      cases taken with
      | none => exact ⟨kept, faithful.exact, faithful.progress⟩
      | some slot =>
          obtain ⟨index, wasActive, same, starts⟩ := found rfl
          obtain ⟨position, seq, inside, _, mbuf, buffer, carries⟩ :=
            faithful.slices index wasActive
          rw [same] at seq inside buffer carries
          have number := starts.symm.trans seq
          have word : BitVec.ofNat 32 slot.len.toNat = slot.len := by
            rw [BitVec.ofNat_toNat, BitVec.setWidth_eq]
          have moved := faithful.progress.bytes number inside carries
          rw [word] at moved
          have pieces : ∀ piece ∈ receiver.extracted ++
              [⟨receiver.rcvNxt, mbuf, slot.payloadOffset, slot.len⟩],
              stream.Exact piece := by
            intro piece member
            rcases List.mem_append.mp member with old | new
            · exact faithful.exact piece old
            · rw [List.mem_singleton.mp new]
              exact ⟨position, number, inside, carries⟩
          dsimp only
          rw [buffer]
          split_ifs with isFin
          · refine ⟨kept, pieces, moved.fin _ ?_ inside⟩
            rw [number, BitVec.ofNat_add, ← BitVec.add_assoc, word]
          · exact ⟨kept, pieces, moved⟩

theorem step (move : Move stream) : Faithful stream (step receiver move) := by
  cases move with
  | insert slice => exact faithful.insert slice
  | accept slice => exact faithful.accept slice
  | extract => exact faithful.extract

end

end Faithful

/-! ## Runs -/

/-- Whatever slices of a stream arrive, in whatever order, every piece taken out of the
matrix is the stream from its `rcv_nxt` on, and what was delivered up to the FIN is a
prefix of the stream. -/
theorem reassembly_delivers_stream (stream : Stream Mbuf) (base : BitVec 32)
    (moves : List (Move stream)) :
    (∀ piece ∈ (execute step (.start stream.isn base) moves).extracted, stream.Exact piece) ∧
      ∃ count ≤ stream.span, stream.read (execute step (.start stream.isn base) moves).delivered =
          stream.upTo count := by
  have faithful := execute_invariant (fun _ move faithful => faithful.step move)
    (Faithful.start stream base) moves
  obtain ⟨_, _, count, bound, _, soFar, _⟩ := faithful.progress
  exact ⟨faithful.exact, count, bound, soFar⟩

end SlabFlux.Net.Reassembly
