import SlabFlux.Net.Defragmenter.Slots

/-!
# Datagrams and their fragments

What the defragmenter is fed when senders cut datagrams into fragments: each arrival is
a piece of one of the datagrams, the pieces of a datagram do not overlap and together
make it up.  A slot that has taken only pieces of one datagram holds that datagram's
bytes, and passes the reassembly trigger exactly when no piece is still to come.
-/

namespace SlabFlux.Net.Defragmenter

open Lib

/-- A datagram: its key and its payload. -/
structure Datagram where
  key : Key
  payload : Bytes
  bounded : payload.length ≤ 65535

/-- The fragment is a piece of the datagram: a well-formed frame with its key, bytes of
its payload, and the flag that says whether more of it follows. -/
@[mk_iff] structure Datagram.HasPiece (datagram : Datagram) (fragment : Fragment) : Prop where
  key : frameKey fragment.frame = datagram.key
  full : 20 ≤ (headerLen fragment.frame).toNat
  header : headerLen fragment.frame ≤ ipLenHost fragment.frame
  whole : (ipLenHost fragment.frame).setWidth 64 ≤ fragment.physicalLength - 14
  within : endBytes fragment.frame ≤ datagram.payload.length
  bytes : ∀ position ∈ covered fragment.frame,
    datagram.payload[position]? = some (payloadByte fragment.frame position)
  more : moreFragments fragment.frame = decide (endBytes fragment.frame < datagram.payload.length)

instance (datagram : Datagram) (fragment : Fragment) : Decidable (datagram.HasPiece fragment) :=
  decidable_of_iff _ (Datagram.hasPiece_iff datagram fragment).symm

/-- The arrivals are the datagrams, divided into fragments that do not overlap, in some
order. -/
@[mk_iff] structure Dissection (datagrams : List Datagram) (arrivals : List Fragment) : Prop where
  distinct : datagrams.Pairwise fun first second => first.key ≠ second.key
  pieces : ∀ fragment ∈ arrivals, ∃ datagram ∈ datagrams, datagram.HasPiece fragment
  present : ∀ datagram ∈ datagrams, ∃ fragment ∈ arrivals, frameKey fragment.frame = datagram.key
  covering : ∀ datagram ∈ datagrams, ∀ position < datagram.payload.length, ∃ fragment ∈ arrivals,
      frameKey fragment.frame = datagram.key ∧ position ∈ covered fragment.frame
  apart : arrivals.Pairwise fun first second =>
    frameKey first.frame = frameKey second.frame →
      Disjoint (covered first.frame) (covered second.frame)

instance (datagrams : List Datagram) (arrivals : List Fragment) :
    Decidable (Dissection datagrams arrivals) :=
  decidable_of_iff _ (dissection_iff datagrams arrivals).symm

/-- Some of the datagram's fragments have arrived and some have not. -/
def Incomplete (done rest : List Fragment) (datagram : Datagram) : Prop :=
  (∃ fragment ∈ done, frameKey fragment.frame = datagram.key) ∧
    ∃ fragment ∈ rest, frameKey fragment.frame = datagram.key

instance (done rest : List Fragment) (datagram : Datagram) :
    Decidable (Incomplete done rest datagram) :=
  inferInstanceAs (Decidable (_ ∧ _))

/-- All arrivals lie within 30 seconds. -/
abbrev Timely (arrivals : List Fragment) : Prop :=
  arrivals.Pairwise fun earlier later => later.now - earlier.now ≤ 30000

/-- Between any two calls at most 8 datagrams are incomplete. -/
abbrev FewIncomplete (datagrams : List Datagram) (arrivals : List Fragment) : Prop :=
  ∀ count ≤ arrivals.length, (datagrams.filter
      (Incomplete (arrivals.take count) (arrivals.drop count) ·)).length ≤ 8

namespace Datagram.HasPiece

variable {datagram : Datagram} {fragment : Fragment}

theorem lengthsValid (piece : datagram.HasPiece fragment)
    (nonempty : 0 < (payloadLen fragment.frame).toNat) : fragment.lengthsValid = true :=
  fragment.lengthsValid_iff.mpr
    ⟨piece.header, piece.whole, Nat.le_trans piece.within datagram.bounded, nonempty⟩

theorem position_lt (piece : datagram.HasPiece fragment) {position : Nat}
    (inside : position ∈ covered fragment.frame) : position < datagram.payload.length :=
  Nat.lt_of_lt_of_le (mem_covered.mp inside).2 piece.within

end Datagram.HasPiece

/-! ## A slot with the pieces of one datagram -/

/-- The slot holds what has arrived of the datagram. -/
structure Slot.Holds (slot : Slot) (datagram : Datagram) (done : List Fragment) : Prop where
  key : slot.key = datagram.key
  held : ∀ position, position ∈ slot.present ↔ ∃ fragment ∈ done,
    frameKey fragment.frame = datagram.key ∧ position ∈ covered fragment.frame
  bytes : ∀ position ∈ slot.present, datagram.payload[position]? = some (slot.buffer position)
  highest : slot.highestByteReceived.toNat ≤ datagram.payload.length
  unfinished : datagram.payload.length - 1 ∉ slot.present → slot.totalExpectedLength = 0
  finished : datagram.payload.length - 1 ∈ slot.present →
    slot.totalExpectedLength.toNat = datagram.payload.length

namespace Slot.Holds

variable {slot : Slot} {datagram : Datagram} {done : List Fragment} {fragment : Fragment}

/-- A slot claimed by a datagram's first arrival. -/
theorem claim (slot : Slot) (sameKey : frameKey fragment.frame = datagram.key)
    (first : ∀ earlier ∈ done, frameKey earlier.frame ≠ datagram.key) :
    (slot.claim fragment).Holds datagram done where
  key := sameKey
  held position := by
    rw [present_claim]
    constructor
    · intro held
      exact absurd held (Finset.notMem_empty position)
    · rintro ⟨earlier, arrived, same, _⟩
      exact absurd same (first earlier arrived)
  bytes position held := by simp at held
  highest := Nat.zero_le _
  unfinished _ := rfl
  finished held := by simp at held

section

variable (holds : slot.Holds datagram done)
include holds

/-- An arrival of another datagram changes nothing. -/
theorem other (different : frameKey fragment.frame ≠ datagram.key) :
    slot.Holds datagram (done ++ [fragment]) :=
  { holds with
    held := by
      intro position
      rw [holds.held position]
      simp only [List.mem_append, List.mem_singleton, or_and_right, exists_or]
      constructor
      · exact Or.inl
      · rintro (before | ⟨_, rfl, same, _⟩)
        · exact before
        · exact absurd same different }

theorem record (piece : datagram.HasPiece fragment)
    (nonempty : 0 < (payloadLen fragment.frame).toNat) :
    (slot.record fragment.frame).Holds datagram (done ++ [fragment]) := by
  have fits : endBytes fragment.frame ≤ 65535 :=
    Nat.le_trans piece.within datagram.bounded
  have union := slot.present_record fits
  have last : datagram.payload.length - 1 ∈ covered fragment.frame ↔
      moreFragments fragment.frame = false := by
    have within := piece.within
    rw [mem_covered, piece.more, decide_eq_false_iff_not]
    unfold endBytes at within ⊢
    omega
  refine ⟨holds.key, ?_, ?_, ?_, ?_, ?_⟩
  · intro position
    rw [union, Finset.mem_union, holds.held position]
    simp only [List.mem_append, List.mem_singleton, or_and_right, exists_or,
      exists_eq_left, piece.key, true_and]
  · intro position held
    by_cases inside : position ∈ covered fragment.frame
    · rw [slot.buffer_record_of_mem inside]
      exact piece.bytes position inside
    · rw [union, Finset.mem_union] at held
      rw [slot.buffer_record_of_notMem inside]
      exact holds.bytes position (held.resolve_right inside)
  · rw [Slot.Accounted.highest_record slot fits]
    exact Nat.max_le.mpr ⟨holds.highest, piece.within⟩
  · intro notHeld
    rw [union, Finset.mem_union, not_or, last, Bool.not_eq_false] at notHeld
    unfold Slot.record
    rw [if_pos notHeld.2]
    exact holds.unfinished notHeld.1
  · intro held
    rw [union, Finset.mem_union, last] at held
    unfold Slot.record
    by_cases more : moreFragments fragment.frame = true
    · rw [if_pos more]
      exact holds.finished (held.resolve_right (by simp [more]))
    · have ends : endBytes fragment.frame = datagram.payload.length := by
        have within := piece.within
        rw [piece.more, decide_eq_true_eq] at more
        omega
      rw [if_neg more, BitVec.toNat_ofNat]
      omega

/-- The trigger fires when everything has arrived. -/
theorem complete_of_all (accounted : slot.Accounted) (nonempty : 0 < datagram.payload.length)
    (all : ∀ position < datagram.payload.length, position ∈ slot.present) :
    slot.isComplete = true := by
  have total := holds.finished (all _ (by omega))
  have highest : slot.highestByteReceived.toNat = datagram.payload.length := by
    have below := accounted.below _ (all (datagram.payload.length - 1) (by omega))
    have above := holds.highest
    omega
  have count : slot.currentBytesReceived.toNat = datagram.payload.length := by
    have inside : Finset.range datagram.payload.length ⊆ slot.present := by
      intro position member
      exact all position (Finset.mem_range.mp member)
    have atLeast := Finset.card_le_card inside
    have atMost := accounted.card_le
    rw [Finset.card_range] at atLeast
    rw [accounted.counted]
    omega
  simp only [isComplete, Bool.and_eq_true, beq_iff_eq, decide_eq_true_eq]
  refine ⟨⟨?_, ?_⟩, ?_⟩
  · rw [BitVec.lt_def, total]
    exact nonempty
  · rw [← BitVec.toNat_inj, count, total]
  · rw [← BitVec.toNat_inj, BitVec.toNat_setWidth]
    omega

/-- When it fires, everything has arrived. -/
theorem present_of_complete (accounted : slot.Accounted) (complete : slot.isComplete = true) :
    slot.totalExpectedLength.toNat = datagram.payload.length ∧
      ∀ position < datagram.payload.length, position ∈ slot.present := by
  have all := accounted.present_of_complete complete
  have total : slot.totalExpectedLength.toNat = datagram.payload.length := by
    by_contra different
    have missing : slot.totalExpectedLength = 0 :=
      holds.unfinished fun held => different (holds.finished held)
    simp [isComplete, missing] at complete
  refine ⟨total, fun position inside => ?_⟩
  rw [all, total]
  exact Finset.mem_range.mpr inside

end

end Slot.Holds

end SlabFlux.Net.Defragmenter
