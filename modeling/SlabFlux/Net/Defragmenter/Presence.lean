import SlabFlux.Lib.Execution
import SlabFlux.Net.Defragmenter.Slots

/-!
# Reassembly without holes and overlaps

Beside each slot stand the fragments that were accepted into it since it was claimed.  The
presence mask is the union of their ranges, the ranges do not overlap, and the buffer has their
bytes there.  What is handed on when the reassembly trigger fires is therefore the work of these
fragments alone, one for each byte.
-/

namespace SlabFlux.Net.Defragmenter

open Lib

/-! ## Slots and what was accepted into them -/

/-- A defragmenter, and for each slot the fragments accepted since it was claimed. -/
structure Record where
  defragmenter : SpatialDefragmenter
  accepted : Nat → List Fragment

namespace Record

variable (platform : Platform)

/-- After the constructor. -/
def initial (scratch : Memory) : Record where
  defragmenter := .initial scratch
  accepted := fun _ => []

/-- What the slot has accepted when the fragment gets there.  A slot that does not match is
claimed for the fragment. -/
def acceptedBefore (state : Record) (fragment : Fragment) (index : Nat) : List Fragment :=
  if (state.defragmenter.slots index).isMatch fragment then state.accepted index else []

/-- What the slots have accepted after a call. -/
def acceptedAfter (state : Record) (fragment : Fragment) : Nat → List Fragment :=
  match state.defragmenter.lookup platform fragment with
  | none => state.accepted
  | some (index, slot) =>
      Function.update state.accepted index <|
        if (slot.accept fragment).isSome then state.acceptedBefore fragment index ++ [fragment]
        else state.acceptedBefore fragment index

/-- One call. -/
def step (state : Record) (fragment : Fragment) : Record where
  defragmenter := (state.defragmenter.processFragment platform fragment).1
  accepted := state.acceptedAfter platform fragment

/-- The calls with these fragments, from the constructor on. -/
def run (scratch : Memory) (fragments : List Fragment) : Record :=
  execute (step platform) (initial scratch) fragments

end Record

/-! ## The mask of a slot -/

/-- The mask of a slot is exact: the counters describe it, it marks what was copied from the
accepted fragments, and no byte was copied twice. -/
structure Slot.Exact (slot : Slot) (accepted : List Fragment) : Prop where
  counted : slot.currentBytesReceived.toNat = slot.present.card
  below : ∀ position ∈ slot.present, position < slot.highestByteReceived.toNat
  bounded : slot.highestByteReceived.toNat ≤ 65535
  copied : ∀ position, position ∈ slot.present ↔
    ∃ fragment ∈ accepted, position ∈ covered fragment.frame
  apart : accepted.Pairwise fun earlier later =>
    Disjoint (covered earlier.frame) (covered later.frame)
  bytes : ∀ fragment ∈ accepted, ∀ position ∈ covered fragment.frame,
    slot.buffer position = payloadByte fragment.frame position

namespace Slot.Exact

variable {slot : Slot} {accepted : List Fragment} {fragment : Fragment}

theorem accounted (exact : slot.Exact accepted) : slot.Accounted :=
  ⟨exact.counted, exact.below, exact.bounded⟩

theorem of_nothing (accounted : slot.Accounted) (nothing : slot.present = ∅) : slot.Exact [] where
  counted := accounted.counted
  below := accounted.below
  bounded := accounted.bounded
  copied position := by simp [nothing]
  apart := .nil
  bytes := by simp

theorem zeroed (buffer : Memory) : (Slot.zeroed buffer).Exact [] :=
  of_nothing (.zeroed buffer) (present_zeroed buffer)

theorem claim (slot : Slot) (fragment : Fragment) : (slot.claim fragment).Exact [] :=
  of_nothing (.claim slot fragment) (present_claim slot fragment)

section

variable (exact : slot.Exact accepted)
include exact

/-- A slot that is given back still holds what it held. -/
theorem release : ({ slot with active := false }).Exact accepted :=
  ⟨exact.counted, exact.below, exact.bounded, exact.copied, exact.apart, exact.bytes⟩

/-- No accepted fragment covers a position of one that is accepted now. -/
theorem disjoint_covered (fresh : Disjoint slot.present (covered fragment.frame)) :
    ∀ earlier ∈ accepted, Disjoint (covered earlier.frame) (covered fragment.frame) := by
  intro earlier member
  rw [Finset.disjoint_left] at fresh ⊢
  intro position inside
  exact fresh ((exact.copied position).mpr ⟨earlier, member, inside⟩)

theorem record (valid : fragment.lengthsValid = true)
    (fresh : Disjoint slot.present (covered fragment.frame)) :
    (slot.record fragment.frame).Exact (accepted ++ [fragment]) := by
  obtain ⟨counted, below, bounded⟩ := exact.accounted.record valid fresh
  obtain ⟨_, _, fits, _⟩ := fragment.lengthsValid_iff.mp valid
  have disjoint := exact.disjoint_covered fresh
  refine ⟨counted, below, bounded, ?_, ?_, ?_⟩
  · intro position
    rw [present_record slot fits, Finset.mem_union, exact.copied]
    simp [or_and_right, exists_or]
  · rw [List.pairwise_append]
    refine ⟨exact.apart, List.pairwise_singleton _ _, ?_⟩
    simpa using disjoint
  · intro writer member position inside
    rcases List.mem_append.mp member with old | new
    · have outside : position ∉ covered fragment.frame :=
        Finset.disjoint_left.mp (disjoint writer old) inside
      rw [buffer_record_of_notMem slot outside]
      exact exact.bytes writer old position inside
    · obtain rfl := List.mem_singleton.mp new
      exact buffer_record_of_mem slot inside

/-- A position that is marked was copied from one fragment only. -/
theorem countP_eq_one {position : Nat} (held : position ∈ slot.present) :
    accepted.countP (fun fragment => position ∈ covered fragment.frame) = 1 := by
  have writers : ∃ fragment ∈ accepted, position ∈ covered fragment.frame :=
    (exact.copied position).mp held
  have apart := exact.apart
  clear exact held
  induction accepted with
  | nil => simp at writers
  | cons first rest ih =>
      obtain ⟨disjoint, apart⟩ := List.pairwise_cons.mp apart
      by_cases inside : position ∈ covered first.frame
      · have others : rest.countP (fun fragment => position ∈ covered fragment.frame) = 0 := by
          rw [List.countP_eq_zero]
          intro later member
          simpa using Finset.disjoint_left.mp (disjoint later member) inside
        simp [others, inside]
      · have among : ∃ fragment ∈ rest, position ∈ covered fragment.frame := by
          simpa [inside] using writers
        simp [ih among apart, inside]

end

end Slot.Exact

/-! ## Calls -/

namespace Record

variable {platform : Platform} {state : Record} {fragment : Fragment}

/-- Every slot is exact, the unused ones included. -/
def Exact (state : Record) : Prop :=
  ∀ index, (state.defragmenter.slots index).Exact (state.accepted index)

/-- The slot that the probe finds, before the fragment is looked at. -/
theorem Exact.lookup (exact : state.Exact) {index : Nat} {slot : Slot}
    (found : state.defragmenter.lookup platform fragment = some (index, slot)) :
    slot.Exact (state.acceptedBefore fragment index) := by
  obtain ⟨step, -, inspected⟩ := List.exists_of_findSome?_eq_some found
  unfold SpatialDefragmenter.inspect at inspected
  dsimp only at inspected
  split at inspected
  · next matched =>
    cases inspected
    rw [acceptedBefore, if_pos matched]
    exact exact _
  · next unmatched =>
    split at inspected
    · cases inspected
      rw [acceptedBefore, if_neg unmatched]
      exact .claim _ _
    · cases inspected

/-- The slot with the fragment in it, if the fragment is accepted. -/
theorem Exact.accept (exact : state.Exact) {index : Nat} {slot recorded : Slot}
    (found : state.defragmenter.lookup platform fragment = some (index, slot))
    (accepted : slot.accept fragment = some recorded) :
    recorded.Exact (state.acceptedBefore fragment index ++ [fragment]) := by
  obtain ⟨valid, fresh, rfl⟩ := Slot.accept_eq_some_iff.mp accepted
  exact (exact.lookup found).record valid fresh

/-- Writing an exact slot keeps every slot exact. -/
theorem exact_setSlot (exact : state.Exact) {index : Nat} {slot : Slot}
    {accepted : List Fragment} (written : slot.Exact accepted) (other : Nat) :
    (setSlot state.defragmenter.slots index slot other).Exact
      (Function.update state.accepted index accepted other) := by
  rw [setSlot_eq]
  by_cases here : other = index
  · subst here
    simpa using written
  · simpa [here] using exact other

theorem Exact.step (exact : state.Exact) (fragment : Fragment) :
    (state.step platform fragment).Exact := by
  intro other
  unfold Record.step acceptedAfter SpatialDefragmenter.processFragment
  cases found : state.defragmenter.lookup platform fragment with
  | none => exact exact other
  | some target =>
      obtain ⟨index, slot⟩ := target
      dsimp only
      cases accepted : slot.accept fragment with
      | none => exact exact_setSlot exact (exact.lookup found) other
      | some recorded =>
          have written := exact.accept found accepted
          dsimp only [Option.isSome_some]
          split
          · exact exact_setSlot exact written.release other
          · exact exact_setSlot exact written other

/-- The frame that a call returns is whole: the fragments that the slot has accepted wrote every
payload byte of it, and wrote it once.  Where the bytes are in the frame is said of a header that
has the five words of every IPv4 header. -/
structure Whole (platform : Platform) (state : Record) (fragment : Fragment)
    (result : Reassembled) (index : Nat) : Prop where
  last : fragment ∈ (state.step platform fragment).accepted index
  once : ∀ position < result.length, ((state.step platform fragment).accepted index).countP
      (fun writer => position ∈ covered writer.frame) = 1
  bytes : 20 ≤ (headerLen fragment.frame).toNat → ∀ position < result.length,
    ∀ writer ∈ (state.step platform fragment).accepted index, position ∈ covered writer.frame →
      result.frame (14 + (headerLen fragment.frame).toNat + position) =
        payloadByte writer.frame position

theorem Exact.whole (exact : state.Exact) {result : Reassembled}
    (returned : (state.defragmenter.processFragment platform fragment).2 = some result) :
    ∃ index, state.Whole platform fragment result index := by
  unfold SpatialDefragmenter.processFragment at returned
  cases found : state.defragmenter.lookup platform fragment with
  | none => simp [found] at returned
  | some target =>
      obtain ⟨index, slot⟩ := target
      cases accepted : slot.accept fragment with
      | none => simp [found, accepted] at returned
      | some recorded =>
          simp only [found, accepted] at returned
          split at returned
          · next complete =>
            cases returned
            have written := exact.accept found accepted
            have whole := written.accounted.present_of_complete complete
            have after : (state.step platform fragment).accepted index =
                state.acceptedBefore fragment index ++ [fragment] := by
              simp [Record.step, acceptedAfter, found, accepted]
            refine ⟨index, ?_, ?_, ?_⟩
            · simp [after]
            · intro position inside
              rw [after]
              exact written.countP_eq_one (by simpa [whole] using inside)
            · intro full position inside writer member covers
              rw [after] at member
              exact (reassemble_payload platform _ recorded fragment.frame full inside).trans
                (written.bytes writer member position covers)
          · cases returned

end Record

/-- In every state of the defragmenter the masks of the active slots are exact, and whenever
`process_fragment` returns a frame, each of its payload bytes was written by one fragment that
was accepted since the slot was claimed. -/
theorem reassembles_exactly (platform : Platform) (scratch : Memory) (fragments : List Fragment) :
    (∀ index, ((Record.run platform scratch fragments).defragmenter.slots index).active = true →
      ((Record.run platform scratch fragments).defragmenter.slots index).Exact
        ((Record.run platform scratch fragments).accepted index)) ∧
    ∀ fragment result,
      ((Record.run platform scratch fragments).defragmenter.processFragment platform
        fragment).2 = some result →
      ∃ index, (Record.run platform scratch fragments).Whole platform fragment result index := by
  have exact : (Record.run platform scratch fragments).Exact :=
    execute_invariant (fun _ move kept => kept.step move) (fun _ => .zeroed _) fragments
  exact ⟨fun index _ => exact index, fun _ _ returned => exact.whole returned⟩

end SlabFlux.Net.Defragmenter
