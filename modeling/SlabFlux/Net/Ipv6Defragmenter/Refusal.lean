import SlabFlux.Net.Defragmenter.Slots
import SlabFlux.Net.Ipv6Defragmenter.Safety

/-!
# Fragments that are refused

A fragment that overlaps what its slot holds is dropped.  The IPv4 defragmenter looks at all
words of the mask before it sets a bit, so the fragment leaves no trace.  The IPv6 defragmenter
sets the words one by one as it looks at them, and stops at the first one that overlaps: only a
fragment that overlaps in its first word leaves no trace.
-/

namespace SlabFlux.Net.Defragmenter

variable (platform : Platform)

/-- The frames that calls with these fragments return. -/
def results : SpatialDefragmenter → List Fragment → List (Option Reassembled)
  | _, [] => []
  | state, fragment :: later =>
      (state.processFragment platform fragment).2 ::
        results (state.processFragment platform fragment).1 later

/-- The fragment belongs to a slot that is active, and overlaps what was received there. -/
structure Overlapping (state : SpatialDefragmenter) (fragment : Fragment) (index : Nat) :
    Prop where
  found : state.lookup platform fragment = some (index, state.slots index)
  belongs : (state.slots index).isMatch fragment = true
  lengths : fragment.lengthsValid = true
  overlap : (state.slots index).presenceMask.overlaps (offsetBytes fragment.frame).toNat
    (payloadLen fragment.frame).toNat = true

/-- A fragment that is refused leaves the defragmenter as it was, and what comes later is
handled as if the fragment had not been there. -/
def KeepsRefusing (state : SpatialDefragmenter) (fragment : Fragment) : Prop :=
  ∀ index, Overlapping platform state fragment index →
    state.processFragment platform fragment = (state, none) ∧
      ∀ later, results platform (state.processFragment platform fragment).1 later =
        results platform state later

theorem keepsRefusing (state : SpatialDefragmenter) (fragment : Fragment) :
    KeepsRefusing platform state fragment := by
  intro index refused
  have dropped : (state.slots index).accept fragment = none := by
    rw [Slot.accept, refused.overlap, Bool.not_true, Bool.and_false, if_neg Bool.false_ne_true]
  have unchanged : state.processFragment platform fragment = (state, none) := by
    rw [SpatialDefragmenter.processFragment, refused.found]
    simp only [dropped, setSlot_eq, Function.update_eq_self]
  refine ⟨unchanged, fun later => ?_⟩
  rw [unchanged]

end SlabFlux.Net.Defragmenter

namespace SlabFlux.Net.Ipv6Defragmenter

open Lib Function Trace Fragment
open Net.OooMatrix (Mask lowOnes allOnes)

/-! ## The words of a fragment -/

namespace Fragment

variable (fragment : Fragment)

def startWord : Nat := fragment.offsetBytes.toNat / 64

def endWord : Nat := fragment.endBytes.toNat / 64

/-- The bits of the first word that the fragment covers. -/
def firstBits : BitVec 64 :=
  if fragment.startWord = fragment.endWord then
    inWord (fragment.offsetBytes.toNat % 64) fragment.payloadLen
  else allOnes <<< (fragment.offsetBytes.toNat % 64)

/-- The words behind the first one, with the bits that the fragment covers. -/
def laterParts : List (Nat × BitVec 64) :=
  if fragment.startWord = fragment.endWord then []
  else
    (List.range' (fragment.startWord + 1) (fragment.endWord - (fragment.startWord + 1))).map
      (fun word => (word, allOnes)) ++
    if 0 < fragment.endBytes.toNat % 64 then
      [(fragment.endWord, lowOnes (fragment.endBytes.toNat % 64))]
    else []

end Fragment

/-- Some of the bits are set already. -/
def Touches (mask : Mask) (part : Nat × BitVec 64) : Prop := mask part.1 &&& part.2 ≠ 0

instance (mask : Mask) (part : Nat × BitVec 64) : Decidable (Touches mask part) :=
  inferInstanceAs (Decidable (_ ≠ _))

/-- Words are checked and set, one after the other. -/
def setParts (drop : Mask → Halt) : Mask → List (Nat × BitVec 64) → Run Mask
  | mask, [] => pure mask
  | mask, part :: parts => do
      let mask ← setWord drop mask part.1 part.2
      setParts drop mask parts

variable {drop : Mask → Halt} {mask : Mask} {fragment : Fragment}

theorem outcome_setWord (word : Nat) (bits : BitVec 64) :
    (setWord drop mask word bits).outcome = if Touches mask (word, bits) then .error (drop mask)
      else .ok (update mask word (mask word ||| bits)) := by
  rw [setWord]
  by_cases touched : mask word &&& bits ≠ 0
  · rw [if_pos touched, if_pos (show Touches mask (word, bits) from touched)]
    rfl
  · rw [if_neg touched, if_neg (show ¬Touches mask (word, bits) from touched)]
    rfl

theorem outcome_setParts_append (first second : List (Nat × BitVec 64)) :
    (setParts drop mask (first ++ second)).outcome =
      (setParts drop mask first).outcome.bind fun mask =>
        (setParts drop mask second).outcome := by
  induction first generalizing mask with
  | nil => rfl
  | cons part first ih =>
      simp only [List.cons_append, setParts, outcome_bind]
      cases (setWord drop mask part.1 part.2).outcome with
      | error halt => rfl
      | ok next => exact ih

theorem outcome_setParts_singleton (part : Nat × BitVec 64) :
    (setParts drop mask [part]).outcome = (setWord drop mask part.1 part.2).outcome := by
  simp only [setParts, outcome_bind]
  cases (setWord drop mask part.1 part.2).outcome with
  | error halt => rfl
  | ok next => rfl

/-- Whole words are checked and set like any others. -/
theorem outcome_fillWords (words : List Nat) :
    (fillWords drop mask words).outcome =
      (setParts drop mask (words.map fun word => (word, allOnes))).outcome := by
  have full (word : BitVec 64) : word &&& allOnes = word := by
    rw [allOnes, BitVec.not_zero, BitVec.and_allOnes]
  have filled (word : BitVec 64) : word ||| allOnes = allOnes := by
    rw [allOnes, BitVec.not_zero, BitVec.or_allOnes]
  induction words generalizing mask with
  | nil => rfl
  | cons word words ih =>
      rw [fillWords, outcome_readAt_bind, List.map_cons, setParts, outcome_bind, outcome_setWord]
      simp only [Touches, full, filled]
      by_cases free : mask word = 0
      · rw [if_neg (not_not.mpr free), if_neg (not_not.mpr free)]
        exact ih
      · rw [if_pos free, if_pos free]
        rfl

/-- The single pass is the walk over the words. -/
theorem outcome_checkAndSet :
    (checkAndSet drop mask fragment).outcome =
      (setParts drop mask ((fragment.startWord, fragment.firstBits) ::
        fragment.laterParts)).outcome := by
  unfold checkAndSet firstBits laterParts startWord endWord
  by_cases single : fragment.offsetBytes.toNat / 64 = fragment.endBytes.toNat / 64
  · rw [if_pos single, if_pos single, if_pos single, outcome_setParts_singleton]
  · rw [if_neg single, if_neg single, if_neg single, outcome_bind, setParts, outcome_bind]
    congr 1
    funext afterFirst
    rw [outcome_setParts_append, outcome_bind, ← outcome_fillWords]
    congr 1
    funext afterMiddle
    by_cases enters : 0 < fragment.endBytes.toNat % 64
    · rw [if_pos enters, if_pos enters, outcome_setParts_singleton]
    · rw [if_neg enters, if_neg enters]
      rfl

/-! ## Where the pass stops -/

/-- The pass stops if and only if a word was touched before the pass; other words than those
of the pass are as they were. -/
theorem setParts_cases (drop : Mask → Halt) (mask : Mask) (parts : List (Nat × BitVec 64))
    (distinct : parts.Pairwise fun first second => first.1 ≠ second.1) :
    (∀ part ∈ parts, ¬Touches mask part) ∧
      (∃ after, (setParts drop mask parts).outcome = .ok after) ∨
    (∃ part ∈ parts, Touches mask part) ∧
      ∃ after, (setParts drop mask parts).outcome = .error (drop after) ∧
        ∀ word, (∀ part ∈ parts, part.1 ≠ word) → after word = mask word := by
  induction parts generalizing mask with
  | nil => exact .inl ⟨by simp, mask, rfl⟩
  | cons first parts ih =>
      obtain ⟨apart, distinct⟩ := List.pairwise_cons.mp distinct
      simp only [setParts, outcome_bind, outcome_setWord]
      by_cases touched : Touches mask first
      · right
        refine ⟨⟨first, List.mem_cons_self, touched⟩, mask, ?_, fun _ _ => rfl⟩
        rw [if_pos touched]
        rfl
      · rw [if_neg touched]
        -- the words of the rest are as they were before the first one was set
        have same : ∀ part ∈ parts, (Touches (update mask first.1 (mask first.1 ||| first.2)) part ↔
              Touches mask part) := by
          intro part member
          rw [Touches, Touches, update_of_ne (apart part member).symm]
        rcases ih (update mask first.1 (mask first.1 ||| first.2)) distinct with
          ⟨free, after, ends⟩ | ⟨⟨part, member, hit⟩, after, stops, kept⟩
        · left
          refine ⟨?_, after, ends⟩
          rintro part (_ | ⟨_, member⟩)
          · exact touched
          · exact fun hit => free part member ((same part member).mpr hit)
        · right
          refine ⟨⟨part, List.mem_cons_of_mem _ member, (same part member).mp hit⟩, after, stops,
            ?_⟩
          intro word others
          rw [kept word fun part member => others part (List.mem_cons_of_mem _ member),
            update_of_ne (others first List.mem_cons_self).symm]

theorem pairwise_laterParts (fragment : Fragment) :
    fragment.laterParts.Pairwise fun first second => first.1 ≠ second.1 := by
  unfold laterParts
  split
  · exact .nil
  · rw [List.pairwise_append]
    refine ⟨?_, ?_, ?_⟩
    · rw [List.pairwise_map]
      exact List.nodup_range'
    · split <;> simp
    · intro first inMiddle second last
      obtain ⟨word, inside, rfl⟩ := List.mem_map.mp inMiddle
      rw [List.mem_range'_1] at inside
      split at last
      · obtain rfl := List.mem_singleton.mp last
        omega
      · cases last

theorem startWord_ne_of_mem_laterParts {part : Nat × BitVec 64}
    (member : part ∈ fragment.laterParts) :
    fragment.startWord ≠ fragment.endWord ∧ part.1 ≠ fragment.startWord := by
  unfold laterParts at member
  split at member
  · cases member
  · next several =>
    refine ⟨several, ?_⟩
    rcases List.mem_append.mp member with inMiddle | last
    · obtain ⟨word, inside, rfl⟩ := List.mem_map.mp inMiddle
      rw [List.mem_range'_1] at inside
      omega
    · split at last
      · obtain rfl := List.mem_singleton.mp last
        exact fun same => several same.symm
      · cases last

theorem pairwise_parts (fragment : Fragment) :
    ((fragment.startWord, fragment.firstBits) :: fragment.laterParts).Pairwise
      fun first second => first.1 ≠ second.1 :=
  List.pairwise_cons.mpr ⟨fun _ member => (startWord_ne_of_mem_laterParts member).2.symm,
    pairwise_laterParts fragment⟩

/-- A fragment of several words has bits in its first one. -/
theorem firstBits_ne_zero (several : fragment.startWord ≠ fragment.endWord) :
    fragment.firstBits ≠ 0 := by
  have bound : fragment.offsetBytes.toNat % 64 < 64 := Nat.mod_lt _ (by decide)
  rw [firstBits, if_neg several, Mask.ne_zero_iff]
  refine ⟨fragment.offsetBytes.toNat % 64, bound, ?_⟩
  simp [allOnes, bound]

/-- Where the first word is free, a fragment that is refused has marked it. -/
theorem checkAndSet_traces (free : ¬Touches mask (fragment.startWord, fragment.firstBits))
    (touched : ∃ part ∈ fragment.laterParts, Touches mask part) :
    ∃ after, (checkAndSet drop mask fragment).outcome = .error (drop after) ∧
      after fragment.startWord ≠ mask fragment.startWord := by
  obtain ⟨part, member, hit⟩ := touched
  obtain ⟨several, elsewhere⟩ := startWord_ne_of_mem_laterParts member
  rw [outcome_checkAndSet, setParts, outcome_bind, outcome_setWord, if_neg free]
  rcases setParts_cases drop (update mask fragment.startWord
      (mask fragment.startWord ||| fragment.firstBits)) _ (pairwise_laterParts fragment) with
    ⟨untouched, -⟩ | ⟨-, after, stops, kept⟩
  · refine absurd hit fun hit => untouched part member ?_
    rwa [Touches, update_of_ne elsewhere]
  · refine ⟨after, stops, ?_⟩
    rw [kept _ fun part member => (startWord_ne_of_mem_laterParts member).2]
    intro same
    have inside : mask fragment.startWord &&& fragment.firstBits = fragment.firstBits := by
      rw [← same]
      ext index
      simp +contextual
    exact firstBits_ne_zero several (inside.symm.trans (not_not.mp free))

/-! ## Calls -/

/-- The frames that calls with these arguments return, up to one that does not return within
so many steps. -/
def results (config : Config) (fuel : Nat) :
    Defragmenter → List (Frame × BitVec 64) → List (Option Memory)
  | _, [] => []
  | state, (frame, now) :: later =>
      match (processFragment config state frame now fuel).outcome with
      | .ok (after, whole) => some whole :: results config fuel after later
      | .error (.null after) => none :: results config fuel after later
      | .error .unfinished => []

/-- The call gets to the fragment header at `l4Offset`, the lengths are valid, and the probe
meets the active slot of the datagram. -/
structure Belongs (config : Config) (state : Defragmenter) (frame : Frame) (now : BitVec 64)
    (fuel : Nat) (l4Offset : BitVec 32) (index : Nat) : Prop where
  walked : (walk frame state fuel (.first frame)).outcome = .ok l4Offset
  lengths : (mk frame l4Offset).lengthsValid = true
  found : (findSlot config state ⟨frame, l4Offset⟩ now (List.range 8)).outcome =
    .ok (index, state.slots index)
  active : (state.slots index).isMatch ⟨frame, l4Offset⟩ = true

/-- What a slot keeps of the fragments it has accepted. -/
def Slot.received (slot : Slot) : Mask × BitVec 32 × BitVec 32 × BitVec 32 × Memory :=
  (slot.presenceMask, slot.currentBytesReceived, slot.highestByteReceived,
    slot.totalExpectedLength, slot.buffer)

/-- A fragment that is refused because it overlaps leaves its slot as it was, and what comes
later is handled as if the fragment had not been there. -/
def KeepsRefusing (config : Config) (state : Defragmenter) (frame : Frame) (now : BitVec 64) :
    Prop :=
  ∀ fuel l4Offset index, Belongs config state frame now fuel l4Offset index →
    ∀ refusal, (checkAndSet (state.dropped index (state.slots index))
      (state.slots index).presenceMask ⟨frame, l4Offset⟩).outcome = .error refusal →
    ∃ after, (processFragment config state frame now fuel).outcome = .error (.null after) ∧
      (after.slots index).received = (state.slots index).received ∧
      ∀ steps later, results config steps after later = results config steps state later

/-- A fragment that overlaps what its slot holds does so in its first word of the mask. -/
def OverlapsFirst (config : Config) (state : Defragmenter) (frame : Frame) (now : BitVec 64) :
    Prop :=
  ∀ fuel l4Offset index, Belongs config state frame now fuel l4Offset index →
    (∃ part ∈ (mk frame l4Offset).laterParts, Touches (state.slots index).presenceMask part) →
    Touches (state.slots index).presenceMask
      ((mk frame l4Offset).startWord, (mk frame l4Offset).firstBits)

variable {config : Config} {state : Defragmenter} {frame : Frame} {now : BitVec 64}

/-- A call with a fragment that is refused ends where the pass over the mask ends. -/
theorem Belongs.outcome {fuel : Nat} {l4Offset : BitVec 32} {index : Nat} {refusal : Halt}
    (belongs : Belongs config state frame now fuel l4Offset index)
    (refused : (checkAndSet (state.dropped index (state.slots index))
      (state.slots index).presenceMask ⟨frame, l4Offset⟩).outcome = .error refusal) :
    (processFragment config state frame now fuel).outcome = .error refusal := by
  rw [processFragment, outcome_readAt_bind, outcome_bind, belongs.walked]
  change (takeFragment config state ⟨frame, l4Offset⟩ now).outcome = _
  rw [takeFragment, outcome_readAt_bind, outcome_readAt_bind, if_pos belongs.lengths,
    outcome_readAt_bind, outcome_bind, belongs.found]
  change (storeFragment state ⟨frame, l4Offset⟩ index (state.slots index)).outcome = _
  rw [storeFragment, outcome_bind, refused]
  rfl

theorem keepsRefusing_iff :
    KeepsRefusing config state frame now ↔ OverlapsFirst config state frame now := by
  constructor
  · intro keeps fuel l4Offset index belongs touched
    by_contra free
    obtain ⟨mask, refused, marked⟩ := checkAndSet_traces free touched
    obtain ⟨after, ends, same, -⟩ := keeps fuel l4Offset index belongs _ refused
    rw [belongs.outcome refused] at ends
    cases ends
    have unmarked := congrArg Prod.fst same
    simp only [Slot.received, Defragmenter.setSlot, update_self] at unmarked
    exact marked (congrFun unmarked _)
  · intro first fuel l4Offset index belongs refusal refused
    have touched : Touches (state.slots index).presenceMask
        ((mk frame l4Offset).startWord, (mk frame l4Offset).firstBits) := by
      by_contra free
      have later := fun touched => free (first fuel l4Offset index belongs touched)
      rw [outcome_checkAndSet] at refused
      rcases setParts_cases (state.dropped index (state.slots index))
          (state.slots index).presenceMask _ (pairwise_parts ⟨frame, l4Offset⟩) with
        ⟨-, after, passes⟩ | ⟨⟨part, member, hit⟩, -⟩
      · rw [passes] at refused
        cases refused
      · rcases List.mem_cons.mp member with rfl | member
        · exact free hit
        · exact later ⟨part, member, hit⟩
    have atOnce : (checkAndSet (state.dropped index (state.slots index))
        (state.slots index).presenceMask ⟨frame, l4Offset⟩).outcome = .error (.null state) := by
      rw [outcome_checkAndSet, setParts, outcome_bind, outcome_setWord, if_pos touched]
      simp only [Defragmenter.dropped, Defragmenter.setSlot, update_eq_self]
      rfl
    exact ⟨state, belongs.outcome atOnce, rfl, fun _ _ => rfl⟩

end SlabFlux.Net.Ipv6Defragmenter

namespace SlabFlux.Net

/-- A refused fragment changes nothing: in the IPv4 defragmenter always, in the IPv6
defragmenter if and only if a fragment that overlaps does so in its first word of the mask. -/
theorem refusals_change_nothing (platform : Defragmenter.Platform)
    (state : Defragmenter.SpatialDefragmenter) (fragment : Defragmenter.Fragment)
    (config : Ipv6Defragmenter.Config) (state6 : Ipv6Defragmenter.Defragmenter)
    (frame : Ipv6Defragmenter.Frame) (now : BitVec 64) :
    Defragmenter.KeepsRefusing platform state fragment ∧
      (Ipv6Defragmenter.KeepsRefusing config state6 frame now ↔
        Ipv6Defragmenter.OverlapsFirst config state6 frame now) :=
  ⟨Defragmenter.keepsRefusing platform state fragment, Ipv6Defragmenter.keepsRefusing_iff⟩

namespace Ipv6Defragmenter

/-- A frame of 134 bytes with the first 72 bytes of a datagram. -/
def firstPiece : Frame where
  memory := fun place => ([(19, 80), (20, 44), (57, 1)].lookup place).getD 0
  physicalLength := 134
  atLeast := by decide

/-- A defragmenter that has bytes 64 to 71 of the datagram. -/
def secondPieceHeld : Defragmenter :=
  Defragmenter.initial.setSlot 0
    { Defragmenter.initial.slots 0 with
      active := true
      currentBytesReceived := 8
      highestByteReceived := 72
      presenceMask := Function.update (fun _ => 0) 1 0xFF }

/-- The piece that is refused marks the 64 bytes that nobody has sent yet as received. -/
theorem not_keepsRefusing_firstPiece :
    ¬KeepsRefusing ⟨1024, by decide⟩ secondPieceHeld firstPiece 0 := by
  rw [keepsRefusing_iff]
  intro first
  have belongs : Belongs ⟨1024, by decide⟩ secondPieceHeld firstPiece 0 1 54 0 :=
    ⟨rfl, by decide, rfl, by decide⟩
  have touched := first 1 54 0 belongs ⟨(1, 0xFF), by decide, by decide⟩
  revert touched
  decide

end Ipv6Defragmenter

end SlabFlux.Net
