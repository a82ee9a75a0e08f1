import Mathlib.Data.Finite.Prod
import SlabFlux.Lib.Walk
import SlabFlux.Net.Ipv6Defragmenter.Model

/-!
# When the defragmenter terminates and stays in bounds

The loop over the extension headers is a walk among finitely many headers.  It comes to an end
exactly if it reaches no header twice, which a length byte from 128 on can bring about.  Behind
the loop it is the lengths of the fragment and of the saved header that are not checked against
what is copied.
-/

namespace SlabFlux.Net.Ipv6Defragmenter

open Lib Trace Header
open Lib.Trace (readAt keeps_readAt_bind keeps_writeAt_bind)

variable {config : Config} {state : Defragmenter} {frame : Frame} {header : Header}
variable (fuel : Nat)

/-- The accesses that the function may make. -/
abbrev Allowed (config : Config) (frame : Frame) : Access Region → Prop :=
  Access.Allowed (size config frame) writable

/-! ## The chain of headers -/

/-- The header that the loop goes on to. -/
def Header.next (frame : Frame) (header : Header) : Option Header :=
  if header.isLast ∨ header.beyond frame ∨ header.isFragment then none
  else some (header.following frame)

/-- The headers that the loop reaches, in order. -/
def chain (frame : Frame) (steps : Nat) : Option Header :=
  visited (next frame) (.first frame) steps

/-- What is read of a header lies in the frame. -/
def Header.Inside (frame : Frame) (header : Header) : Prop :=
  if header.isFragment then header.l4Offset.toNat + 8 ≤ frame.physicalLength
  else header.l4Offset.toNat + 1 ≤ frame.physicalLength ∧
    (header.l4Offset + 1).toNat + 1 ≤ frame.physicalLength

/-- The loop looks into the header. -/
def Header.isRead (frame : Frame) (header : Header) : Bool :=
  ¬header.isLast ∧ ¬header.beyond frame

instance : Finite Header := by
  apply Finite.of_injective
    (fun header : Header => (header.l4Offset.toFin, header.nxtHdr.toFin))
  intro left right same
  obtain ⟨place, kind⟩ := Prod.mk.inj same
  cases left
  cases right
  cases BitVec.eq_of_toFin_eq place
  cases BitVec.eq_of_toFin_eq kind
  rfl

/-- One turn of the loop: it ends with `nullptr` at a header it does not look into, it ends
with a fragment header, or it goes on to the next header. -/
theorem walk_cases (frame : Frame) (state : Defragmenter) (fuel : Nat) (header : Header) :
    (header.isRead frame = false ∧ header.next frame = none ∧
      walk frame state (fuel + 1) header = .stop (.null state)) ∨
    (header.isRead frame = true ∧ header.isFragment = true ∧ header.next frame = none ∧
      walk frame state (fuel + 1) header = (do
        readAt .frame (header.l4Offset.toNat + 2) 2
        readAt .frame (header.l4Offset.toNat + 4) 4
        pure header.l4Offset)) ∨
    (header.isRead frame = true ∧ header.isFragment = false ∧
      header.next frame = some (header.following frame) ∧
      walk frame state (fuel + 1) header = (do
        readAt .frame header.l4Offset.toNat 1
        readAt .frame (header.l4Offset + 1).toNat 1
        walk frame state fuel (header.following frame))) := by
  rw [walk, next, isRead]
  cases last : header.isLast with
  | true => simp
  | false =>
    cases beyond : header.beyond frame with
    | true => simp
    | false =>
      cases kind : header.isFragment with
      | true => simp
      | false => simp

theorem walk_unfinished_iff :
    (walk frame state fuel header).outcome = .error .unfinished ↔
      visited (next frame) header fuel ≠ none := by
  induction fuel generalizing header with
  | zero => simp [walk, visited]
  | succ fuel ih =>
    rw [visited_succ]
    rcases walk_cases frame state fuel header with
      ⟨-, ends, walks⟩ | ⟨-, -, ends, walks⟩ | ⟨-, -, goes, walks⟩
    · simp [walks, ends]
    · simp [walks, ends]
    · rw [walks, goes, Option.bind_some, ← ih]
      rfl

theorem walk_eq_ok_iff (l4Offset : BitVec 32) :
    (walk frame state fuel header).outcome = .ok l4Offset ↔
      ∃ steps < fuel, ∃ reached, visited (next frame) header steps = some reached ∧
        reached.isRead frame = true ∧ reached.isFragment = true ∧ reached.l4Offset = l4Offset := by
  induction fuel generalizing header with
  | zero => simp [walk]
  | succ fuel ih =>
    rw [Nat.exists_lt_succ_left]
    simp only [visited_succ]
    rcases walk_cases frame state fuel header with
      ⟨unread, ends, walks⟩ | ⟨isRead, kind, ends, walks⟩ | ⟨-, kind, goes, walks⟩
    · simp [walks, ends, visited, unread]
    · simp [walks, ends, visited, isRead, kind]
    · rw [walks, goes]
      simp only [outcome_readAt_bind, Option.bind_some]
      rw [ih]
      simp [visited, kind]

theorem walk_keeps_iff :
    (walk frame state fuel header).Keeps (Allowed config frame) ↔
      ∀ steps < fuel, ∀ reached, visited (next frame) header steps = some reached →
        reached.isRead frame = true → reached.Inside frame := by
  induction fuel generalizing header with
  | zero => simp [walk]
  | succ fuel ih =>
    rw [Nat.forall_lt_succ_left]
    simp only [visited_succ]
    rcases walk_cases frame state fuel header with
      ⟨unread, ends, walks⟩ | ⟨isRead, kind, ends, walks⟩ | ⟨isRead, kind, goes, walks⟩
    · rw [walks, ends]
      simp [visited, unread]
    · rw [walks, ends]
      simp only [keeps_readAt_bind, keeps_pure,
        visited, Option.some.injEq, forall_eq', isRead, Inside, kind, if_true,
        Option.bind_none, reduceCtorEq, false_implies, implies_true, and_true, size, true_implies]
      omega
    · rw [walks, goes]
      simp only [keeps_readAt_bind,
        visited, Option.some.injEq, forall_eq', isRead, Inside, kind, Bool.false_eq_true,
        if_false, Option.bind_some, size, true_implies, and_assoc]
      exact and_congr_right fun _ => and_congr_right fun _ => ih

/-! ## The slot -/

variable {fragment : Fragment}

theorem probe_lt (step : Nat) : fragment.probe config step < config.maxConcurrentFrags := by
  have positive := config.positive
  have masked : (fragment.hash config + step) &&& (config.maxConcurrentFrags - 1) ≤
      config.maxConcurrentFrags - 1 := Nat.and_le_right
  rw [Fragment.probe]
  omega

variable {now : BitVec 64}

theorem findSlot_keeps (inside : fragment.l4Offset.toNat ≤ fragment.frame.physicalLength)
    (steps : List Nat) :
    (findSlot config state fragment now steps).Keeps (Allowed config fragment.frame) := by
  induction steps with
  | nil => exact keeps_stop
  | cons step steps ih =>
    have index : fragment.probe config step < config.maxConcurrentFrags := probe_lt step
    have saved : Slot.savedCount fragment ≤ fragment.l4Offset.toNat := Nat.min_le_left _ _
    have saved' : Slot.savedCount fragment ≤ 128 := Nat.min_le_right _ _
    rw [findSlot, keeps_readAt_bind]
    refine ⟨index, ?_⟩
    split
    · exact keeps_pure
    split
    · rw [keeps_readAt_bind, keeps_writeAt_bind]
      refine ⟨?_, ⟨?_, rfl⟩, keeps_pure⟩
      · rw [Nat.zero_add]
        exact saved.trans inside
      · rw [Nat.zero_add]
        exact saved'
    · exact ih

/-! ## The presence mask -/

variable {drop : OooMatrix.Mask → Halt} {mask : OooMatrix.Mask}

theorem setWord_keeps {word : Nat} (bits : BitVec 64) (inside : word < 1024) :
    (setWord drop mask word bits).Keeps (Allowed config frame) := by
  rw [setWord, keeps_readAt_bind]
  refine ⟨inside, ?_⟩
  split
  · exact keeps_stop
  · rw [keeps_writeAt_bind]
    exact ⟨⟨inside, rfl⟩, keeps_pure⟩

theorem fillWords_keeps {words : List Nat} (inside : ∀ word ∈ words, word < 1024) :
    (fillWords drop mask words).Keeps (Allowed config frame) := by
  induction words generalizing mask with
  | nil => exact keeps_pure
  | cons word words ih =>
    obtain ⟨first, later⟩ := List.forall_mem_cons.mp inside
    rw [fillWords, keeps_readAt_bind]
    refine ⟨first, ?_⟩
    split
    · exact keeps_stop
    · rw [keeps_writeAt_bind]
      exact ⟨⟨first, rfl⟩, ih later⟩

theorem offsetBytes_lt (fragment : Fragment) : fragment.offsetBytes.toNat < 65536 :=
  Nat.lt_of_le_of_lt Nat.and_le_right (by decide)

/-- The words of the mask are always those of the mask. -/
theorem checkAndSet_keeps (short : fragment.endBytes.toNat ≤ 65535) :
    (checkAndSet drop mask fragment).Keeps (Allowed config frame) := by
  have start : fragment.offsetBytes.toNat / 64 < 1024 :=
    Nat.div_lt_of_lt_mul (offsetBytes_lt fragment)
  have finish : fragment.endBytes.toNat / 64 < 1024 :=
    Nat.div_lt_of_lt_mul (Nat.lt_succ_of_le short)
  rw [checkAndSet]
  split
  · exact setWord_keeps _ start
  · rw [keeps_bind]
    refine ⟨setWord_keeps _ start, fun mask _ => ?_⟩
    rw [keeps_bind]
    refine ⟨fillWords_keeps ?_, fun mask _ => ?_⟩
    · intro word member
      rw [List.mem_range'_1] at member
      omega
    · split
      · exact setWord_keeps _ finish
      · exact keeps_pure

/-! ## The fragment -/

/-- The fragment completes the datagram of the slot. -/
def Slot.completes (slot : Slot) (fragment : Fragment) : Bool :=
  (slot.record fragment slot.presenceMask).isComplete

/-- The fragment is taken in: its lengths pass the checks, it has a slot, and it does not
overlap what is there. -/
structure Placed (config : Config) (state : Defragmenter) (fragment : Fragment)
    (now : BitVec 64) (index : Nat) (slot : Slot) (mask : OooMatrix.Mask) : Prop where
  lengths : fragment.lengthsValid = true
  found : (findSlot config state fragment now (List.range 8)).outcome = .ok (index, slot)
  fresh : (checkAndSet (state.dropped index slot) slot.presenceMask fragment).outcome = .ok mask

/-- The payload lies in the frame and fits into the buffer, and the header that was saved with
the slot is one that can be put in front of the datagram. -/
structure Fits (fragment : Fragment) (slot : Slot) : Prop where
  frame : fragment.headerLen.toNat + fragment.payloadLen.toNat ≤ fragment.frame.physicalLength
  buffer : fragment.offsetBytes.toNat + fragment.payloadLen.toNat ≤ 65536
  header : slot.completes fragment = true → 8 ≤ slot.headerLen.toNat ∧ slot.headerLen.toNat ≤ 128 ∧
      (slot.record fragment slot.presenceMask).totalExpectedLength.toNat ≤ 65536

theorem reassembleSlot_keeps_iff (index : Nat) (slot : Slot) :
    (reassembleSlot state index slot).Keeps (Allowed config frame) ↔
      8 ≤ slot.headerLen.toNat ∧ slot.headerLen.toNat ≤ 128 ∧
        slot.totalExpectedLength.toNat ≤ 65536 := by
  have place : slot.nextHeaderPlace + 1 ≤ 65536 + 128 ↔
      8 ≤ slot.headerLen.toNat ∧ slot.headerLen.toNat ≤ 65536 + 135 := by
    rw [Slot.nextHeaderPlace]
    split
    · case isTrue same =>
      rw [same]
      decide
    · rw [BitVec.toNat_sub]
      simp only [BitVec.reduceToNat]
      omega
  simp only [reassembleSlot, keeps_readAt_bind, keeps_writeAt_bind, keeps_pure,
    size, writable, place]
  simp only [ne_eq, reduceCtorEq, not_false_eq_true, decide_true, and_true]
  omega

theorem storeFragment_keeps_iff (index : Nat) (slot : Slot)
    (short : fragment.endBytes.toNat ≤ 65535) :
    (storeFragment state fragment index slot).Keeps (Allowed config fragment.frame) ↔
      ∀ mask, (checkAndSet (state.dropped index slot) slot.presenceMask fragment).outcome =
        .ok mask → Fits fragment slot := by
  rw [storeFragment, keeps_bind, and_iff_right (checkAndSet_keeps short)]
  refine forall_congr' fun mask => imp_congr_right fun _ => ?_
  have completes : (slot.record fragment mask).isComplete = slot.completes fragment := rfl
  rw [keeps_readAt_bind, keeps_writeAt_bind]
  dsimp only
  rw [completes]
  have rest : (if slot.completes fragment = true then
        reassembleSlot state index (slot.record fragment mask)
      else stop (Halt.null (state.setSlot index (slot.record fragment mask)))).Keeps
        (Allowed config fragment.frame) ↔
      (slot.completes fragment = true → 8 ≤ slot.headerLen.toNat ∧ slot.headerLen.toNat ≤ 128 ∧
        (slot.record fragment slot.presenceMask).totalExpectedLength.toNat ≤ 65536) := by
    split
    · case isTrue complete =>
      rw [reassembleSlot_keeps_iff, imp_iff_right complete]
      rfl
    · case isFalse partly => simp [partly]
  rw [rest]
  constructor
  · rintro ⟨frame, buffer, header⟩
    exact ⟨frame, buffer.1, header⟩
  · rintro ⟨frame, buffer, header⟩
    exact ⟨frame, ⟨buffer, rfl⟩, header⟩

theorem takeFragment_keeps_iff
    (inside : fragment.l4Offset.toNat + 8 ≤ fragment.frame.physicalLength) :
    (takeFragment config state fragment now).Keeps (Allowed config fragment.frame) ↔
      ∀ index slot mask, Placed config state fragment now index slot mask → Fits fragment slot := by
  have atLeast := fragment.frame.atLeast
  rw [takeFragment, keeps_readAt_bind, keeps_readAt_bind, size,
    and_iff_right (by omega), and_iff_right (by omega)]
  split
  · case isTrue valid =>
    have short : fragment.endBytes.toNat ≤ 65535 := by
      simp only [Fragment.lengthsValid, decide_eq_true_eq] at valid
      omega
    rw [keeps_readAt_bind, size, and_iff_right (by omega),
      keeps_bind, and_iff_right (findSlot_keeps (by omega) _)]
    constructor
    · rintro stored index slot mask ⟨-, found, fresh⟩
      exact (storeFragment_keeps_iff index slot short).mp (stored (index, slot) found) mask fresh
    · rintro fits ⟨index, slot⟩ found
      exact (storeFragment_keeps_iff index slot short).mpr fun mask fresh =>
        fits index slot mask ⟨valid, found, fresh⟩
  · case isFalse invalid =>
    rw [iff_true_left keeps_stop]
    rintro index slot mask ⟨valid, -, -⟩
    exact absurd valid invalid

/-! ## The function -/

/-- The call comes to an end and makes only accesses that it may make. -/
def Safe (config : Config) (state : Defragmenter) (frame : Frame) (now : BitVec 64) : Prop :=
  ∃ fuel, (processFragment config state frame now fuel).outcome ≠ .error .unfinished ∧
    (processFragment config state frame now fuel).Keeps (Allowed config frame)

theorem findSlot_finishes (steps : List Nat) :
    (findSlot config state fragment now steps).outcome ≠ .error .unfinished := by
  induction steps with
  | nil => simp [findSlot]
  | cons step steps ih =>
    rw [findSlot]
    split
    · simp
    split
    · simp
    · exact ih

section

variable (drops : ∀ mask, drop mask ≠ .unfinished)
include drops

theorem setWord_finishes (word : Nat) (bits : BitVec 64) :
    (setWord drop mask word bits).outcome ≠ .error .unfinished := by
  rw [setWord]
  split
  · intro unfinished
    exact drops mask (Except.error.inj unfinished)
  · simp

theorem fillWords_finishes (words : List Nat) :
    (fillWords drop mask words).outcome ≠ .error .unfinished := by
  induction words generalizing mask with
  | nil => simp [fillWords]
  | cons word words ih =>
    rw [fillWords]
    split
    · intro unfinished
      exact drops mask (Except.error.inj unfinished)
    · exact ih

theorem checkAndSet_finishes : (checkAndSet drop mask fragment).outcome ≠ .error .unfinished := by
  rw [checkAndSet]
  split
  · exact setWord_finishes drops _ _
  · apply outcome_bind_ne_error (setWord_finishes drops _ _)
    intro mask
    apply outcome_bind_ne_error (fillWords_finishes drops _)
    intro mask
    split
    · exact setWord_finishes drops _ _
    · simp

end

/-- Behind the first loop nothing is left unfinished. -/
theorem takeFragment_finishes :
    (takeFragment config state fragment now).outcome ≠ .error .unfinished := by
  rw [takeFragment]
  split
  · apply outcome_bind_ne_error (findSlot_finishes _)
    rintro ⟨index, slot⟩
    apply outcome_bind_ne_error (checkAndSet_finishes fun _ => Halt.noConfusion)
    intro mask
    dsimp only
    split
    · simp [reassembleSlot]
    · simp
  · simp

theorem processFragment_unfinished_iff :
    (processFragment config state frame now fuel).outcome = .error .unfinished ↔
      chain frame fuel ≠ none := by
  have walked : (walk frame state fuel (.first frame)).outcome = .error .unfinished ↔
      chain frame fuel ≠ none := walk_unfinished_iff fuel
  rw [processFragment, outcome_readAt_bind, outcome_bind, ← walked]
  cases (walk frame state fuel (.first frame)).outcome with
  | error halt => simp [Except.bind]
  | ok l4Offset =>
    constructor
    · intro unfinished
      exact absurd unfinished takeFragment_finishes
    · intro impossible
      cases impossible

theorem processFragment_keeps_iff :
    (processFragment config state frame now fuel).Keeps (Allowed config frame) ↔
      ∀ steps < fuel, ∀ reached, chain frame steps = some reached →
        reached.isRead frame = true → reached.Inside frame ∧
          (reached.isFragment = true → ∀ index slot mask,
            Placed config state ⟨frame, reached.l4Offset⟩ now index slot mask →
              Fits ⟨frame, reached.l4Offset⟩ slot) := by
  have atLeast := frame.atLeast
  rw [processFragment, keeps_readAt_bind, size, and_iff_right (by omega),
    keeps_bind, walk_keeps_iff]
  constructor
  · rintro ⟨inside, taken⟩ steps less reached visits isRead
    refine ⟨inside steps less reached visits isRead, fun kind => ?_⟩
    have place := inside steps less reached visits isRead
    rw [Inside, if_pos kind] at place
    exact (takeFragment_keeps_iff place).mp
      (taken _ ((walk_eq_ok_iff fuel _).mpr ⟨steps, less, reached, visits, isRead, kind, rfl⟩))
  · intro all
    refine ⟨fun steps less reached visits isRead => (all steps less reached visits isRead).1, ?_⟩
    intro l4Offset walked
    obtain ⟨steps, less, reached, visits, isRead, kind, rfl⟩ := (walk_eq_ok_iff fuel _).mp walked
    obtain ⟨place, fits⟩ := all steps less reached visits isRead
    rw [Inside, if_pos kind] at place
    exact (takeFragment_keeps_iff place).mpr (fits kind)

/-- The call terminates and stays in bounds exactly if no header is reached twice, every header
that is looked into lies in the frame, and a fragment that is taken in fits. -/
theorem safe_iff (config : Config) (state : Defragmenter) (frame : Frame) (now : BitVec 64) :
    Safe config state frame now ↔ (∀ first second header, chain frame first = some header →
        chain frame second = some header → first = second) ∧
      ∀ steps header, chain frame steps = some header → header.isRead frame = true →
        header.Inside frame ∧ (header.isFragment = true → ∀ index slot mask,
            Placed config state ⟨frame, header.l4Offset⟩ now index slot mask →
              Fits ⟨frame, header.l4Offset⟩ slot) := by
  have ends : (∃ steps, chain frame steps = none) ↔
      ∀ first second header, chain frame first = some header →
        chain frame second = some header → first = second := visited_ends_iff _ _
  rw [← ends]
  simp only [Safe, ne_eq, processFragment_unfinished_iff, not_not, processFragment_keeps_iff]
  constructor
  · rintro ⟨fuel, finished, kept⟩
    refine ⟨⟨fuel, finished⟩, fun steps header visits => kept steps ?_ header visits⟩
    by_contra late
    rw [chain, visited_eq_none_of_le finished (Nat.le_of_not_lt late)] at visits
    cases visits
  · rintro ⟨⟨fuel, finished⟩, kept⟩
    exact ⟨fuel, finished, fun steps _ header visits => kept steps header visits⟩

/-! ## Frames that are not handled -/

/-- A frame of 64 bytes that are zero, except for some. -/
def sparseFrame (bytes : List (Nat × BitVec 8)) : Frame where
  memory := fun place => (bytes.lookup place).getD 0
  physicalLength := 64
  atLeast := by decide

/-- A defragmenter that has seen nothing. -/
def Defragmenter.initial : Defragmenter where
  slots := fun _ =>
    { srcIp := (0, 0), dstIp := (0, 0), fragId := 0, active := false, totalExpectedLength := 0,
      currentBytesReceived := 0, highestByteReceived := 0, firstActiveTs := 0,
      presenceMask := fun _ => 0, buffer := fun _ => 0, headerLen := 0, nextHeader := 0,
      originalHeader := fun _ => 0 }
  reassembled := fun _ => 0

/-- An extension header with the length byte 255 is followed by itself. -/
theorem chain_lengthByte255 (steps : Nat) :
    chain (sparseFrame [(55, 0xFF)]) steps = some ⟨54, 0⟩ := by
  induction steps with
  | zero => rfl
  | succ steps ih =>
    rw [chain, visited]
    rw [chain] at ih
    rw [ih]
    decide

/-- With the length byte 255 the loop does not end; with the length byte 248 the fragment
header is looked for four gigabytes behind the frame. -/
theorem negativeAdvance_unsafe :
    ¬Safe ⟨1024, by decide⟩ .initial (sparseFrame [(55, 0xFF)]) 0 ∧
      ¬Safe ⟨1024, by decide⟩ .initial (sparseFrame [(54, 44), (55, 0xF8)]) 0 := by
  constructor
  · rintro ⟨fuel, finished, -⟩
    apply finished
    rw [processFragment_unfinished_iff, chain_lengthByte255]
    exact Option.some_ne_none _
  · rintro ⟨fuel, finished, kept⟩
    rw [ne_eq, processFragment_unfinished_iff, not_not] at finished
    have far : 1 < fuel := by
      by_contra early
      have reached := visited_eq_none_of_le finished (Nat.le_of_not_lt early)
      revert reached
      decide
    have inside := ((processFragment_keeps_iff fuel).mp kept 1 far ⟨4294967294, 44⟩ (by decide)
      (by decide)).1
    rw [Inside] at inside
    revert inside
    decide

end SlabFlux.Net.Ipv6Defragmenter
