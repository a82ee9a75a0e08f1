import SlabFlux.Lib.Word
import SlabFlux.Net.OooMatrix.Slots

/-!
# The mask and the slots describe one window

The matrix stands for a window: a partial map from the positions of the receive window
to the slots.  `Represents` ties the three parts of the matrix to it.  Every operation
keeps that tie as long as no segment crosses the window's end and no slide brings a
sequence number back into the window that a slot from the past still covers.

Presence is kept per byte and slots are found by the number they start at.  A matrix is
aligned at a number if every slot that holds the number starts at it; there the two views
agree.
-/

namespace SlabFlux.Net.OooMatrix

open Lib Lib.Sequence

variable {Mbuf : Type}

/-- A slot covers a sequence number. -/
abbrev MbufSlot.Covers (slot : MbufSlot Mbuf) (number : BitVec 32) : Prop :=
  Within slot.seq slot.logicalLen number

/-- What the matrix is for: which slot holds each position of the window. -/
abbrev Window := Nat → Option (Fin maxMbufs)

namespace Window

/-- The window that holds nothing. -/
def vacant : Window := fun _ => none

/-- Give a range to a slot. -/
def assign (window : Window) (offset length : Nat) (index : Fin maxMbufs) : Window :=
  fun position =>
    if offset ≤ position ∧ position < offset + length then some index else window position

/-- Take a range from its slot. -/
def withdraw (window : Window) (offset length : Nat) : Window :=
  fun position =>
    if offset ≤ position ∧ position < offset + length then none else window position

/-- Move the window forward. -/
def advance (window : Window) (shift : Nat) : Window :=
  fun position => if position + shift < windowSize then window (position + shift) else none

end Window

namespace Matrix

variable {segment : MbufSlot Mbuf} {currentRcvNxt : BitVec 32} {window : Window}
  {matrix : Matrix Mbuf}

/-- The sequence number of a window position. -/
def number (matrix : Matrix Mbuf) (position : Nat) : BitVec 32 :=
  matrix.baseSeq + BitVec.ofNat 32 position

/-- An active slot covers a sequence number. -/
abbrev Holds (matrix : Matrix Mbuf) (index : Fin maxMbufs) (number : BitVec 32) : Prop :=
  matrix.active index = true ∧ (matrix.slots index).Covers number

/-- The matrix represents a window: its slots hold what the window says, its mask marks
the positions that are held, and its slots end inside the window, are not empty and have
a buffer. -/
structure Represents (matrix : Matrix Mbuf) (window : Window) : Prop where
  held : ∀ position < windowSize, ∀ index,
    window position = some index ↔ matrix.Holds index (matrix.number position)
  marked : ∀ position < windowSize, matrix.presenceMask.bit position = (window position).isSome
  contained : ∀ index, matrix.active index = true →
    ((matrix.slots index).seq - matrix.baseSeq).toNat < windowSize →
    ((matrix.slots index).seq - matrix.baseSeq).toNat + (matrix.slots index).logicalLen ≤ windowSize
  nonempty : ∀ index, matrix.active index = true → 0 < (matrix.slots index).logicalLen
  buffered : ∀ index, matrix.active index = true → (matrix.slots index).mbuf.isSome = true

/-- The slide to `currentRcvNxt` brings no sequence number into the window that an
active slot covers. -/
abbrev SlidesClear (matrix : Matrix Mbuf) (currentRcvNxt : BitVec 32) : Prop :=
  (currentRcvNxt - matrix.baseSeq).toNat < windowSize →
    ∀ index, ∀ ahead < (currentRcvNxt - matrix.baseSeq).toNat,
      ¬matrix.Holds index (matrix.number (windowSize + ahead))

/-- A segment that starts in the window from `base` ends in it. -/
abbrev EndsInside (segment : MbufSlot Mbuf) (base : BitVec 32) : Prop :=
  (segment.seq - base).toNat < windowSize →
    (segment.seq - base).toNat + segment.logicalLen ≤ windowSize

/-- The condition on an insertion: the segment ends inside the window, which may first
have to slide. -/
abbrev Fits (matrix : Matrix Mbuf) (currentRcvNxt : BitVec 32) (segment : MbufSlot Mbuf) : Prop :=
  EndsInside segment matrix.baseSeq ∧ (windowSize ≤ (segment.seq - matrix.baseSeq).toNat →
      matrix.SlidesClear currentRcvNxt ∧ EndsInside segment (slidBase matrix.baseSeq currentRcvNxt))

/-- The condition on a call.  `reset` and `extract_contiguous_mbuf` have none. -/
def WithinWindow (matrix : Matrix Mbuf) : Operation Mbuf → Prop
  | .reset _ => True
  | .slideWindow currentRcvNxt => matrix.SlidesClear currentRcvNxt
  | .insertMbuf currentRcvNxt segment => matrix.Fits currentRcvNxt segment
  | .extractContiguousMbuf _ => True

instance (matrix : Matrix Mbuf) : DecidablePred matrix.WithinWindow := fun operation => by
  cases operation <;> unfold WithinWindow <;> infer_instance

/-! ## Single operations -/

/-- A matrix without active slots and marks represents the vacant window. -/
theorem Represents.of_inactive (inactive : ∀ index, matrix.active index = false)
    (unmarked : ∀ position < windowSize, matrix.presenceMask.bit position = false) :
    matrix.Represents .vacant where
  held position _ index := by
    simp [Window.vacant, Holds, inactive]
  marked position inside := unmarked position inside
  contained index isActive := by simp [inactive] at isActive
  nonempty index isActive := by simp [inactive] at isActive
  buffered index isActive := by simp [inactive] at isActive

theorem represents_fresh : (fresh : Matrix Mbuf).Represents .vacant :=
  .of_inactive (fun _ => rfl) (fun _ _ => BitVec.getLsbD_zero)

theorem represents_reset (matrix : Matrix Mbuf) (expectedNextSeq : BitVec 32) :
    (matrix.reset expectedNextSeq).Represents .vacant := by
  apply Represents.of_inactive
  · intro index
    rfl
  · intro position inside
    have word : position / 64 < maskLongs := by
      unfold windowSize maskLongs at *
      omega
    rw [Mask.bit, reset]
    simp only [if_pos word]
    exact BitVec.getLsbD_zero

section

variable (represents : matrix.Represents window)
include represents

/-- A slide keeps the representation. -/
theorem represents_slideWindow (clear : matrix.SlidesClear currentRcvNxt) :
    ∃ after, (matrix.slideWindow currentRcvNxt).Represents after := by
  rcases matrix.slideWindow_cases currentRcvNxt with
    ⟨result, _⟩ | ⟨result, _⟩ | ⟨near, _, result⟩
  · rw [result]
    exact ⟨window, represents⟩
  · rw [result]
    exact ⟨.vacant, matrix.represents_reset currentRcvNxt⟩
  · rw [result]
    unfold SlidesClear at clear
    generalize shifted : (currentRcvNxt - matrix.baseSeq).toNat = shift at *
    have moved : matrix.baseSeq + BitVec.ofNat 32 shift = currentRcvNxt := by
      rw [← shifted]
      exact add_ofNat_toNat_sub _ _
    have renumber : ∀ position,
        currentRcvNxt + BitVec.ofNat 32 position = matrix.number (position + shift) := by
      intro position
      rw [← moved, number, BitVec.add_assoc, ← BitVec.ofNat_add, Nat.add_comm shift]
    refine ⟨window.advance shift, ?_, ?_, ?_, represents.nonempty, represents.buffered⟩
    · intro position inside index
      change _ ↔ matrix.Holds index (currentRcvNxt + BitVec.ofNat 32 position)
      rw [renumber, Window.advance]
      by_cases stays : position + shift < windowSize
      · rw [if_pos stays]
        exact represents.held _ stays index
      · have exposed := clear near index (position + shift - windowSize) (by omega)
        rw [show windowSize + (position + shift - windowSize) = position + shift by omega]
          at exposed
        rw [if_neg stays]
        exact ⟨nofun, fun holds => absurd holds exposed⟩
    · intro position inside
      rw [Mask.bit_slide _ inside, Window.advance]
      split_ifs with stays
      · exact represents.marked _ stays
      · rfl
    · intro index isActive starts
      have shape := toNat_sub_eq matrix.baseSeq currentRcvNxt (matrix.slots index).seq
      have size : windowSize = 65536 := rfl
      change ((matrix.slots index).seq - currentRcvNxt).toNat < windowSize at starts
      change ((matrix.slots index).seq - currentRcvNxt).toNat +
        (matrix.slots index).logicalLen ≤ windowSize
      by_cases inside : ((matrix.slots index).seq - matrix.baseSeq).toNat < windowSize
      · have contained := represents.contained index isActive inside
        split_ifs at shape <;> omega
      · exfalso
        rw [if_pos (by omega)] at shape
        refine clear near index
          (((matrix.slots index).seq - matrix.baseSeq).toNat - windowSize) (by omega)
          ⟨isActive, ?_⟩
        rw [number, show windowSize + (((matrix.slots index).seq - matrix.baseSeq).toNat -
          windowSize) = ((matrix.slots index).seq - matrix.baseSeq).toNat by omega,
          add_ofNat_toNat_sub]
        exact within_start (represents.nonempty index isActive)

/-- Filling a free slot with a range whose positions are not held keeps the
representation. -/
theorem represents_store {index : Fin maxMbufs} (free : matrix.active index = false) {safeLen : Nat}
    {cut : Cut} (buffered : segment.mbuf.isSome = true)
    (length : (trimmedSlot segment safeLen cut).logicalLen = safeLen) (positive : 0 < safeLen)
    (whole : cut.logicalLen ≤ safeLen) (starts : (cut.seq - matrix.baseSeq).toNat = cut.offset)
    (ends : cut.offset + safeLen ≤ windowSize)
    (vacant : matrix.presenceMask.overlaps cut.offset safeLen = false) :
    (matrix.store index segment safeLen cut).Represents
      (window.assign cut.offset safeLen index) := by
  have size : windowSize = 65536 := rfl
  have slots : ∀ other, (matrix.store index segment safeLen cut).slots other =
      if other = index then trimmedSlot segment safeLen cut else matrix.slots other :=
    fun _ => Function.update_apply ..
  have active : ∀ other, (matrix.store index segment safeLen cut).active other =
      if other = index then true else matrix.active other :=
    fun _ => Function.update_apply ..
  have covers : ∀ position < windowSize,
      ((trimmedSlot segment safeLen cut).Covers (matrix.number position) ↔
        cut.offset ≤ position ∧ position < cut.offset + safeLen) := by
    intro position inside
    rw [MbufSlot.Covers, length, ← starts]
    exact within_iff (by change (cut.seq - _).toNat + _ ≤ _; omega) (by omega)
  have unheld : ∀ position, cut.offset ≤ position ∧ position < cut.offset + safeLen →
      window position = none := by
    intro position range
    have unmarked : matrix.presenceMask.bit position = false := by
      by_contra isSet
      have met := (Mask.overlaps_iff matrix.presenceMask cut.offset safeLen).mpr
        ⟨position, range, by simpa using isSet⟩
      rw [vacant] at met
      exact Bool.noConfusion met
    rw [represents.marked _ (by omega)] at unmarked
    exact Option.not_isSome_iff_eq_none.mp (by simp [unmarked])
  refine ⟨?_, ?_, ?_, ?_, ?_⟩
  · intro position inside other
    rw [Holds, active, slots, Window.assign]
    change _ ↔ _ ∧ MbufSlot.Covers _ (matrix.number position)
    have before := represents.held position inside
    by_cases isNew : other = index
    · subst isNew
      rw [if_pos rfl, if_pos rfl, covers position inside]
      split_ifs with range
      · simp [range]
      · have never : window position ≠ some other := by
          intro claimed
          have holds := (before other).mp claimed
          rw [Holds, free] at holds
          exact Bool.noConfusion holds.1
        simp [range, never]
    · rw [if_neg isNew, if_neg isNew]
      change _ ↔ matrix.Holds other (matrix.number position)
      rw [← before other]
      split_ifs with range
      · rw [unheld position range]
        simp [Ne.symm isNew]
      · rfl
  · intro position inside
    have mask : (matrix.store index segment safeLen cut).presenceMask =
        matrix.presenceMask.mark cut.offset safeLen := if_neg (by omega)
    rw [mask, Mask.bit_mark, Window.assign]
    split_ifs with range
    · rfl
    · exact represents.marked position inside
  · intro other isActive begins
    rw [slots] at begins ⊢
    rw [active] at isActive
    change (_ - matrix.baseSeq).toNat + _ ≤ _
    split_ifs at * with isNew
    · change (cut.seq - _).toNat + _ ≤ _
      omega
    · exact represents.contained other isActive begins
  · intro other isActive
    rw [slots]
    rw [active] at isActive
    split_ifs at * with isNew
    · rw [length]
      exact positive
    · exact represents.nonempty other isActive
  · intro other isActive
    rw [slots]
    rw [active] at isActive
    split_ifs at * with isNew
    · exact buffered
    · exact represents.buffered other isActive

/-- Placing a segment that ends inside the window keeps the representation. -/
theorem represents_place (buffered : segment.mbuf.isSome = true)
    (starts : (segment.seq - matrix.baseSeq).toNat < windowSize)
    (ends : (segment.seq - matrix.baseSeq).toNat + segment.logicalLen ≤ windowSize) :
    ∃ after, (matrix.place (segment.seq - matrix.baseSeq).toNat segment).1.Represents
      after := by
  have fits : min segment.logicalLen
      (windowSize - (segment.seq - matrix.baseSeq).toNat) = segment.logicalLen := by
    omega
  rcases matrix.place_cases (segment.seq - matrix.baseSeq).toNat segment with
    result | result | ⟨index, head, tail, free, nonempty, vacant, -, -, result⟩
  · rw [result]
    exact ⟨window, represents⟩
  · rw [result]
    exact ⟨.vacant, matrix.represents_reset matrix.baseSeq⟩
  · have length := logicalLen_trimmedSlot nonempty
    have shifted : (segment.seq + BitVec.ofNat 32 head - matrix.baseSeq).toNat =
        (segment.seq - matrix.baseSeq).toNat + head := by
      have size : windowSize = 65536 := rfl
      conv_lhs => rw [← add_ofNat_toNat_sub matrix.baseSeq segment.seq, BitVec.add_assoc,
        ← BitVec.ofNat_add]
      exact toNat_add_ofNat_sub _ (by omega)
    rw [fits] at nonempty vacant result length
    rw [result]
    refine ⟨_, represents_store represents free buffered length (by omega)
      (Nat.le_refl _) shifted ?_ vacant⟩
    change (segment.seq - matrix.baseSeq).toNat + head + _ ≤ _
    omega

/-- The window a segment meets is represented, and the segment ends inside it. -/
theorem represents_approach (fits : matrix.Fits currentRcvNxt segment) :
    (∃ after, (matrix.approach currentRcvNxt segment).Represents after) ∧
      EndsInside segment (matrix.approach currentRcvNxt segment).baseSeq := by
  unfold approach
  split_ifs with outside
  · rw [baseSeq_slideWindow]
    exact ⟨represents_slideWindow represents (fits.2 outside).1, (fits.2 outside).2⟩
  · exact ⟨⟨window, represents⟩, fits.1⟩

/-- An insertion keeps the representation. -/
theorem represents_insertMbuf (fits : matrix.Fits currentRcvNxt segment) :
    ∃ after, (matrix.insertMbuf currentRcvNxt segment).1.Represents after := by
  obtain ⟨⟨before, represented⟩, endsInside⟩ := represents_approach represents fits
  rcases matrix.insertMbuf_cases currentRcvNxt segment with
    result | ⟨_, buffered, result | ⟨starts, result⟩⟩
  · rw [result]
    exact ⟨window, represents⟩
  · rw [result]
    exact ⟨before, represented⟩
  · rw [result]
    exact represents_place represented buffered starts (endsInside starts)

/-- Releasing a slot that starts inside the window keeps the representation. -/
theorem represents_release {index : Fin maxMbufs} (isActive : matrix.active index = true)
    (starts : ((matrix.slots index).seq - matrix.baseSeq).toNat < windowSize) :
    (matrix.release index ((matrix.slots index).seq - matrix.baseSeq).toNat).Represents
      (window.withdraw ((matrix.slots index).seq - matrix.baseSeq).toNat
        (matrix.slots index).logicalLen) := by
  have size : windowSize = 65536 := rfl
  have ends := represents.contained index isActive starts
  generalize begins : ((matrix.slots index).seq - matrix.baseSeq).toNat = offset at *
  have slots : ∀ other, other ≠ index →
      (matrix.release index offset).slots other = matrix.slots other :=
    fun _ different => Function.update_of_ne different ..
  have active : ∀ other, (matrix.release index offset).active other =
      if other = index then false else matrix.active other :=
    fun _ => Function.update_apply ..
  have kept : ∀ other, (matrix.release index offset).active other = true →
      other ≠ index ∧ matrix.active other = true := by
    intro other stillActive
    rw [active] at stillActive
    split_ifs at stillActive with same
    exact ⟨same, stillActive⟩
  have covers : ∀ position < windowSize, (matrix.Holds index (matrix.number position) ↔
        offset ≤ position ∧ position < offset + (matrix.slots index).logicalLen) := by
    intro position inside
    rw [Holds, MbufSlot.Covers, number, within_iff (by omega) (by omega), begins]
    simp [isActive]
  refine ⟨?_, ?_, ?_, ?_, ?_⟩
  · intro position inside other
    have before := represents.held position inside
    have mine := covers position inside
    rw [← before index] at mine
    rw [Window.withdraw]
    by_cases same : other = index
    · subst same
      have gone : ¬(matrix.release other offset).Holds other
          ((matrix.release other offset).number position) := by
        rw [Holds, active, if_pos rfl]
        exact fun holds => Bool.noConfusion holds.1
      simp only [gone, iff_false]
      split_ifs with range
      · exact nofun
      · exact fun claimed => range (mine.mp claimed)
    · have unchanged : (matrix.release index offset).Holds other
          ((matrix.release index offset).number position) ↔
            matrix.Holds other (matrix.number position) := by
        rw [Holds, active, if_neg same, slots other same]
        rfl
      rw [unchanged, ← before other]
      split_ifs with range
      · rw [mine.mpr range]
        simp [Ne.symm same]
      · rfl
  · intro position inside
    have whole : min (matrix.slots index).logicalLen (windowSize - offset) =
        (matrix.slots index).logicalLen := by omega
    have mask : (matrix.release index offset).presenceMask =
        matrix.presenceMask.clear offset (matrix.slots index).logicalLen := by
      simp only [release, whole, lt_irrefl, if_false]
    rw [mask, Mask.bit_clear, Window.withdraw]
    split_ifs with range
    · rfl
    · exact represents.marked position inside
  · intro other stillActive
    obtain ⟨different, wasActive⟩ := kept other stillActive
    rw [slots other different]
    exact represents.contained other wasActive
  · intro other stillActive
    obtain ⟨different, wasActive⟩ := kept other stillActive
    rw [slots other different]
    exact represents.nonempty other wasActive
  · intro other stillActive
    obtain ⟨different, wasActive⟩ := kept other stillActive
    rw [slots other different]
    exact represents.buffered other wasActive

/-- The rebase after a release keeps the representation: it moves the base of a matrix
without slots, or slides by a whole window. -/
theorem represents_rebase {logicalLen : Nat}
    (ends : (currentRcvNxt - matrix.baseSeq).toNat + logicalLen ≤ windowSize) :
    ∃ after, (matrix.rebase currentRcvNxt (currentRcvNxt - matrix.baseSeq).toNat
      logicalLen).Represents after := by
  have size : windowSize = 65536 := rfl
  unfold rebase
  split_ifs with drained reaches
  · refine ⟨.vacant, .of_inactive drained fun position inside => ?_⟩
    rw [represents.marked position inside]
    cases claimed : window position with
    | none => rfl
    | some index =>
        have holds := (represents.held position inside index).mp claimed
        rw [Holds, drained] at holds
        exact Bool.noConfusion holds.1
  · have next : (currentRcvNxt + BitVec.ofNat 32 logicalLen - matrix.baseSeq).toNat =
        windowSize := by
      rw [← add_ofNat_toNat_sub matrix.baseSeq currentRcvNxt, BitVec.add_assoc,
        ← BitVec.ofNat_add, toNat_add_ofNat_sub _ (by omega)]
      omega
    rcases matrix.slideWindow_cases (currentRcvNxt + BitVec.ofNat 32 logicalLen) with
      ⟨result, _⟩ | ⟨result, _⟩ | ⟨near, _, _⟩
    · rw [result]
      exact ⟨window, represents⟩
    · rw [result]
      exact ⟨.vacant, matrix.represents_reset _⟩
    · omega
  · exact ⟨window, represents⟩

/-- An extraction keeps the representation. -/
theorem represents_extractContiguousMbuf (currentRcvNxt : BitVec 32) :
    ∃ after, (matrix.extractContiguousMbuf currentRcvNxt).1.Represents after := by
  rcases matrix.extractContiguousMbuf_cases currentRcvNxt with
    result | ⟨index, inside, _, isActive, starts, result⟩
  · rw [result]
    exact ⟨window, represents⟩
  · rw [result]
    rw [← starts] at inside
    have released := represents_release represents isActive inside
    have ends := represents.contained index isActive inside
    rw [starts] at released ends
    exact represents_rebase released ends

end

/-! ## Runs -/

/-- One call that meets its condition keeps the representation. -/
theorem represents_step (matrix : Matrix Mbuf) (operation : Operation Mbuf)
    (represents : ∃ window, matrix.Represents window)
    (within : matrix.WithinWindow operation) :
    ∃ after, (matrix.step operation).Represents after := by
  obtain ⟨window, represents⟩ := represents
  cases operation with
  | reset expectedNextSeq => exact ⟨.vacant, matrix.represents_reset expectedNextSeq⟩
  | slideWindow currentRcvNxt => exact represents_slideWindow represents within
  | insertMbuf currentRcvNxt segment => exact represents_insertMbuf represents within
  | extractContiguousMbuf currentRcvNxt =>
      exact represents_extractContiguousMbuf represents currentRcvNxt

/-- A matrix that represents a window marks exactly the numbers that one slot covers. -/
theorem Represents.bit_iff (represents : matrix.Represents window) {position : Nat}
    (inside : position < windowSize) :
    matrix.presenceMask.bit position = true ↔
      ∃! index, matrix.Holds index (matrix.number position) := by
  rw [represents.marked position inside]
  simp only [← represents.held position inside]
  cases window position with
  | none => simp [ExistsUnique]
  | some index => simp

/-- In every run whose calls meet their conditions, a presence bit is set exactly when
one active slot covers its sequence number. -/
theorem presence_iff_uniqueSlot (operations : List (Operation Mbuf))
    (within : Admissible step WithinWindow fresh operations) {position : Nat}
    (inside : position < windowSize) :
    (execute step fresh operations).presenceMask.bit position = true ↔
      ∃! index, (execute step fresh operations).Holds index
        ((execute step fresh operations).number position) := by
  obtain ⟨window, represents⟩ := execute_invariant_of_admissible represents_step
    ⟨.vacant, represents_fresh⟩ within
  exact represents.bit_iff inside

/-- A run with an overlapping insertion, a slide and an extraction. -/
theorem presence_iff_uniqueSlot_overlap : let operations : List (Operation Unit) :=
      [.insertMbuf 0 ⟨10, 8, some (), 54, 0x10⟩, .insertMbuf 0 ⟨14, 8, some (), 54, 0x11⟩,
        .slideWindow 10, .extractContiguousMbuf 10]
    Admissible step WithinWindow fresh operations ∧
      ((execute step fresh operations).presenceMask.bit 8 = true ↔
        ∃! index, (execute step fresh operations).Holds index
          ((execute step fresh operations).number 8)) := by
  refine ⟨by decide +kernel, presence_iff_uniqueSlot _ (by decide +kernel) (by decide)⟩

/-- A segment that crosses the window's end marks positions at the window's start that no
slot covers. -/
theorem presence_without_slot :
    let matrix := ((fresh : Matrix Unit).insertMbuf 0 ⟨65535, 2, some (), 54, 0x10⟩).1
    matrix.presenceMask.bit 0 = true ∧ ∀ index, ¬matrix.Holds index (matrix.number 0) := by
  decide +kernel

end Matrix

end SlabFlux.Net.OooMatrix

/-! ## Alignment -/

namespace SlabFlux.Net.OooMatrix.Matrix

open Lib.Sequence

variable {Mbuf : Type} {matrix : Matrix Mbuf}

/-- Every slot that holds a number starts at it. -/
def Aligned (matrix : Matrix Mbuf) (number : BitVec 32) : Prop :=
  ∀ index, matrix.Holds index number → (matrix.slots index).seq = number

instance (matrix : Matrix Mbuf) (number : BitVec 32) : Decidable (matrix.Aligned number) :=
  inferInstanceAs (Decidable (∀ _, _ → _))

/-- A matrix whose active slots are slots of an aligned one is aligned. -/
theorem Aligned.of_active {matrix after : Matrix Mbuf} {number : BitVec 32}
    (aligned : matrix.Aligned number)
    (old : ∀ index, after.active index = true →
      matrix.active index = true ∧ after.slots index = matrix.slots index) :
    after.Aligned number := by
  intro index holds
  obtain ⟨isActive, same⟩ := old index holds.1
  rw [same]
  exact aligned index ⟨isActive, same ▸ holds.2⟩

theorem aligned_reset (matrix : Matrix Mbuf) (expectedNextSeq number : BitVec 32) :
    (matrix.reset expectedNextSeq).Aligned number :=
  fun _ holds => Bool.noConfusion holds.1

/-- An insertion of a segment that does not start before a number keeps the matrix
aligned there. -/
theorem Aligned.insertMbuf {number : BitVec 32} (aligned : matrix.Aligned number)
    (currentRcvNxt : BitVec 32) {segment : MbufSlot Mbuf}
    (ahead : (segment.seq - number).toNat ≤ 0x7FFFFFFF) :
    (matrix.insertMbuf currentRcvNxt segment).1.Aligned number := by
  intro index holds
  rcases filled_insertMbuf holds.1 with ⟨isActive, same⟩ |
    ⟨offset, head, tail, room, filled, -⟩
  · rw [same]
    exact aligned index ⟨isActive, same ▸ holds.2⟩
  · have covers := holds.2
    rw [filled, MbufSlot.Covers, logicalLen_trimmedSlot room] at covers
    change (number - (segment.seq + BitVec.ofNat 32 head)).toNat < _ at covers
    have size : windowSize = 65536 := rfl
    rw [filled]
    change segment.seq + BitVec.ofNat 32 head = number
    -- The distance back from the slot is zero or goes almost all the way round.
    bv_omega

/-- The number after a slot is not inside another one. -/
theorem Represents.aligned_end {window : Window} (represents : matrix.Represents window)
    {index : Fin maxMbufs} (isActive : matrix.active index = true)
    (starts : ((matrix.slots index).seq - matrix.baseSeq).toNat < windowSize) :
    matrix.Aligned
      ((matrix.slots index).seq + BitVec.ofNat 32 (matrix.slots index).logicalLen) := by
  have size : windowSize = 65536 := rfl
  have ends := represents.contained index isActive starts
  have nonempty := represents.nonempty index isActive
  generalize length : (matrix.slots index).logicalLen = logicalLen at *
  generalize start : (matrix.slots index).seq = seq at *
  intro other holds
  by_contra inside
  -- The last number of the slot, as a position of the window.
  have last : matrix.number ((seq - matrix.baseSeq).toNat + (logicalLen - 1)) =
      seq + BitVec.ofNat 32 (logicalLen - 1) := by
    rw [number, BitVec.ofNat_add, ← BitVec.add_assoc, add_ofNat_toNat_sub]
  have mine : matrix.Holds index (seq + BitVec.ofNat 32 (logicalLen - 1)) := by
    refine ⟨isActive, ?_⟩
    rw [MbufSlot.Covers, Within, start, toNat_add_ofNat_sub seq (by omega)]
    omega
  have theirs : matrix.Holds other (seq + BitVec.ofNat 32 (logicalLen - 1)) := by
    refine ⟨holds.1, ?_⟩
    have covers := holds.2
    rw [MbufSlot.Covers, Within] at covers ⊢
    bv_omega
  rw [← last] at mine theirs
  have position : (seq - matrix.baseSeq).toNat + (logicalLen - 1) < windowSize := by omega
  have same := ((represents.held _ position index).mpr mine).symm.trans
    ((represents.held _ position other).mpr theirs)
  obtain rfl : index = other := Option.some.inj same
  have covers := holds.2
  rw [MbufSlot.Covers, Within, start, toNat_add_ofNat_sub seq (by omega)] at covers
  omega

/-- A number that is marked, and where the matrix is aligned, is extracted, and its slot is
freed. -/
theorem Represents.extracts {window : Window} (represents : matrix.Represents window)
    {number : BitVec 32} (aligned : matrix.Aligned number)
    (inside : (number - matrix.baseSeq).toNat < windowSize)
    (present : matrix.presenceMask.bit (number - matrix.baseSeq).toNat = true) :
    ∃ index mbuf, matrix.active index = true ∧ (matrix.slots index).mbuf = some mbuf ∧
      (matrix.extractContiguousMbuf number).2 = some (matrix.slots index) ∧
      (matrix.extractContiguousMbuf number).1.active index = false := by
  have found : (matrix.slotAt number).isSome = true := by
    rw [represents.marked _ inside] at present
    obtain ⟨holder, claimed⟩ := Option.isSome_iff_exists.mp present
    have holds := (represents.held _ inside holder).mp claimed
    rw [Matrix.number, add_ofNat_toNat_sub] at holds
    rw [slotAt, List.find?_isSome]
    exact ⟨holder, List.mem_finRange holder, by simp [holds.1, aligned holder holds]⟩
  obtain ⟨index, slot⟩ := Option.isSome_iff_exists.mp found
  obtain ⟨isActive, _⟩ := slotAt_eq_some slot
  obtain ⟨mbuf, buffered⟩ := Option.isSome_iff_exists.mp (represents.buffered index isActive)
  have result : matrix.extractContiguousMbuf number =
      ((matrix.release index (number - matrix.baseSeq).toNat).rebase number
        (number - matrix.baseSeq).toNat (matrix.slots index).logicalLen,
        some (matrix.slots index)) := by
    unfold extractContiguousMbuf
    rw [if_neg (by omega), Mask.test_eq_bit, present, if_neg (by decide), slot]
  refine ⟨index, mbuf, isActive, buffered, by rw [result], ?_⟩
  rw [result, ← Bool.not_eq_true]
  intro stillActive
  have released := (active_rebase stillActive).1
  dsimp only [release] at released
  rw [Function.update_self] at released
  exact Bool.noConfusion released

end SlabFlux.Net.OooMatrix.Matrix
