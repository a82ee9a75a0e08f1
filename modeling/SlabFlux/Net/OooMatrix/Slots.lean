import SlabFlux.Net.OooMatrix.Model

/-!
# What the operations leave in the slots

One description for each operation: what trimming leaves of a segment, where a slide
moves the base, and which slots are active after a call with what they hold.
-/

namespace SlabFlux.Net.OooMatrix

variable {Mbuf : Type}

namespace MbufSlot

theorem logicalLen_of_pos {slot : MbufSlot Mbuf} (positive : 0 < slot.len.toNat) :
    slot.logicalLen = slot.len.toNat := by
  have present : slot.len ≠ 0 := by
    intro zero
    rw [zero] at positive
    exact absurd positive (by decide)
  rw [logicalLen, if_neg fun bare => present bare.1]

end MbufSlot

namespace Cut

/-- The variables after `head` bytes are dropped from the front and `tail` bytes from
the back. -/
def trimmed (cut : Cut) (head tail : Nat) : Cut where
  offset := cut.offset + head
  logicalLen := cut.logicalLen - head - tail
  len := cut.len - head - tail
  payloadOffset := cut.payloadOffset + BitVec.ofNat 16 head
  seq := cut.seq + BitVec.ofNat 32 head

/-- The front loop drops marked bytes up to the first that is not. -/
theorem trimHead_spec (mask : Mask) (safeLen : Nat) (cut : Cut) :
    ∃ head ≤ safeLen, trimHead mask safeLen cut = (safeLen - head, cut.trimmed head 0) ∧
      (∀ skipped < head, mask.bit (cut.offset + skipped) = true) ∧
      (head < safeLen → mask.bit (cut.offset + head) = false) := by
  induction safeLen generalizing cut with
  | zero =>
      exact ⟨0, Nat.le_refl 0, by simp [trimHead, trimmed], fun _ none => absurd none (by omega),
        fun none => absurd none (by omega)⟩
  | succ safeLen ih =>
      rw [trimHead, Mask.test_eq_bit]
      cases first : mask.bit cut.offset with
      | true =>
          obtain ⟨head, bound, result, marked, unmarked⟩ := ih cut.dropFirst
          refine ⟨head + 1, by omega, ?_, ?_, ?_⟩
          · rw [if_pos rfl, result]
            simp only [dropFirst, trimmed, Prod.mk.injEq, Cut.mk.injEq, BitVec.ofNat_add,
              Nat.sub_zero]
            refine ⟨by omega, by omega, by omega, by omega, ?_, ?_⟩
            · rw [BitVec.add_assoc, BitVec.add_comm 1]
              rfl
            · rw [BitVec.add_assoc, BitVec.add_comm 1]
              rfl
          · intro skipped below
            cases skipped with
            | zero => exact first
            | succ skipped =>
                have inner := marked skipped (by omega)
                rw [show cut.dropFirst.offset = cut.offset + 1 from rfl, Nat.add_right_comm]
                  at inner
                exact inner
          · intro more
            have inner := unmarked (by omega)
            rw [show cut.dropFirst.offset = cut.offset + 1 from rfl, Nat.add_right_comm] at inner
            exact inner
      | false =>
          refine ⟨0, Nat.zero_le _, by simp [trimmed], fun _ none => absurd none (by omega),
            fun _ => first⟩

/-- The back loop drops marked bytes down to the last that is not. -/
theorem trimTail_spec (mask : Mask) (safeLen : Nat) (cut : Cut) :
    ∃ tail ≤ safeLen, trimTail mask safeLen cut = (safeLen - tail, cut.trimmed 0 tail) ∧
      (∀ kept, safeLen - tail ≤ kept → kept < safeLen → mask.bit (cut.offset + kept) = true) ∧
      (tail < safeLen → mask.bit (cut.offset + (safeLen - tail - 1)) = false) := by
  induction safeLen generalizing cut with
  | zero =>
      exact ⟨0, Nat.le_refl 0, by simp [trimTail, trimmed], fun _ _ none => absurd none (by omega),
        fun none => absurd none (by omega)⟩
  | succ safeLen ih =>
      rw [trimTail, Mask.test_eq_bit]
      cases last : mask.bit (cut.offset + safeLen) with
      | true =>
          obtain ⟨tail, bound, result, marked, unmarked⟩ := ih cut.dropLast
          refine ⟨tail + 1, by omega, ?_, ?_, ?_⟩
          · rw [if_pos rfl, result]
            simp only [dropLast, trimmed, Prod.mk.injEq, Cut.mk.injEq, Nat.sub_zero,
              and_true, true_and]
            exact ⟨by omega, by omega, by omega⟩
          · intro kept above below
            by_cases top : kept = safeLen
            · rw [top]
              exact last
            · exact marked kept (by omega) (by omega)
          · intro more
            rw [show safeLen + 1 - (tail + 1) - 1 = safeLen - tail - 1 by omega]
            exact unmarked (by omega)
      | false =>
          exact ⟨0, Nat.zero_le _, by simp [trimmed], fun _ above below => absurd above (by omega),
            fun _ => last⟩

end Cut

namespace Matrix

/-! ## What trimming leaves -/

variable {segment : MbufSlot Mbuf} {matrix : Matrix Mbuf}

/-- Trimming drops some bytes from the front and some from the back of the part of the
segment that lies in the window: those that are marked, up to one that is not. -/
theorem trim_spec (matrix : Matrix Mbuf) (offset : Nat) (segment : MbufSlot Mbuf) {inside : Nat}
    (fits : min segment.logicalLen (windowSize - offset) = inside) :
    ∃ head tail, head + tail ≤ inside ∧ matrix.trim offset segment =
        (inside - head - tail, (Cut.start offset segment).trimmed head tail) ∧
      (∀ skipped < head, matrix.presenceMask.bit (offset + skipped) = true) ∧
      (∀ kept, inside - tail ≤ kept → kept < inside →
        matrix.presenceMask.bit (offset + kept) = true) ∧
      (head + tail < inside → matrix.presenceMask.bit (offset + head) = false ∧
        matrix.presenceMask.bit (offset + (inside - tail - 1)) = false) := by
  obtain ⟨head, headBound, headResult, headMarked, headUnmarked⟩ :=
    Cut.trimHead_spec matrix.presenceMask inside (.start offset segment)
  obtain ⟨tail, tailBound, tailResult, tailMarked, tailUnmarked⟩ :=
    Cut.trimTail_spec matrix.presenceMask (inside - head)
      ((Cut.start offset segment).trimmed head 0)
  have shifted : ((Cut.start offset segment).trimmed head 0).offset = offset + head := rfl
  refine ⟨head, tail, by omega, ?_, headMarked, ?_, ?_⟩
  · simp only [trim, fits, headResult, tailResult]
    simp [Cut.trimmed]
  · intro kept above below
    have inner := tailMarked (kept - head) (by omega) (by omega)
    rw [shifted, show offset + head + (kept - head) = offset + kept by omega] at inner
    exact inner
  · intro nonempty
    have inner := tailUnmarked (by omega)
    rw [shifted, show offset + head + (inside - head - tail - 1) = offset + (inside - tail - 1)
      by omega] at inner
    exact ⟨headUnmarked (by omega), inner⟩

/-- The gateways take lengths from IP headers, of 16 bits.  Then the range that `insert_mbuf` tests
and marks ends in the window, and so does the one at the window's start: no word behind the array
is accessed. -/
theorem trim_inside (matrix : Matrix Mbuf) {offset : Nat} {segment : MbufSlot Mbuf}
    (inside : offset < windowSize) (short : segment.len.toNat < 2 ^ 16) :
    (matrix.trim offset segment).2.offset + (matrix.trim offset segment).1 ≤ windowSize ∧
      (matrix.trim offset segment).2.logicalLen - (matrix.trim offset segment).1 ≤ windowSize := by
  obtain ⟨head, tail, bound, trims, -⟩ := matrix.trim_spec offset segment rfl
  have logical : segment.logicalLen ≤ windowSize := by
    unfold MbufSlot.logicalLen windowSize
    split_ifs <;> omega
  rw [trims]
  change offset + head + _ ≤ _ ∧ segment.logicalLen - head - tail - _ ≤ _
  omega

theorem trimmedSlot_of_lt {safeLen : Nat} {cut : Cut} (truncated : safeLen < cut.logicalLen) :
    trimmedSlot segment safeLen cut =
      { seq := cut.seq, len := BitVec.ofNat 32 safeLen, mbuf := segment.mbuf
        payloadOffset := cut.payloadOffset, flags := segment.flags &&& ~~~finFlag } := by
  rw [trimmedSlot, if_pos truncated, if_pos truncated]

theorem trimmedSlot_of_le {safeLen : Nat} {cut : Cut} (whole : cut.logicalLen ≤ safeLen) :
    trimmedSlot segment safeLen cut =
      { seq := cut.seq, len := BitVec.ofNat 32 cut.len, mbuf := segment.mbuf
        payloadOffset := cut.payloadOffset, flags := segment.flags } := by
  rw [trimmedSlot, if_neg (by omega), if_neg (by omega)]

/-- The length of the slot that is filled is what trimming left in the window. -/
theorem logicalLen_trimmedSlot {offset head tail : Nat}
    (nonempty : head + tail < min segment.logicalLen (windowSize - offset)) :
    (trimmedSlot segment (min segment.logicalLen (windowSize - offset) - head - tail)
        ((Cut.start offset segment).trimmed head tail)).logicalLen =
      min segment.logicalLen (windowSize - offset) - head - tail := by
  generalize fits : min segment.logicalLen (windowSize - offset) = inside at *
  have bound : inside < 2 ^ 32 := by
    have : windowSize < 2 ^ 32 := by decide
    omega
  have ofLen : ∀ slot : MbufSlot Mbuf, slot.len = BitVec.ofNat 32 (inside - head - tail) →
      slot.logicalLen = inside - head - tail := by
    intro slot stored
    have value : slot.len.toNat = inside - head - tail := by
      rw [stored, BitVec.toNat_ofNat, Nat.mod_eq_of_lt (by omega)]
    rw [MbufSlot.logicalLen_of_pos (by omega), value]
  by_cases truncated : inside < segment.logicalLen
  · apply ofLen
    rw [trimmedSlot_of_lt]
    change _ < segment.logicalLen - head - tail
    omega
  · have whole : segment.logicalLen = inside := by omega
    rw [trimmedSlot_of_le (show segment.logicalLen - head - tail ≤ _ by omega)]
    by_cases bare : segment.len = 0 ∧ segment.fin = true
    · have one : segment.logicalLen = 1 := by rw [MbufSlot.logicalLen, if_pos bare]
      have empty : (Cut.start offset segment).len - head - tail = 0 := by
        rw [Cut.start, bare.1]
        simp
      rw [Cut.trimmed, empty, MbufSlot.logicalLen, if_pos ⟨rfl, bare.2⟩]
      omega
    · apply ofLen
      have plain : segment.logicalLen = segment.len.toNat := by
        rw [MbufSlot.logicalLen, if_neg bare]
      rw [Cut.trimmed, Cut.start, ← plain, whole]

/-! ## Slides -/

variable {currentRcvNxt : BitVec 32}

/-- Where the window starts after a slide: it only ever moves forward. -/
def slidBase (base currentRcvNxt : BitVec 32) : BitVec 32 :=
  if (currentRcvNxt - base).toInt ≤ 0 then base else currentRcvNxt

/-- What a slide does: nothing, a reset, or a move by less than a window. -/
theorem slideWindow_cases (matrix : Matrix Mbuf) (currentRcvNxt : BitVec 32) :
    matrix.slideWindow currentRcvNxt = matrix ∧
        slidBase matrix.baseSeq currentRcvNxt = matrix.baseSeq ∨
      matrix.slideWindow currentRcvNxt = matrix.reset currentRcvNxt ∧
        slidBase matrix.baseSeq currentRcvNxt = currentRcvNxt ∧
        0 < (currentRcvNxt - matrix.baseSeq).toInt ∧
        windowSize ≤ (currentRcvNxt - matrix.baseSeq).toNat ∨
      (currentRcvNxt - matrix.baseSeq).toNat < windowSize ∧
        slidBase matrix.baseSeq currentRcvNxt = currentRcvNxt ∧
        matrix.slideWindow currentRcvNxt = { matrix with
            presenceMask :=
              matrix.presenceMask.slide (currentRcvNxt - matrix.baseSeq).toNat
            baseSeq := currentRcvNxt } := by
  unfold slideWindow slidBase
  by_cases same : currentRcvNxt = matrix.baseSeq
  · left
    subst same
    simp
  · rw [if_neg same]
    by_cases behind : (currentRcvNxt - matrix.baseSeq).toInt ≤ 0
    · left
      exact ⟨if_pos behind, if_pos behind⟩
    · right
      rw [if_neg behind, if_neg behind]
      by_cases far : windowSize ≤ (currentRcvNxt - matrix.baseSeq).toNat
      · left
        exact ⟨if_pos far, rfl, by omega, far⟩
      · right
        exact ⟨by omega, rfl, if_neg far⟩

theorem baseSeq_slideWindow (matrix : Matrix Mbuf) (currentRcvNxt : BitVec 32) :
    (matrix.slideWindow currentRcvNxt).baseSeq = slidBase matrix.baseSeq currentRcvNxt := by
  rcases matrix.slideWindow_cases currentRcvNxt with
    ⟨result, target⟩ | ⟨result, target, -⟩ | ⟨_, target, result⟩
  · rw [result, target]
  · rw [result, target]
    rfl
  · rw [result, target]

/-! ## Searches -/

variable {index : Fin maxMbufs}

theorem active_of_freeSlot (found : matrix.freeSlot = some index) :
    matrix.active index = false := by
  have inactive := List.find?_some found
  simpa using inactive

theorem slotAt_eq_some (found : matrix.slotAt currentRcvNxt = some index) :
    matrix.active index = true ∧ (matrix.slots index).seq = currentRcvNxt := by
  have matched := List.find?_some found
  simpa using matched

/-! ## What a call can do -/

/-- Placing a segment changes nothing, resets the matrix for want of a slot, or fills a
free slot.  A segment that is cut at the back had its last number marked. -/
theorem place_cases (matrix : Matrix Mbuf) (offset : Nat) (segment : MbufSlot Mbuf) :
    matrix.place offset segment = (matrix, false) ∨
      matrix.place offset segment = (matrix.reset matrix.baseSeq, false) ∨
      ∃ index head tail, matrix.active index = false ∧
        head + tail < min segment.logicalLen (windowSize - offset) ∧
        matrix.presenceMask.overlaps (offset + head)
          (min segment.logicalLen (windowSize - offset) - head - tail) = false ∧
        (0 < tail → matrix.presenceMask.bit
          (offset + (min segment.logicalLen (windowSize - offset) - 1)) = true) ∧
        matrix.presenceMask.bit (offset + head) = false ∧
        matrix.place offset segment = (matrix.store index segment
            (min segment.logicalLen (windowSize - offset) - head - tail)
            ((Cut.start offset segment).trimmed head tail), true) := by
  obtain ⟨head, tail, bound, result, -, marked, unmarked⟩ := matrix.trim_spec offset segment rfl
  unfold place
  rw [result]
  dsimp only
  split_ifs with isEmpty overlap frontOverlap
  · exact Or.inl rfl
  · exact Or.inl rfl
  · exact Or.inl rfl
  · cases free : matrix.freeSlot with
    | none => exact Or.inr (Or.inl rfl)
    | some index =>
        refine Or.inr (Or.inr ⟨index, head, tail, active_of_freeSlot free, by omega, ?_,
          fun some => marked _ (by omega) (by omega), (unmarked (by omega)).1, rfl⟩)
        exact Bool.eq_false_iff.mpr overlap

/-- An insertion refuses the segment, or slides if it must and then refuses or places
it. -/
theorem insertMbuf_cases (matrix : Matrix Mbuf) (currentRcvNxt : BitVec 32)
    (segment : MbufSlot Mbuf) :
    matrix.insertMbuf currentRcvNxt segment = (matrix, false) ∨
      segment.logicalLen ≠ 0 ∧ segment.mbuf.isSome = true ∧
        (matrix.insertMbuf currentRcvNxt segment = (matrix.approach currentRcvNxt segment, false) ∨
          (segment.seq - (matrix.approach currentRcvNxt segment).baseSeq).toNat < windowSize ∧
            matrix.insertMbuf currentRcvNxt segment = (matrix.approach currentRcvNxt segment).place
                (segment.seq - (matrix.approach currentRcvNxt segment).baseSeq).toNat
                segment) := by
  unfold insertMbuf
  dsimp only
  split_ifs with refused outside
  · exact Or.inl rfl
  · push Not at refused
    exact Or.inr ⟨refused.1, Option.isSome_iff_ne_none.mpr refused.2, Or.inl rfl⟩
  · push Not at refused
    exact Or.inr ⟨refused.1, Option.isSome_iff_ne_none.mpr refused.2, Or.inr ⟨by omega, rfl⟩⟩

/-- An extraction finds nothing, or takes an active slot that starts at `rcv_nxt`. -/
theorem extractContiguousMbuf_cases (matrix : Matrix Mbuf) (currentRcvNxt : BitVec 32) :
    matrix.extractContiguousMbuf currentRcvNxt = (matrix, none) ∨
      ∃ index, (currentRcvNxt - matrix.baseSeq).toNat < windowSize ∧
        matrix.presenceMask.bit (currentRcvNxt - matrix.baseSeq).toNat = true ∧
        matrix.active index = true ∧ (matrix.slots index).seq = currentRcvNxt ∧
        matrix.extractContiguousMbuf currentRcvNxt =
          ((matrix.release index (currentRcvNxt - matrix.baseSeq).toNat).rebase
            currentRcvNxt (currentRcvNxt - matrix.baseSeq).toNat
            (matrix.slots index).logicalLen, some (matrix.slots index)) := by
  unfold extractContiguousMbuf
  dsimp only
  split_ifs with outside unmarked
  · exact Or.inl rfl
  · exact Or.inl rfl
  · cases found : matrix.slotAt currentRcvNxt with
    | none => exact Or.inl rfl
    | some index =>
        obtain ⟨isActive, starts⟩ := slotAt_eq_some found
        rw [Mask.test_eq_bit, Bool.not_eq_false] at unmarked
        exact Or.inr ⟨index, by omega, unmarked, isActive, starts, rfl⟩

/-! ## Active slots after a call -/

/-- A slot holds a run of a segment's bytes: sequence number and payload offset moved by
the same amount, and the length stayed inside the segment. -/
def PartOf (slot segment : MbufSlot Mbuf) : Prop :=
  ∃ skip, slot.seq = segment.seq + BitVec.ofNat 32 skip ∧
    slot.payloadOffset = segment.payloadOffset + BitVec.ofNat 16 skip ∧
    slot.mbuf = segment.mbuf ∧ skip + slot.len.toNat ≤ segment.len.toNat

/-- The slot that is filled holds a run of the segment's bytes. -/
theorem partOf_trimmedSlot {offset head tail : Nat}
    (nonempty : head + tail < min segment.logicalLen (windowSize - offset)) :
    PartOf (trimmedSlot segment (min segment.logicalLen (windowSize - offset) - head - tail)
      ((Cut.start offset segment).trimmed head tail)) segment := by
  generalize fits : min segment.logicalLen (windowSize - offset) = inside at *
  refine ⟨head, rfl, rfl, rfl, ?_⟩
  by_cases bare : segment.len = 0 ∧ segment.fin = true
  · have one : segment.logicalLen = 1 := by rw [MbufSlot.logicalLen, if_pos bare]
    rw [trimmedSlot_of_le (show segment.logicalLen - head - tail ≤ _ by omega)]
    change head + (segment.len.toNat - head - tail) % 2 ^ 32 ≤ _
    simp
    omega
  · have plain : segment.logicalLen = segment.len.toNat := by
      rw [MbufSlot.logicalLen, if_neg bare]
    by_cases truncated : inside < segment.logicalLen
    · rw [trimmedSlot_of_lt (show _ < segment.logicalLen - head - tail by omega)]
      change head + (inside - head - tail) % 2 ^ 32 ≤ _
      omega
    · rw [trimmedSlot_of_le (show segment.logicalLen - head - tail ≤ _ by omega)]
      change head + (segment.len.toNat - head - tail) % 2 ^ 32 ≤ _
      omega

theorem active_slideWindow (isActive : (matrix.slideWindow currentRcvNxt).active index = true) :
    matrix.active index = true ∧
      (matrix.slideWindow currentRcvNxt).slots index = matrix.slots index := by
  rcases matrix.slideWindow_cases currentRcvNxt with
    ⟨result, _⟩ | ⟨result, _⟩ | ⟨_, _, result⟩
  · rw [result] at isActive ⊢
    exact ⟨isActive, rfl⟩
  · rw [result] at isActive
    exact Bool.noConfusion isActive
  · rw [result] at isActive ⊢
    exact ⟨isActive, rfl⟩

/-- After an insertion an active slot is an old one or the one that was filled. -/
theorem filled_insertMbuf
    (isActive : (matrix.insertMbuf currentRcvNxt segment).1.active index = true) :
    matrix.active index = true ∧
        (matrix.insertMbuf currentRcvNxt segment).1.slots index = matrix.slots index ∨
      ∃ offset head tail, head + tail < min segment.logicalLen (windowSize - offset) ∧
        (matrix.insertMbuf currentRcvNxt segment).1.slots index =
          trimmedSlot segment (min segment.logicalLen (windowSize - offset) - head - tail)
            ((Cut.start offset segment).trimmed head tail) ∧
        offset = (segment.seq - (matrix.approach currentRcvNxt segment).baseSeq).toNat ∧
        (0 < tail → (matrix.approach currentRcvNxt segment).presenceMask.bit
          (offset + (min segment.logicalLen (windowSize - offset) - 1)) = true) ∧
        (matrix.approach currentRcvNxt segment).presenceMask.bit (offset + head) = false := by
  have approached : ∀ {index}, (matrix.approach currentRcvNxt segment).active index = true →
      matrix.active index = true ∧
        (matrix.approach currentRcvNxt segment).slots index = matrix.slots index := by
    intro index active
    unfold approach at *
    split_ifs at * with outside
    · exact active_slideWindow active
    · exact ⟨active, rfl⟩
  rcases matrix.insertMbuf_cases currentRcvNxt segment with
    result | ⟨_, _, result | ⟨_, result⟩⟩
  · rw [result] at isActive ⊢
    exact Or.inl ⟨isActive, rfl⟩
  · rw [result] at isActive ⊢
    exact Or.inl (approached isActive)
  · rw [result] at isActive ⊢
    rcases (matrix.approach currentRcvNxt segment).place_cases _ segment with
      result | result | ⟨filled, head, tail, _, nonempty, _, marked, unmarked, result⟩
    · rw [result] at isActive ⊢
      exact Or.inl (approached isActive)
    · rw [result] at isActive
      exact Bool.noConfusion isActive
    · rw [result] at isActive ⊢
      dsimp only [store] at *
      by_cases same : index = filled
      · right
        rw [same, Function.update_self]
        exact ⟨_, head, tail, nonempty, rfl, rfl, marked, unmarked⟩
      · left
        rw [Function.update_of_ne same] at isActive ⊢
        exact approached isActive

/-- After an insertion an active slot is an old one or holds a run of the segment. -/
theorem active_insertMbuf
    (isActive : (matrix.insertMbuf currentRcvNxt segment).1.active index = true) :
    matrix.active index = true ∧
        (matrix.insertMbuf currentRcvNxt segment).1.slots index = matrix.slots index ∨
      PartOf ((matrix.insertMbuf currentRcvNxt segment).1.slots index) segment := by
  rcases filled_insertMbuf isActive with old | ⟨offset, head, tail, nonempty, filled, -⟩
  · exact Or.inl old
  · right
    rw [filled]
    exact partOf_trimmedSlot nonempty

theorem active_release {taken index : Fin maxMbufs} {offset : Nat}
    (isActive : (matrix.release taken offset).active index = true) :
    matrix.active index = true ∧
      (matrix.release taken offset).slots index = matrix.slots index := by
  dsimp only [release] at *
  by_cases same : index = taken
  · rw [same, Function.update_self] at isActive
    exact Bool.noConfusion isActive
  · rw [Function.update_of_ne same] at isActive ⊢
    exact ⟨isActive, rfl⟩

theorem active_rebase {offset logicalLen : Nat}
    (isActive : (matrix.rebase currentRcvNxt offset logicalLen).active index = true) :
    matrix.active index = true ∧
      (matrix.rebase currentRcvNxt offset logicalLen).slots index = matrix.slots index := by
  dsimp only [rebase] at *
  split_ifs at * with drained reaches
  · exact ⟨isActive, rfl⟩
  · exact active_slideWindow isActive
  · exact ⟨isActive, rfl⟩

/-- An extraction leaves only old slots active. -/
theorem active_extractContiguousMbuf
    (isActive : (matrix.extractContiguousMbuf currentRcvNxt).1.active index = true) :
    matrix.active index = true ∧
      (matrix.extractContiguousMbuf currentRcvNxt).1.slots index = matrix.slots index := by
  rcases matrix.extractContiguousMbuf_cases currentRcvNxt with
    result | ⟨taken, _, _, _, _, result⟩
  · rw [result] at isActive ⊢
    exact ⟨isActive, rfl⟩
  · rw [result] at isActive ⊢
    obtain ⟨before, unchanged⟩ := active_rebase isActive
    exact ⟨(active_release before).1, unchanged.trans (active_release before).2⟩

/-- The slot an extraction takes was active and starts at `rcv_nxt`. -/
theorem extractContiguousMbuf_eq_some {slot : MbufSlot Mbuf}
    (taken : (matrix.extractContiguousMbuf currentRcvNxt).2 = some slot) :
    ∃ index, matrix.active index = true ∧ matrix.slots index = slot ∧ slot.seq = currentRcvNxt := by
  rcases matrix.extractContiguousMbuf_cases currentRcvNxt with
    result | ⟨index, _, _, isActive, starts, result⟩
  · rw [result] at taken
    exact nomatch taken
  · rw [result] at taken
    obtain rfl : matrix.slots index = slot := Option.some.inj taken
    exact ⟨index, isActive, rfl, starts⟩

end Matrix

end SlabFlux.Net.OooMatrix
