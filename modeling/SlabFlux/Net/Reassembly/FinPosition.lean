import SlabFlux.Net.OooMatrix.Conservation
import SlabFlux.Net.Reassembly.Model

/-!
# The position of a buffered FIN

A segment with FIN may be trimmed before it is stored.  What is cut off at the front moves its
sequence number, and what lies beyond the window takes the FIN with it; what is cut off at the back
leaves the FIN on a shorter segment.
-/

namespace SlabFlux.Net.OooMatrix.Matrix

variable {Mbuf : Type} {matrix : Matrix Mbuf} {currentRcvNxt : BitVec 32} {segment : MbufSlot Mbuf}

/-- The last number of a segment with FIN that ends inside the window is not stored yet, or all of
the segment is. -/
abbrev KeepsEnd (matrix : Matrix Mbuf) (currentRcvNxt : BitVec 32) (segment : MbufSlot Mbuf) :
    Prop :=
  let matrix := matrix.approach currentRcvNxt segment
  let offset := (segment.seq - matrix.baseSeq).toNat
  segment.fin = true → offset + segment.logicalLen ≤ windowSize →
    matrix.presenceMask.bit (offset + (segment.logicalLen - 1)) = true →
    ∀ index < segment.logicalLen, matrix.presenceMask.bit (offset + index) = true

/-- A filled slot has FIN only if the segment has it and nothing lies beyond the window. -/
theorem fin_trimmedSlot {safeLen : Nat} {cut : Cut}
    (fin : (trimmedSlot segment safeLen cut).fin = true) :
    segment.fin = true ∧ cut.logicalLen ≤ safeLen := by
  by_cases truncated : safeLen < cut.logicalLen
  · rw [trimmedSlot_of_lt truncated] at fin
    simp [MbufSlot.fin, finFlag, BitVec.and_assoc] at fin
  · rw [trimmedSlot_of_le (Nat.le_of_not_lt truncated)] at fin
    exact ⟨fin, Nat.le_of_not_lt truncated⟩

/-- A slot that lost nothing at the back and nothing beyond the window ends where the segment
ends. -/
theorem end_trimmedSlot {offset head safeLen : Nat} (room : head < segment.logicalLen)
    (whole : segment.logicalLen - head ≤ safeLen) :
    (trimmedSlot segment safeLen ((Cut.start offset segment).trimmed head 0)).seq +
        (trimmedSlot segment safeLen ((Cut.start offset segment).trimmed head 0)).len =
      segment.seq + segment.len := by
  have start : head ≤ segment.len.toNat := by
    rw [MbufSlot.logicalLen] at room
    split_ifs at room <;> omega
  rw [trimmedSlot_of_le whole]
  change segment.seq + BitVec.ofNat 32 head + BitVec.ofNat 32 (segment.len.toNat - head - 0) = _
  rw [BitVec.add_assoc, ← BitVec.ofNat_add, Nat.sub_zero, Nat.add_sub_cancel' start,
    BitVec.ofNat_toNat, BitVec.setWidth_eq]

/-- After the insertion of a segment whose end is kept, a slot with FIN is an old one or ends where
the segment does. -/
theorem fin_insertMbuf {index : Fin maxMbufs} (keeps : matrix.KeepsEnd currentRcvNxt segment)
    (isActive : (matrix.insertMbuf currentRcvNxt segment).1.active index = true)
    (fin : ((matrix.insertMbuf currentRcvNxt segment).1.slots index).fin = true) :
    matrix.active index = true ∧
        (matrix.insertMbuf currentRcvNxt segment).1.slots index = matrix.slots index ∨
      segment.fin = true ∧ ((matrix.insertMbuf currentRcvNxt segment).1.slots index).seq +
          ((matrix.insertMbuf currentRcvNxt segment).1.slots index).len =
            segment.seq + segment.len := by
  obtain old | ⟨offset, head, tail, room, filled, place, marked, unmarked⟩ :=
    filled_insertMbuf isActive
  · exact .inl old
  · right
    rw [filled] at fin ⊢
    obtain ⟨flag, whole⟩ := fin_trimmedSlot fin
    change segment.logicalLen - head - tail ≤ _ at whole
    have inside : min segment.logicalLen (windowSize - offset) = segment.logicalLen := by omega
    rw [inside] at room whole marked ⊢
    have uncut : tail = 0 := by
      by_contra cut
      subst place
      have all := keeps flag (by omega) (marked (by omega)) head (by omega)
      rw [unmarked] at all
      exact Bool.noConfusion all
    subst uncut
    exact ⟨flag, end_trimmedSlot (by omega) (by omega)⟩

/-! ## How many -/

theorem card_slotsWith_slideWindow_le (matrix : Matrix Mbuf) (currentRcvNxt : BitVec 32)
    (property : MbufSlot Mbuf → Bool) :
    ((matrix.slideWindow currentRcvNxt).slotsWith property).card ≤
      (matrix.slotsWith property).card := by
  obtain ⟨result, -⟩ | ⟨result, -⟩ | ⟨-, -, result⟩ := matrix.slideWindow_cases currentRcvNxt
  · rw [result]
  · simp [result]
  · rw [result]
    rfl

/-- An insertion adds a slot with FIN only for a segment with FIN. -/
theorem card_fin_insertMbuf_le (matrix : Matrix Mbuf) (currentRcvNxt : BitVec 32)
    (segment : MbufSlot Mbuf) :
    ((matrix.insertMbuf currentRcvNxt segment).1.slotsWith MbufSlot.fin).card ≤
      (matrix.slotsWith MbufSlot.fin).card + if segment.fin then 1 else 0 := by
  have approached : ((matrix.approach currentRcvNxt segment).slotsWith MbufSlot.fin).card ≤
      (matrix.slotsWith MbufSlot.fin).card := by
    unfold approach
    split_ifs
    · exact matrix.card_slotsWith_slideWindow_le currentRcvNxt MbufSlot.fin
    · exact Nat.le_refl _
  obtain result | ⟨-, -, result | ⟨-, result⟩⟩ := matrix.insertMbuf_cases currentRcvNxt segment
  · rw [result]
    exact Nat.le_add_right _ _
  · rw [result]
    exact Nat.le_add_right_of_le approached
  · rw [result]
    obtain result | result | ⟨index, head, tail, inactive, -, -, -, -, result⟩ :=
      (matrix.approach currentRcvNxt segment).place_cases _ segment
    · rw [result]
      exact Nat.le_add_right_of_le approached
    · rw [result]
      simp
    · rw [result, card_slotsWith_store inactive]
      apply Nat.add_le_add approached
      split_ifs with stored flag
      · exact Nat.le_refl 1
      · exact absurd (fin_trimmedSlot stored).1 flag
      · exact Nat.zero_le _
      · exact Nat.zero_le _

/-- An extraction that takes a slot with FIN leaves one less. -/
theorem card_fin_extractContiguousMbuf_le (matrix : Matrix Mbuf) (currentRcvNxt : BitVec 32) :
    ((matrix.extractContiguousMbuf currentRcvNxt).1.slotsWith MbufSlot.fin).card +
        (if (matrix.extractContiguousMbuf currentRcvNxt).2.any MbufSlot.fin then 1 else 0) ≤
      (matrix.slotsWith MbufSlot.fin).card := by
  obtain result | ⟨index, -, -, active, -, result⟩ :=
    matrix.extractContiguousMbuf_cases currentRcvNxt
  · rw [result]
    exact Nat.le_refl _
  · rw [result, ← card_slotsWith_release active]
    apply Nat.add_le_add_right
    unfold rebase
    split_ifs
    · exact Nat.le_refl _
    · exact card_slotsWith_slideWindow_le _ _ _
    · exact Nat.le_refl _

end SlabFlux.Net.OooMatrix.Matrix

namespace SlabFlux.Net.Reassembly

open Lib Net.OooMatrix

variable {Mbuf : Type}

/-- Segments reach the matrix, bytes that arrive in order move `rcv_nxt`, and the gateway takes
segments out. -/
inductive FinMove (Mbuf : Type) where
  | insert (segment : Segment Mbuf)
  | advance (rcvNxt : BitVec 32)
  | extract

/-- A receiver, with the segments with FIN that were fed to it and the values of `rcv_nxt` at which
a FIN was consumed. -/
structure FinRun (Mbuf : Type) where
  receiver : Receiver Mbuf
  fed : List (Segment Mbuf)
  consumed : List (BitVec 32)

namespace FinRun

def start (rcvNxt base : BitVec 32) : FinRun Mbuf := ⟨.start rcvNxt base, [], []⟩

/-- Where one turn of the gateway's loop consumes a FIN. -/
def finOfTurn (receiver : Receiver Mbuf) : List (BitVec 32) :=
  match (receiver.matrix.extractContiguousMbuf receiver.rcvNxt).2 with
  | none => []
  | some slot => if slot.mbuf.isSome ∧ slot.fin then [receiver.rcvNxt + slot.len] else []

def step (run : FinRun Mbuf) : FinMove Mbuf → FinRun Mbuf
  | .insert segment =>
      { run with
        receiver := run.receiver.insert segment
        fed := if segment.fin then run.fed ++ [segment] else run.fed }
  | .advance rcvNxt => { run with receiver := { run.receiver with rcvNxt := rcvNxt } }
  | .extract =>
      { run with
        receiver := run.receiver.extract
        consumed := run.consumed ++ finOfTurn run.receiver }

/-- The insertions keep the ends of segments with FIN. -/
def KeepsEnd (run : FinRun Mbuf) : FinMove Mbuf → Prop
  | .insert segment => run.receiver.matrix.KeepsEnd run.receiver.rcvNxt segment.toSlot
  | _ => True

instance (run : FinRun Mbuf) : DecidablePred run.KeepsEnd := fun move =>
  match move with
  | .insert segment =>
      inferInstanceAs (Decidable (run.receiver.matrix.KeepsEnd run.receiver.rcvNxt segment.toSlot))
  | .advance _ | .extract => isTrue trivial

/-- A number is the end of a segment with FIN that was fed. -/
def IsEnd (run : FinRun Mbuf) (number : BitVec 32) : Prop :=
  ∃ segment ∈ run.fed, number = segment.seq + segment.len

/-- Every FIN, stored or consumed, is at the end of a segment that was fed, and there are not more
of them than such segments. -/
structure Placed (run : FinRun Mbuf) : Prop where
  stored : ∀ index, run.receiver.matrix.active index = true →
    (run.receiver.matrix.slots index).fin = true →
    run.IsEnd ((run.receiver.matrix.slots index).seq + (run.receiver.matrix.slots index).len)
  consumed : ∀ number ∈ run.consumed, run.IsEnd number
  few : (run.receiver.matrix.slotsWith MbufSlot.fin).card + run.consumed.length ≤ run.fed.length

theorem placed_start (rcvNxt base : BitVec 32) : (start rcvNxt base : FinRun Mbuf).Placed where
  stored _ active := Bool.noConfusion active
  consumed _ member := nomatch member
  few := by simp [start, Receiver.start]

variable {run : FinRun Mbuf}

theorem matrix_extract (receiver : Receiver Mbuf) :
    receiver.extract.matrix = (receiver.matrix.extractContiguousMbuf receiver.rcvNxt).1 := by
  unfold Receiver.extract
  cases receiver.matrix.extractContiguousMbuf receiver.rcvNxt with
  | mk matrix taken =>
      cases taken with
      | none => rfl
      | some slot =>
          cases held : slot.mbuf with
          | none => simp only [held]
          | some mbuf =>
              simp only [held]
              split_ifs <;> rfl

theorem Placed.insert (placed : run.Placed) {segment : Segment Mbuf}
    (keeps : run.receiver.matrix.KeepsEnd run.receiver.rcvNxt segment.toSlot) :
    (run.step (.insert segment)).Placed := by
  have kept {number : BitVec 32} (isEnd : run.IsEnd number) :
      (run.step (.insert segment)).IsEnd number := by
    obtain ⟨other, member, equal⟩ := isEnd
    refine ⟨other, ?_, equal⟩
    rw [step]
    split_ifs
    · exact List.mem_append_left _ member
    · exact member
  refine ⟨?_, fun number member => kept (placed.consumed number member), ?_⟩
  · intro index active fin
    obtain ⟨wasActive, same⟩ | ⟨flag, equal⟩ := Matrix.fin_insertMbuf keeps active fin
    · change (run.step (.insert segment)).receiver.matrix.slots index = _ at same
      rw [same] at fin ⊢
      exact kept (placed.stored index wasActive fin)
    · refine ⟨segment, ?_, equal⟩
      have fed : segment.fin = true := flag
      rw [step, if_pos fed]
      exact List.mem_append_right _ List.mem_cons_self
  · have card := run.receiver.matrix.card_fin_insertMbuf_le run.receiver.rcvNxt segment.toSlot
    have few := placed.few
    change ((run.receiver.matrix.insertMbuf run.receiver.rcvNxt segment.toSlot).1.slotsWith
      MbufSlot.fin).card + run.consumed.length ≤
        (if segment.fin then run.fed ++ [segment] else run.fed).length
    change _ ≤ _ + (if segment.fin then 1 else 0) at card
    split_ifs at card ⊢
    · rw [List.length_append, List.length_singleton]
      omega
    · omega

/-- What a turn consumes was stored. -/
theorem finOfTurn_spec (receiver : Receiver Mbuf) :
    (∀ number ∈ finOfTurn receiver, ∃ index, receiver.matrix.active index = true ∧
      (receiver.matrix.slots index).fin = true ∧
      number = (receiver.matrix.slots index).seq + (receiver.matrix.slots index).len) ∧
    (finOfTurn receiver).length ≤
      if (receiver.matrix.extractContiguousMbuf receiver.rcvNxt).2.any MbufSlot.fin then 1
      else 0 := by
  unfold finOfTurn
  cases taken : (receiver.matrix.extractContiguousMbuf receiver.rcvNxt).2 with
  | none => exact ⟨(fun _ member => nomatch member), Nat.zero_le _⟩
  | some slot =>
      obtain ⟨index, active, rfl, starts⟩ := Matrix.extractContiguousMbuf_eq_some taken
      dsimp only
      split_ifs with consumes flag
      · refine ⟨?_, Nat.le_refl 1⟩
        intro number member
        rw [List.mem_singleton.mp member]
        exact ⟨index, active, consumes.2, by rw [starts]⟩
      · exact absurd consumes.2 flag
      · exact ⟨(fun _ member => nomatch member), Nat.zero_le _⟩
      · exact ⟨(fun _ member => nomatch member), Nat.zero_le _⟩

theorem Placed.extract (placed : run.Placed) : (run.step .extract).Placed := by
  obtain ⟨stored, short⟩ := finOfTurn_spec run.receiver
  have matrix := matrix_extract run.receiver
  refine ⟨?_, ?_, ?_⟩
  · intro index active fin
    change run.receiver.extract.matrix.active index = true at active
    change (run.receiver.extract.matrix.slots index).fin = true at fin
    change run.IsEnd ((run.receiver.extract.matrix.slots index).seq +
      (run.receiver.extract.matrix.slots index).len)
    rw [matrix] at active fin ⊢
    obtain ⟨wasActive, same⟩ := Matrix.active_extractContiguousMbuf active
    rw [same] at fin ⊢
    exact placed.stored index wasActive fin
  · intro number member
    obtain old | new := List.mem_append.mp member
    · exact placed.consumed number old
    · obtain ⟨index, active, fin, rfl⟩ := stored number new
      exact placed.stored index active fin
  · have card := run.receiver.matrix.card_fin_extractContiguousMbuf_le run.receiver.rcvNxt
    have few := placed.few
    change (run.receiver.extract.matrix.slotsWith MbufSlot.fin).card +
      (run.consumed ++ finOfTurn run.receiver).length ≤ run.fed.length
    rw [matrix, List.length_append]
    omega

theorem placed_step (run : FinRun Mbuf) (move : FinMove Mbuf) (placed : run.Placed)
    (keeps : run.KeepsEnd move) : (run.step move).Placed := by
  cases move with
  | insert segment => exact placed.insert keeps
  | advance rcvNxt => exact ⟨placed.stored, placed.consumed, placed.few⟩
  | extract => exact placed.extract

end FinRun

/-- In every run whose insertions keep the ends, the FIN of the one segment that has it is consumed
at the end of that segment, and once. -/
theorem fin_consumed_at_end (rcvNxt base : BitVec 32) (moves : List (FinMove Mbuf))
    (keeps : Admissible FinRun.step FinRun.KeepsEnd (.start rcvNxt base) moves)
    (last : Segment Mbuf) (one : (execute FinRun.step (.start rcvNxt base) moves).fed = [last]) :
    (execute FinRun.step (.start rcvNxt base) moves).consumed = [] ∨
      (execute FinRun.step (.start rcvNxt base) moves).consumed = [last.seq + last.len] := by
  have placed := execute_invariant_of_admissible FinRun.placed_step
    (FinRun.placed_start rcvNxt base) keeps
  have few := placed.few
  have ends := placed.consumed
  rw [one] at few
  cases consumed : (execute FinRun.step (.start rcvNxt base) moves).consumed with
  | nil => exact .inl rfl
  | cons number rest =>
      right
      rw [consumed] at few ends
      obtain rfl : rest = [] := by
        rw [← List.length_eq_zero_iff]
        simp only [List.length_cons, List.length_nil] at few
        omega
      obtain ⟨segment, member, equal⟩ := ends number List.mem_cons_self
      rw [one, List.mem_singleton] at member
      rw [equal, member]

/-- The FIN segment loses its first two bytes to a stored segment, and its FIN is consumed at its
own end. -/
theorem fin_consumed_at_end_overlap :
    let last : Segment Unit := ⟨104, 6, (), 54, 0x11⟩
    let moves : List (FinMove Unit) :=
      [.insert ⟨103, 3, (), 54, 0x10⟩, .insert last, .advance 103, .extract, .extract]
    (execute FinRun.step (.start 100 100) moves).consumed ≠ [] ∧
      ((execute FinRun.step (.start 100 100) moves).consumed = [] ∨
        (execute FinRun.step (.start 100 100) moves).consumed = [last.seq + last.len]) :=
  ⟨by decide +kernel, fin_consumed_at_end 100 100 _ (by decide +kernel) _ rfl⟩

/-- The last three bytes of a segment with FIN are stored already: it is cut to `[100, 107)`, and
its FIN is consumed at 107 instead of 110. -/
theorem not_consumed_at_end_cut :
    let last : Segment Unit := ⟨100, 10, (), 54, 0x11⟩
    let moves : List (FinMove Unit) :=
      [.insert ⟨107, 3, (), 54, 0x10⟩, .insert last, .advance 100, .extract]
    (execute FinRun.step (.start 99 99) moves).fed = [last] ∧
      (execute FinRun.step (.start 99 99) moves).consumed = [107] ∧
      ¬((execute FinRun.step (.start 99 99) moves).consumed = [] ∨
        (execute FinRun.step (.start 99 99) moves).consumed = [last.seq + last.len]) :=
  ⟨rfl, by decide +kernel, by decide +kernel⟩

end SlabFlux.Net.Reassembly
