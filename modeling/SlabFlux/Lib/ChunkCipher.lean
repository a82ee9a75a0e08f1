import SlabFlux.Lib.Bytes

/-!
# Ciphers that work chunk by chunk

A buffer is gone through in chunks.  A chunk is masked with what the state gives, and the
state then takes in the ciphertext of the chunk: what was written when the buffer is
encrypted, what was read when it is decrypted.
-/

namespace SlabFlux.Lib

variable {State : Type}

/-! ## Whole chunks and a rest -/

section Blockwise

variable (size : Nat) (whole rest : State → Bytes → State) {buffer : Bytes}
variable {state : State}

/-- A loop over the whole chunks of a buffer, and a branch for the bytes behind the last one. -/
def blockwise (buffer : Bytes) (state : State) : State :=
  let blocks := buffer.length / size
  let state := (List.range blocks).foldl
    (fun state index => whole state ((buffer.drop (index * size)).take size)) state
  if 0 < buffer.length % size then rest state (buffer.drop (blocks * size)) else state

variable {size}

theorem blockwise_nil : blockwise size whole rest [] state = state := by
  simp [blockwise]

theorem blockwise_of_lt (nonempty : buffer ≠ []) (short : buffer.length < size) :
    blockwise size whole rest buffer state = rest state buffer := by
  rw [blockwise, Nat.div_eq_of_lt short, Nat.mod_eq_of_lt short,
    if_pos (List.length_pos_iff.mpr nonempty), Nat.zero_mul]
  rfl

theorem blockwise_of_le (positive : 0 < size) (long : size ≤ buffer.length) :
    blockwise size whole rest buffer state =
      blockwise size whole rest (buffer.drop size) (whole state (buffer.take size)) := by
  have blocks : buffer.length / size = (buffer.drop size).length / size + 1 := by
    rw [List.length_drop, ← Nat.add_div_right _ positive, Nat.sub_add_cancel long]
  have remainder : buffer.length % size = (buffer.drop size).length % size := by
    rw [List.length_drop, ← Nat.mod_eq_sub_mod long]
  have behind (index : Nat) :
      buffer.drop ((index + 1) * size) = (buffer.drop size).drop (index * size) := by
    rw [List.drop_drop, Nat.succ_mul, Nat.add_comm]
  rw [blockwise, blocks, remainder, List.range_succ_eq_map, List.foldl_cons, List.foldl_map,
    Nat.zero_mul, List.drop_zero, behind]
  simp only [Nat.succ_eq_add_one, behind]
  rfl

end Blockwise

/-! ## Ciphers -/

/-- How a chunk is masked in a state, and the state after a chunk of ciphertext. -/
structure ChunkCipher (State : Type) where
  size : Nat
  mask : State → Bytes → Bytes
  absorb : State → Bytes → State

namespace ChunkCipher

/-- The bytes written for a buffer, and the state behind it. -/
def run (cipher : ChunkCipher State) (encrypting : Bool) :
    Nat → Bytes → State → Bytes × State
  | 0, _, state => ([], state)
  | fuel + 1, buffer, state =>
      if buffer = [] then ([], state)
      else
        let chunk := buffer.take cipher.size
        let written := cipher.mask state chunk
        let rest := cipher.run encrypting fuel (buffer.drop cipher.size)
          (cipher.absorb state (if encrypting then written else chunk))
        (written ++ rest.1, rest.2)

theorem run_nil (cipher : ChunkCipher State) (encrypting : Bool) (fuel : Nat) (state : State) :
    cipher.run encrypting fuel [] state = ([], state) := by
  cases fuel with
  | zero => rfl
  | succ fuel => exact if_pos rfl

theorem run_succ (cipher : ChunkCipher State) (encrypting : Bool) (fuel : Nat)
    {buffer : Bytes} (nonempty : buffer ≠ []) (state : State) :
    cipher.run encrypting (fuel + 1) buffer state = let chunk := buffer.take cipher.size
      let written := cipher.mask state chunk
      let rest := cipher.run encrypting fuel (buffer.drop cipher.size)
        (cipher.absorb state (if encrypting then written else chunk))
      (written ++ rest.1, rest.2) := if_neg nonempty

/-- One turn, on the bytes written so far and the state. -/
def turn (cipher : ChunkCipher State) (encrypting : Bool)
    (progress : Bytes × State) (chunk : Bytes) : Bytes × State :=
  let written := cipher.mask progress.2 chunk
  (progress.1 ++ written, cipher.absorb progress.2 (if encrypting then written else chunk))

/-- A loop over the whole chunks and a branch for the rest run the cipher, if both do what a turn
does. -/
theorem blockwise_eq_run (cipher : ChunkCipher State) (encrypting : Bool)
    {whole rest : Bytes × State → Bytes → Bytes × State}
    (positive : 0 < cipher.size)
    (onWhole : ∀ progress chunk, chunk.length = cipher.size →
      whole progress chunk = cipher.turn encrypting progress chunk)
    (onRest : ∀ progress chunk, chunk.length < cipher.size →
      rest progress chunk = cipher.turn encrypting progress chunk)
    {fuel : Nat} {buffer : Bytes} (enough : buffer.length ≤ fuel)
    (progress : Bytes × State) :
    blockwise cipher.size whole rest buffer progress =
      (progress.1 ++ (cipher.run encrypting fuel buffer progress.2).1,
        (cipher.run encrypting fuel buffer progress.2).2) := by
  induction fuel generalizing buffer progress with
  | zero =>
      rw [List.length_eq_zero_iff.mp (Nat.le_zero.mp enough), blockwise_nil]
      exact Prod.ext (List.append_nil _).symm rfl
  | succ fuel ih =>
      by_cases empty : buffer = []
      · rw [empty, run_nil, blockwise_nil]
        exact Prod.ext (List.append_nil _).symm rfl
      · rw [run_succ _ _ _ empty]
        by_cases short : buffer.length < cipher.size
        · rw [blockwise_of_lt _ _ empty short, onRest _ _ short,
            List.take_of_length_le short.le, List.drop_of_length_le short.le]
          dsimp only
          rw [run_nil, List.append_nil]
          rfl
        · have long := Nat.le_of_not_lt short
          rw [blockwise_of_le _ _ positive long, onWhole _ _ (List.length_take_of_le long),
            ih (by rw [List.length_drop]; omega)]
          exact Prod.ext (List.append_assoc _ _ _) rfl

/-- A front part that is shorter than a chunk has nothing behind it. -/
theorem take_drop_append {size : Nat} {front back : Bytes}
    (short : front.length ≤ size) (last : front.length < size → back = []) :
    (front ++ back).take size = front ∧ (front ++ back).drop size = back := by
  rcases Nat.lt_or_eq_of_le short with unfilled | filled
  · rw [last unfilled, List.append_nil]
    exact ⟨List.take_of_length_le short, List.drop_of_length_le short⟩
  · exact ⟨List.take_left' filled, List.drop_left' filled⟩

/-- Masking a chunk a second time gives it back. -/
structure Lawful (cipher : ChunkCipher State) : Prop where
  size_pos : 0 < cipher.size
  length_mask : ∀ state chunk, chunk.length ≤ cipher.size →
    (cipher.mask state chunk).length = chunk.length
  mask_mask : ∀ state chunk, chunk.length ≤ cipher.size →
    cipher.mask state (cipher.mask state chunk) = chunk

namespace Lawful

variable {cipher : ChunkCipher State}

theorem length_run (lawful : cipher.Lawful) (encrypting : Bool) {fuel : Nat}
    {buffer : Bytes} (enough : buffer.length ≤ fuel) (state : State) :
    (cipher.run encrypting fuel buffer state).1.length = buffer.length := by
  induction fuel generalizing buffer state with
  | zero => exact (Nat.le_zero.mp enough).symm
  | succ fuel ih =>
      by_cases empty : buffer = []
      · rw [empty, run_nil]
      · have size := lawful.size_pos
        rw [run_succ _ _ _ empty, List.length_append, ih (by rw [List.length_drop]; omega),
          lawful.length_mask _ _ (List.length_take_le _ _), ← List.length_append,
          List.take_append_drop]

/-- What was encrypted is decrypted again, and both sides end in one state. -/
theorem run_run (lawful : cipher.Lawful) {fuel : Nat} {buffer : Bytes}
    (enough : buffer.length ≤ fuel) (state : State) :
    cipher.run false fuel (cipher.run true fuel buffer state).1 state =
      (buffer, (cipher.run true fuel buffer state).2) := by
  induction fuel generalizing buffer state with
  | zero =>
      rw [List.length_eq_zero_iff.mp (Nat.le_zero.mp enough)]
      rfl
  | succ fuel ih =>
      by_cases empty : buffer = []
      · rw [empty, run_nil, run_nil]
      · have size := lawful.size_pos
        have nonempty := List.length_pos_iff.mpr empty
        have short := List.length_take_le cipher.size buffer
        have masked := lawful.length_mask state _ short
        have tail : (buffer.drop cipher.size).length ≤ fuel := by
          rw [List.length_drop]
          omega
        have written : (cipher.run true (fuel + 1) buffer state).1 ≠ [] :=
          List.length_pos_iff.mp (by rw [lawful.length_run true enough]; exact nonempty)
        rw [run_succ _ _ _ empty] at written ⊢
        rw [run_succ _ _ _ written]
        have last : (cipher.mask state (buffer.take cipher.size)).length < cipher.size →
            ∀ next, (cipher.run true fuel (buffer.drop cipher.size) next).1 = [] := by
          intro unfilled next
          apply List.length_eq_zero_iff.mp
          rw [masked, List.length_take] at unfilled
          rw [lawful.length_run true tail, List.length_drop]
          omega
        -- A chunk that is not full is the last one, so the ciphertext splits as the buffer does.
        obtain ⟨front, back⟩ := take_drop_append (masked.trans_le short) fun unfilled =>
          last unfilled (cipher.absorb state (cipher.mask state (buffer.take cipher.size)))
        simp only [if_true, if_false, Bool.false_eq_true]
        rw [front, back, lawful.mask_mask _ _ short, ih tail, List.take_append_drop]

end Lawful

end ChunkCipher

end SlabFlux.Lib
