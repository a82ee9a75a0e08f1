import SlabFlux.Lib.Memory

/-!
# Hashing block by block

The fold of a compression function over the blocks of a message, and what is known of a
hash that has taken in a message up to some bytes that are still pending.
-/

namespace SlabFlux.Lib

variable {Hash : Type}

/-- Compress a number of blocks from the front. -/
def compressBlocks (compress : Hash → Bytes → Hash) (size : Nat) :
    Nat → Bytes → Hash → Hash
  | 0, _, hash => hash
  | blocks + 1, bytes, hash =>
      compressBlocks compress size blocks (bytes.drop size) (compress hash (bytes.take size))

/-- The fold of a compression function over the blocks of a message. -/
def foldBlocks (compress : Hash → Bytes → Hash) (size : Nat) (start : Hash)
    (bytes : Bytes) : Hash :=
  compressBlocks compress size (bytes.length / size) bytes start

theorem compressBlocks_append {compress : Hash → Bytes → Hash} {size blocks : Nat}
    {front block : Bytes} (whole : front.length = size * blocks)
    (full : block.length = size) (hash : Hash) :
    compressBlocks compress size (blocks + 1) (front ++ block) hash =
      compress (compressBlocks compress size blocks front hash) block := by
  induction blocks generalizing front hash with
  | zero =>
      rw [List.length_eq_zero_iff.mp whole]
      exact congrArg (compress hash) (List.take_of_length_le full.le)
  | succ blocks ih =>
      rw [Nat.mul_succ] at whole
      rw [compressBlocks, List.take_append_of_le_length (by omega),
        List.drop_append_of_le_length (by omega), ih (by rw [List.length_drop]; omega)]
      rfl

/-- The hash of a message, but for its last bytes. -/
structure Absorbed (compress : Hash → Bytes → Hash) (size : Nat) (start : Hash)
    (message : Bytes) (hash : Hash) (pending : Bytes) : Prop where
  split : ∃ front, message = front ++ pending ∧ size ∣ front.length ∧
    hash = foldBlocks compress size start front

namespace Absorbed

variable {compress : Hash → Bytes → Hash} {size : Nat} {start hash : Hash}
  {message pending : Bytes}

theorem empty : Absorbed compress size start [] start [] := by
  refine ⟨[], rfl, Nat.dvd_zero size, ?_⟩
  rw [foldBlocks, List.length_nil, Nat.zero_div]
  rfl

theorem append (absorbed : Absorbed compress size start message hash pending) (bytes : Bytes) :
    Absorbed compress size start (message ++ bytes) hash (pending ++ bytes) := by
  obtain ⟨front, rfl, whole, folded⟩ := absorbed.split
  exact ⟨front, List.append_assoc _ _ _, whole, folded⟩

/-- Pending bytes that fill a block are compressed. -/
theorem block (absorbed : Absorbed compress size start message hash pending)
    (full : pending.length = size) (positive : 0 < size) :
    Absorbed compress size start message (compress hash pending) [] := by
  obtain ⟨front, rfl, ⟨blocks, whole⟩, rfl⟩ := absorbed.split
  refine ⟨front ++ pending, (List.append_nil _).symm, ?_, ?_⟩
  · rw [List.length_append, whole, full]
    exact ⟨blocks + 1, rfl⟩
  · rw [foldBlocks, foldBlocks, List.length_append, full, whole,
      Nat.add_div_right _ positive, Nat.mul_div_cancel_left _ positive,
      compressBlocks_append whole full]

theorem hash_eq (absorbed : Absorbed compress size start message hash []) :
    hash = foldBlocks compress size start message := by
  obtain ⟨front, rfl, -, folded⟩ := absorbed.split
  rw [List.append_nil, folded]

theorem length_mod (absorbed : Absorbed compress size start message hash pending)
    (short : pending.length < size) : message.length % size = pending.length := by
  obtain ⟨front, rfl, ⟨blocks, whole⟩, -⟩ := absorbed.split
  rw [List.length_append, whole, Nat.mul_add_mod, Nat.mod_eq_of_lt short]

end Absorbed

end SlabFlux.Lib
