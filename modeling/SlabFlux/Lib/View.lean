import SlabFlux.Lib.Memory

/-!
# Views and append buffers

A pointer with a length.  Reading past the length reads the memory that follows.

A buffer that is filled from its start on.  A field that does not fit is left out, and
bytes that were left for later are filled in by index, without a check.
-/

namespace SlabFlux.Lib

/-- A pointer and a length. -/
structure View where
  memory : Memory
  length : Nat

namespace View

/-- The view of nothing. -/
def empty : View := ⟨fun _ => 0, 0⟩

/-- A view of bytes that zeros follow. -/
def ofList (bytes : Bytes) : View := ⟨fun index => bytes.getD index 0, bytes.length⟩

variable (view : View)

/-- The byte at an index. -/
def get (index : Nat) : BitVec 8 := view.memory index

/-- The bytes from an index on, whether the view reaches so far or not. -/
def window (start count : Nat) : Bytes := view.memory.bytes start count

/-- The bytes of a view. -/
def bytes : Bytes := view.window 0 view.length

/-- The view of a part. -/
def slice (start length : Nat) : View :=
  ⟨fun index => view.memory (start + index), length⟩

theorem bytes_slice (start length : Nat) :
    (view.slice start length).bytes = view.window start length := by
  apply Memory.bytes_congr
  intro index _
  rw [slice, Nat.zero_add]

/-- A shorter window is a prefix of a longer one. -/
theorem window_prefix (start : Nat) {count count' : Nat} (shorter : count ≤ count') :
    view.window start count <+: view.window start count' := by
  refine ⟨view.window (start + count) (count' - count), ?_⟩
  rw [window, window, ← Memory.bytes_add, Nat.add_sub_cancel' shorter]
  rfl

/-- A window inside the view is a part of its bytes. -/
theorem window_infix {start count : Nat} (inside : start + count ≤ view.length) :
    view.window start count <:+: view.bytes := by
  have front : view.window 0 start ++ view.window start count = view.window 0 (start + count) := by
    rw [window, window, window, Memory.bytes_add, Nat.zero_add]
  exact (List.infix_append' _ _ []).trans
    (by rw [List.append_nil, front]; exact (view.window_prefix 0 inside).isInfix)

/-- A big-endian number of two bytes. -/
def word16 (index : Nat) : Nat :=
  (view.get index).toNat * 2 ^ 8 + (view.get (index + 1)).toNat

/-- A big-endian number of three bytes. -/
def word24 (index : Nat) : Nat :=
  view.word16 index * 2 ^ 8 + (view.get (index + 2)).toNat

end View

/-! ## Append buffers -/

/-- The memory from the start of the buffer on, how much of it may be appended to, and how
much of it has been. -/
structure AppendBuffer where
  memory : Memory
  capacity : Nat
  offset : Nat

/-- A byte of a field. -/
def u8 (value : BitVec 8) : Bytes := [value]

/-- A big-endian field of two bytes. -/
def u16 (value : BitVec 16) : Bytes :=
  [(value >>> 8).setWidth 8, value.setWidth 8]

/-- A big-endian field of three bytes. -/
def u24 (value : BitVec 32) : Bytes :=
  [(value >>> 16).setWidth 8, (value >>> 8).setWidth 8, value.setWidth 8]

/-- A big-endian field of four bytes. -/
def u32 (value : BitVec 32) : Bytes :=
  [(value >>> 24).setWidth 8, (value >>> 16).setWidth 8, (value >>> 8).setWidth 8, value.setWidth 8]

namespace AppendBuffer

variable (buffer : AppendBuffer)

/-- Append a field if it fits. -/
def append (bytes : Bytes) : AppendBuffer :=
  if buffer.offset + bytes.length ≤ buffer.capacity then
    { buffer with
      memory := buffer.memory.copy buffer.offset (fun index => bytes.getD index 0) 0 bytes.length
      offset := buffer.offset + bytes.length }
  else buffer

/-- Append field after field. -/
def appendAll (fields : List Bytes) : AppendBuffer :=
  fields.foldl append buffer

/-- Write bytes by index. -/
def overwrite (index : Nat) (bytes : Bytes) : AppendBuffer :=
  { buffer with
    memory := buffer.memory.copy index (fun index => bytes.getD index 0) 0 bytes.length }

theorem append_fits {buffer : AppendBuffer} {bytes : Bytes}
    (fits : buffer.offset + bytes.length ≤ buffer.capacity) :
    (buffer.append bytes).offset = buffer.offset + bytes.length ∧
      (buffer.append bytes).capacity = buffer.capacity ∧
      ∀ index < buffer.offset, (buffer.append bytes).memory index = buffer.memory index := by
  rw [append, if_pos fits]
  refine ⟨rfl, rfl, fun index before => ?_⟩
  dsimp only
  exact Memory.copy_outside _ _ (Or.inl before)

/-- Fields that fit are all appended, and what was there before stays. -/
theorem appendAll_fits {buffer : AppendBuffer} {fields : List Bytes}
    (fits : buffer.offset + fields.flatten.length ≤ buffer.capacity) :
    (buffer.appendAll fields).offset = buffer.offset + fields.flatten.length ∧
      (buffer.appendAll fields).capacity = buffer.capacity ∧
      ∀ index < buffer.offset, (buffer.appendAll fields).memory index = buffer.memory index := by
  induction fields generalizing buffer with
  | nil => exact ⟨rfl, rfl, fun _ _ => rfl⟩
  | cons field fields ih =>
      rw [List.flatten_cons, List.length_append, ← Nat.add_assoc] at fits
      obtain ⟨offset, capacity, kept⟩ :=
        append_fits (show buffer.offset + field.length ≤ buffer.capacity by omega)
      obtain ⟨offset', capacity', kept'⟩ :=
        ih (show (buffer.append field).offset + fields.flatten.length ≤ _ by
          rw [offset, capacity]; exact fits)
      refine ⟨?_, capacity'.trans capacity, fun index before => ?_⟩
      · change ((buffer.append field).appendAll fields).offset = _
        rw [offset', offset, List.flatten_cons, List.length_append, Nat.add_assoc]
      · change ((buffer.append field).appendAll fields).memory index = _
        rw [kept' index (by omega), kept index before]

theorem appendAll_first {buffer : AppendBuffer} {field : Bytes}
    {fields : List Bytes} {index : Nat} (inside : index < field.length)
    (fits : buffer.offset + (field :: fields).flatten.length ≤ buffer.capacity) :
    (buffer.appendAll (field :: fields)).memory (buffer.offset + index) = field.getD index 0 := by
  rw [List.flatten_cons, List.length_append, ← Nat.add_assoc] at fits
  have here : buffer.offset + field.length ≤ buffer.capacity := by omega
  obtain ⟨offset, capacity, -⟩ := append_fits here
  obtain ⟨-, -, kept⟩ := appendAll_fits
    (show (buffer.append field).offset + fields.flatten.length ≤ _ by
      rw [offset, capacity]; exact fits)
  change ((buffer.append field).appendAll fields).memory _ = _
  rw [kept _ (by omega), append, if_pos here]
  dsimp only
  rw [Memory.copy_inside _ _ inside, Nat.zero_add]

/-- The bytes from an index on. -/
def window (start count : Nat) : Bytes :=
  buffer.memory.bytes start count

end AppendBuffer

end SlabFlux.Lib
