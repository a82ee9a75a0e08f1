import SlabFlux.Lib.Bytes

/-!
# Byte-addressed memory

A region of memory as a function from addresses to bytes, with the block copy and the
little-endian word accesses programs make.
-/

namespace SlabFlux.Lib

/-- Bytes by address. -/
abbrev Memory := Nat → BitVec 8

namespace Memory

variable (memory : Memory)

/-- The `count` bytes from `base` on. -/
def bytes (base count : Nat) : Bytes :=
  (List.range count).map fun index => memory (base + index)

/-- Copy `count` bytes of `source`, from `origin` on, to `target`. -/
def copy (target : Nat) (source : Memory) (origin count : Nat) : Memory :=
  fun address =>
    if target ≤ address ∧ address < target + count then source (origin + (address - target))
    else memory address

/-- Read a word of `count` bytes. -/
def load (width count : Nat) (memory : Memory) (address : Nat) : BitVec width :=
  ofBytes width (memory.bytes address count)

/-- Write a word of `count` bytes. -/
def store {width : Nat} (count : Nat) (memory : Memory) (address : Nat)
    (value : BitVec width) : Memory :=
  memory.copy address (byteAt value) 0 count

@[simp] theorem length_bytes (base count : Nat) :
    (memory.bytes base count).length = count := by
  rw [bytes, List.length_map, List.length_range]

/-- A window is its first part and the rest. -/
theorem bytes_add (base first second : Nat) :
    memory.bytes base (first + second) =
      memory.bytes base first ++ memory.bytes (base + first) second := by
  simp [bytes, List.range_add, Nat.add_assoc]

theorem getD_bytes {base count index : Nat} (inside : index < count) :
    (memory.bytes base count).getD index 0 = memory (base + index) := by
  simp [bytes, List.getD_eq_getElem?_getD, inside]

theorem bytes_congr {left right : Memory} {base origin count : Nat}
    (same : ∀ index < count, left (base + index) = right (origin + index)) :
    left.bytes base count = right.bytes origin count := by
  simpa [bytes] using same

theorem load_congr {left right : Memory} {width count base origin : Nat}
    (same : ∀ index < count, left (base + index) = right (origin + index)) :
    left.load width count base = right.load width count origin := by
  rw [load, load, bytes_congr same]

theorem copy_inside (memory source : Memory) {target origin count index : Nat}
    (inside : index < count) :
    memory.copy target source origin count (target + index) = source (origin + index) := by
  rw [copy, if_pos (by omega), Nat.add_sub_cancel_left]

theorem copy_outside (memory source : Memory) {target origin count address : Nat}
    (outside : address < target ∨ target + count ≤ address) :
    memory.copy target source origin count address = memory address := by
  rw [copy, if_neg (by omega)]

/-- The copied bytes are those of the source. -/
theorem bytes_copy (memory source : Memory) (target origin count : Nat) :
    (memory.copy target source origin count).bytes target count = source.bytes origin count :=
  bytes_congr fun _ inside => copy_inside memory source inside

/-- Bytes that are copied behind a window make it longer. -/
theorem bytes_copy_behind (base count : Nat) (data : Bytes) :
    (memory.copy (base + count) (fun index => data.getD index 0) 0 data.length).bytes base
        (count + data.length) = memory.bytes base count ++ data := by
  have front : (memory.copy (base + count) (fun index => data.getD index 0) 0
      data.length).bytes base count = memory.bytes base count :=
    bytes_congr fun index inside => copy_outside _ _ (Or.inl (by omega))
  have back : (memory.copy (base + count) (fun index => data.getD index 0) 0
      data.length).bytes (base + count) data.length = data := by
    apply List.ext_getElem (length_bytes _ _ _)
    intro index inside inside'
    simp [bytes, copy_inside _ _ inside', inside']
  rw [bytes_add, front, back]

theorem bytes_copy_append (count : Nat) (data : Bytes) :
    (memory.copy count (fun index => data.getD index 0) 0 data.length).bytes 0
        (count + data.length) = memory.bytes 0 count ++ data := by
  have general := bytes_copy_behind memory 0 count data
  rwa [Nat.zero_add] at general

/-- Two copies that follow each other are one. -/
theorem copy_copy (memory source : Memory) (target origin first second : Nat) :
    (memory.copy target source origin first).copy (target + first) source (origin + first)
      second = memory.copy target source origin (first + second) := by
  funext address
  unfold copy
  by_cases later : target + first ≤ address ∧ address < target + first + second
  · have position : origin + first + (address - (target + first)) =
        origin + (address - target) := by omega
    rw [if_pos later, if_pos (by omega), position]
  · rw [if_neg later]
    by_cases earlier : target ≤ address ∧ address < target + first
    · rw [if_pos earlier, if_pos (by omega)]
    · rw [if_neg earlier, if_neg (by omega)]

theorem store_outside {width count address other : Nat} (memory : Memory)
    (value : BitVec width) (outside : other < address ∨ address + count ≤ other) :
    memory.store count address value other = memory other :=
  copy_outside memory _ outside

theorem load_store_apart {width width' count count' address other : Nat} (memory : Memory)
    (value : BitVec width') (apart : other + count ≤ address ∨ address + count' ≤ other) :
    (memory.store count' address value).load width count other = memory.load width count other :=
  load_congr fun _ _ => store_outside memory value (by omega)

theorem load_store_inside {width width' count count' : Nat} (memory : Memory) (address : Nat)
    (value : BitVec width') {offset : Nat} (inside : offset + count ≤ count') :
    (memory.store count' address value).load width count (address + offset) =
      ofBytes width ((List.range count).map fun index => byteAt value (offset + index)) := by
  rw [load]
  congr 1
  apply List.map_congr_left
  intro index member
  have small := List.mem_range.mp member
  rw [store, Nat.add_assoc, copy_inside _ _ (by omega), Nat.zero_add]

/-- What has been written is read back. -/
theorem load_store {width count : Nat} (memory : Memory) (address : Nat)
    (value : BitVec width) (fits : 8 * count = width) :
    (memory.store count address value).load width count address = value := by
  have stored : (memory.store count address value).bytes address count = toBytes count value := by
    rw [toBytes, bytes, List.map_inj_left]
    intro index inside
    rw [store, copy_inside _ _ (List.mem_range.mp inside), Nat.zero_add]
  rw [load, stored, ofBytes_toBytes value fits]

end Memory

end SlabFlux.Lib
