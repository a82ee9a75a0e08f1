import Mathlib.Data.BitVec

/-!
# Machine words as bytes

The bytes of a word in the order a little-endian machine stores them: byte `index` holds
the bits from `8 * index` on.
-/

namespace SlabFlux.Lib

abbrev Bytes := List (BitVec 8)

variable {width : Nat}

/-- A byte of a word. -/
def byteAt (word : BitVec width) (index : Nat) : BitVec 8 := word.extractLsb' (8 * index) 8

/-- The first bytes of a word, as they are stored. -/
def toBytes (count : Nat) (word : BitVec width) : Bytes :=
  (List.range count).map (byteAt word)

/-- The word whose stored bytes are given. -/
def ofBytes (width : Nat) : Bytes → BitVec width
  | [] => 0
  | byte :: rest => (ofBytes width rest <<< 8) ||| byte.setWidth width

/-- A word with its first `count` bytes in reverse order. -/
def byteSwap (count : Nat) (word : BitVec width) : BitVec width :=
  ofBytes width (toBytes count word).reverse

@[simp] theorem length_toBytes (count : Nat) (word : BitVec width) :
    (toBytes count word).length = count := by
  rw [toBytes, List.length_map, List.length_range]

theorem getD_toBytes {count index : Nat} (word : BitVec width) (inside : index < count) :
    (toBytes count word).getD index 0 = byteAt word index := by
  simp [toBytes, List.getD_eq_getElem?_getD, inside]

theorem byteAt_xor (left right : BitVec width) (index : Nat) :
    byteAt (left ^^^ right) index = byteAt left index ^^^ byteAt right index :=
  BitVec.extractLsb'_xor

/-- Reading a byte of a word that was put together from bytes. -/
theorem byteAt_ofBytes {index : Nat} (bytes : Bytes) (inside : 8 * (index + 1) ≤ width) :
    byteAt (ofBytes width bytes) index = bytes.getD index 0 := by
  induction bytes generalizing index with
  | nil =>
      rw [ofBytes, byteAt]
      ext bit bound
      simp
  | cons byte rest ih =>
      rw [ofBytes, byteAt]
      cases index with
      | zero =>
          ext bit bound
          simp [bound]
          omega
      | succ index =>
          rw [List.getD_cons_succ, ← ih (by omega), byteAt]
          ext bit bound
          have shifted : 8 * (index + 1) + bit - 8 = 8 * index + bit := by omega
          have above : byte.getLsbD (8 * (index + 1) + bit) = false :=
            BitVec.getLsbD_of_ge byte _ (by omega)
          simp only [BitVec.getElem_extractLsb', BitVec.getLsbD_or, BitVec.getLsbD_shiftLeft,
            BitVec.getLsbD_setWidth, above, shifted, Bool.and_false, Bool.or_false]
          simp [show 8 * (index + 1) + bit < width by omega,
            show ¬8 * (index + 1) + bit < 8 by omega]

/-- Storing a word that was put together from bytes. -/
theorem toBytes_ofBytes {bytes : Bytes} (fits : 8 * bytes.length ≤ width) :
    toBytes bytes.length (ofBytes width bytes) = bytes := by
  apply List.ext_getElem (length_toBytes _ _)
  intro index inside inside'
  have stored : byteAt (ofBytes width bytes) index = bytes.getD index 0 :=
    byteAt_ofBytes bytes (by omega)
  simp [toBytes, stored, List.getD_eq_getElem?_getD, inside']

/-- Bytes are told apart by the words they make. -/
theorem ofBytes_inj {left right : Bytes} (fits : 8 * left.length ≤ width)
    (same : left.length = right.length) :
    ofBytes width left = ofBytes width right ↔ left = right := by
  constructor
  · intro equal
    rw [← toBytes_ofBytes fits, equal, same, toBytes_ofBytes (same ▸ fits)]
  · exact congrArg (ofBytes width)

theorem byteAt_byteSwap {count index : Nat} (word : BitVec width) (fits : 8 * count ≤ width)
    (inside : index < count) :
    byteAt (byteSwap count word) index = byteAt word (count - 1 - index) := by
  rw [byteSwap, byteAt_ofBytes _ (by omega)]
  rw [List.getD_eq_getElem?_getD, List.getElem?_reverse (by rw [length_toBytes]; exact inside),
    length_toBytes, ← List.getD_eq_getElem?_getD, getD_toBytes _ (by omega)]

theorem take_toBytes {count total : Nat} (word : BitVec width) (fits : count ≤ total) :
    (toBytes total word).take count = toBytes count word := by
  rw [toBytes, ← List.map_take, List.take_range, Nat.min_eq_left fits, toBytes]

theorem toBytes_eq_iff {count : Nat} {left right : BitVec width} :
    toBytes count left = toBytes count right ↔
      ∀ index < count, byteAt left index = byteAt right index := by
  simp [toBytes]

/-- A run of bytes is the bits it holds. -/
theorem forall_byteAt_iff {offset count : Nat} {left right : BitVec width} :
    (∀ index < count, byteAt left (offset + index) = byteAt right (offset + index)) ↔
      left.extractLsb' (8 * offset) (8 * count) = right.extractLsb' (8 * offset) (8 * count) := by
  constructor
  · intro same
    ext bit bound
    have bits := congrArg (·.getLsbD (bit % 8)) (same (bit / 8) (by omega))
    have position : 8 * (offset + bit / 8) + bit % 8 = 8 * offset + bit := by omega
    simpa [byteAt, position, Nat.mod_lt] using bits
  · intro same index inside
    have bits := congrArg (·.extractLsb' (8 * index) 8) same
    ext bit bound
    have one := congrArg (·.getLsbD bit) bits
    have position : 8 * offset + (8 * index + bit) = 8 * (offset + index) + bit := by omega
    simpa [byteAt, position, bound, show 8 * index + bit < 8 * count by omega] using one

/-- A word is put together again from its stored bytes. -/
theorem ofBytes_toBytes {count : Nat} (word : BitVec width) (fits : 8 * count = width) :
    ofBytes width (toBytes count word) = word := by
  have bytewise : ∀ index < count,
      byteAt (ofBytes width (toBytes count word)) (0 + index) = byteAt word (0 + index) := by
    intro index inside
    rw [Nat.zero_add, byteAt_ofBytes _ (by omega), getD_toBytes _ inside]
  have bits := forall_byteAt_iff.mp bytewise
  subst fits
  simpa using bits

end SlabFlux.Lib
