import SlabFlux.Lib.Bytes

/-!
# 128-bit vector instructions

The SSE instructions on 128-bit registers that ciphers use.  Memory is little-endian: byte
`index` of a register holds its bits from `8 * index` on, and lane `index` those from
`32 * index` on.  The AES round instructions are a parameter.
-/

namespace SlabFlux.Lib.Simd

/-- A 128-bit register. -/
abbrev Xmm := BitVec 128

/-- `_mm_loadu_si128`. -/
def load (bytes : Bytes) : Xmm := ofBytes 128 (bytes.take 16)

variable (register : Xmm)

/-- `_mm_storeu_si128`. -/
def store : Bytes := toBytes 16 register

/-- A 32-bit lane. -/
def lane (index : Nat) : BitVec 32 := register.extractLsb' (32 * index) 32

/-- `_mm_set_epi32`, the highest lane first. -/
def ofLanes (lane3 lane2 lane1 lane0 : BitVec 32) : Xmm :=
  (lane3.setWidth 128 <<< 96) ||| (lane2.setWidth 128 <<< 64) |||
    (lane1.setWidth 128 <<< 32) ||| lane0.setWidth 128

/-- An operation on every lane. -/
def mapLanes (change : BitVec 32 → BitVec 32) (register : Xmm) : Xmm :=
  ofLanes (change (lane register 3)) (change (lane register 2)) (change (lane register 1))
    (change (lane register 0))

/-- `_mm_add_epi32`. -/
def addLanes (left right : Xmm) : Xmm :=
  ofLanes (lane left 3 + lane right 3) (lane left 2 + lane right 2)
    (lane left 1 + lane right 1) (lane left 0 + lane right 0)

/-- `_mm_slli_epi32`. -/
def shiftLanesLeft (count : Nat) : Xmm := mapLanes (· <<< count) register

/-- `_mm_srli_epi32`. -/
def shiftLanesRight (count : Nat) : Xmm := mapLanes (· >>> count) register

/-- `_mm_slli_si128`. -/
def shiftBytesLeft (count : Nat) : Xmm := register <<< (8 * count)

/-- `_mm_srli_si128`. -/
def shiftBytesRight (count : Nat) : Xmm := register >>> (8 * count)

/-- `_mm_shuffle_epi32` with the highest lane in every place. -/
def spreadHighLane : Xmm := mapLanes (fun _ => lane register 3) register

/-- `_mm_shuffle_epi8` with the mask that reverses the bytes. -/
def reverseBytes : Xmm := byteSwap 16 register

/-- The product of two polynomials over the field of two elements. -/
def carrylessProduct (left right : BitVec 64) : Xmm :=
  (List.range 64).foldl
    (fun product bit =>
      if right.getLsbD bit then product ^^^ (left.setWidth 128 <<< bit) else product) 0

/-- `_mm_clmulepi64_si128`; the flags say whether the high half of an operand is taken. -/
def carrylessMultiply (left right : Xmm) (leftHigh rightHigh : Bool) : Xmm :=
  carrylessProduct (left.extractLsb' (if leftHigh then 64 else 0) 64)
    (right.extractLsb' (if rightHigh then 64 else 0) 64)

/-- The AES instructions. -/
structure AesInstructions where
  aesenc : Xmm → Xmm → Xmm
  aesenclast : Xmm → Xmm → Xmm
  aeskeygenassist : Xmm → BitVec 8 → Xmm

/-- Instructions that leave the block as it is. -/
def AesInstructions.identity : AesInstructions :=
  ⟨fun block _ => block, fun block _ => block, fun key _ => key⟩

/-- AES-128 of a block under a key schedule. -/
def AesInstructions.encryptBlock (aes : AesInstructions) (roundKeys : Fin 11 → Xmm)
    (block : Xmm) : Xmm :=
  let block := block ^^^ roundKeys 0
  let block := ([1, 2, 3, 4, 5, 6, 7, 8, 9] : List (Fin 11)).foldl
    (fun block round => aes.aesenc block (roundKeys round)) block
  aes.aesenclast block (roundKeys 10)

/-- One step of the key schedule of AES-128. -/
def expandKeyStep (key keygened : Xmm) : Xmm :=
  let key := key ^^^ shiftBytesLeft key 4
  let key := key ^^^ shiftBytesLeft key 4
  let key := key ^^^ shiftBytesLeft key 4
  key ^^^ spreadHighLane keygened

/-- The round constants of AES-128. -/
def roundConstants : Bytes :=
  [0x01, 0x02, 0x04, 0x08, 0x10, 0x20, 0x40, 0x80, 0x1B, 0x36]

/-- The key schedule of a raw key. -/
def AesInstructions.expandKey (aes : AesInstructions) (key : Bytes) :
    Fin 11 → Xmm := fun round =>
  (roundConstants.take round).foldl
    (fun key constant => expandKeyStep key (aes.aeskeygenassist key constant)) (load key)

/-! ## Lanes -/

/-- A register is its four lanes. -/
theorem lane_ofLanes (lane3 lane2 lane1 lane0 : BitVec 32) :
    lane (ofLanes lane3 lane2 lane1 lane0) 0 = lane0 ∧
      lane (ofLanes lane3 lane2 lane1 lane0) 1 = lane1 ∧
      lane (ofLanes lane3 lane2 lane1 lane0) 2 = lane2 ∧
      lane (ofLanes lane3 lane2 lane1 lane0) 3 = lane3 := by
  unfold lane ofLanes
  refine ⟨?_, ?_, ?_, ?_⟩ <;> ext bit bound <;> simp <;> grind

theorem eq_of_lanes {left right : Xmm} (same : ∀ index < 4, lane left index = lane right index) :
    left = right := by
  ext bit bound
  have bits := congrArg (·.getLsbD (bit % 32)) (same (bit / 32) (by omega))
  have position : 32 * (bit / 32) + bit % 32 = bit := by omega
  simpa [lane, position, Nat.mod_lt, bound] using bits

theorem lane_addLanes (left right : Xmm) {index : Nat} (inside : index < 4) :
    lane (addLanes left right) index = lane left index + lane right index := by
  obtain ⟨first, second, third, fourth⟩ := lane_ofLanes (lane left 3 + lane right 3)
    (lane left 2 + lane right 2) (lane left 1 + lane right 1) (lane left 0 + lane right 0)
  match index, inside with
  | 0, _ => exact first
  | 1, _ => exact second
  | 2, _ => exact third
  | 3, _ => exact fourth

theorem byteAt_lane (index : Nat) {byte : Nat} (inside : byte < 4) :
    byteAt (lane register index) byte = byteAt register (4 * index + byte) := by
  unfold byteAt lane
  ext bit bound
  have position : 32 * index + (8 * byte + bit) = 8 * (4 * index + byte) + bit := by omega
  simp [position]
  omega

end SlabFlux.Lib.Simd
