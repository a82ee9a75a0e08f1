import Mathlib.Data.List.GetD
import SlabFlux.Core.Endian
import SlabFlux.Lib.Simd

/-!
# In-place record protection

`aes_gcm_hardware::encrypt_in_place` and `decrypt_in_place`, with a history of the counter
blocks that AES is applied to for key stream.

The constant that is added to the counter lies in its lowest lane, so the counter moves
byte 3 of the IV, which wraps after 256 blocks without a carry.
-/

namespace SlabFlux.Security.AesGcmHardware

open SlabFlux.Core Lib Lib.Simd
variable (aes : AesInstructions) (roundKeys : Fin 11 → Xmm) (encrypting : Bool)
  (iv : Vector (BitVec 8) 12) (sequenceNumber : BitVec 64)

def ghashMul (a b : Xmm) : Xmm :=
  let tmp3 := carrylessMultiply a b false false
  let tmp4 := carrylessMultiply a b false true
  let tmp5 := carrylessMultiply a b true false
  let tmp6 := carrylessMultiply a b true true
  let tmp4 := tmp4 ^^^ tmp5
  let tmp5 := shiftBytesLeft tmp4 8
  let tmp4 := shiftBytesRight tmp4 8
  let tmp3 := tmp3 ^^^ tmp5
  let tmp6 := tmp6 ^^^ tmp4
  let tmp7 := shiftLanesLeft tmp3 31
  let tmp8 := shiftLanesLeft tmp3 30
  let tmp9 := shiftLanesLeft tmp3 25
  let tmp7 := tmp7 ^^^ tmp8
  let tmp7 := tmp7 ^^^ tmp9
  let tmp8 := shiftBytesRight tmp7 4
  let tmp7 := shiftBytesLeft tmp7 12
  let tmp3 := tmp3 ^^^ tmp7
  let tmp6 := tmp6 ^^^ tmp8
  let tmp7 := shiftLanesRight tmp3 1
  let tmp8 := shiftLanesRight tmp3 2
  let tmp9 := shiftLanesRight tmp3 7
  let tmp7 := tmp7 ^^^ tmp8
  let tmp7 := tmp7 ^^^ tmp9
  let tmp8 := shiftBytesLeft tmp7 12
  let tmp7 := shiftBytesRight tmp7 4
  let tmp3 := tmp3 ^^^ tmp7
  let tmp6 := tmp6 ^^^ tmp8
  tmp6 ^^^ tmp3

/-- The word of the IV that the sequence number is folded into. -/
def nonceWord : BitVec 64 :=
  ofBytes 64 (iv.toList.drop 4) ^^^ networkToHost64 sequenceNumber

/-- `nonce`, the block J0 that masks the tag and from which the counter starts. -/
def initialCounter : Xmm :=
  load (iv.toList.take 4 ++ toBytes 8 (nonceWord iv sequenceNumber) ++ [0, 0, 0, 1])

def one : Xmm := ofLanes 0 0 0 ((1 : BitVec 32) <<< 24)

/-- `H`. -/
def hashKey : Xmm :=
  reverseBytes (aes.encryptBlock roundKeys 0)

/-- The state of the loop over the buffer: the bytes written back, the counter, the GHASH
state, and the counters that AES was applied to. -/
structure CtrState where
  output : Bytes
  counter : Xmm
  ghashState : Xmm
  fed : List Xmm

/-- Fill a block up with zeros. -/
def padBlock (bytes : Bytes) : Xmm :=
  load (bytes ++ List.replicate (16 - bytes.length) 0)

/-- One turn of the loop.  Encryption hashes what it writes, decryption what it reads. -/
def ctrTurn (chunk : Bytes) (state : CtrState) : CtrState :=
  let counter := addLanes state.counter one
  let written := (store (padBlock chunk ^^^ aes.encryptBlock roundKeys counter)).take chunk.length
  let hashed := padBlock (if encrypting then written else chunk)
  { output := state.output ++ written
    counter := counter
    ghashState := ghashMul (state.ghashState ^^^ reverseBytes hashed) (hashKey aes roundKeys)
    fed := state.fed ++ [counter] }

/-- The loop over the buffer.  Every turn takes a byte at least, so the length of the
buffer is enough fuel. -/
def ctrLoop (aes : AesInstructions) (roundKeys : Fin 11 → Xmm) (encrypting : Bool) :
    Nat → Bytes → CtrState → CtrState
  | 0, _, state => state
  | fuel + 1, buffer, state =>
      if buffer = [] then state
      else
        ctrLoop aes roundKeys encrypting fuel (buffer.drop 16)
          (ctrTurn aes roundKeys encrypting (buffer.take 16) state)

/-- The block of AAD: the header of the record. -/
def aadBlock (recordLen : BitVec 16) : Xmm :=
  let header : Bytes :=
    [23, 3, 3, (recordLen >>> 8).setWidth 8, recordLen.setWidth 8]
  padBlock header

/-- The block of lengths. -/
def lengthBlock (length : Nat) : Xmm :=
  load (toBytes 8 (hostToNetwork64 (5 * 8)) ++
    toBytes 8 (hostToNetwork64 (BitVec.ofNat 64 (length * 8))))

/-- The state the loop starts from, and ends in. -/
def ctrRun (buffer : Bytes) : CtrState :=
  ctrLoop aes roundKeys encrypting buffer.length buffer
    { output := []
      counter := initialCounter iv sequenceNumber
      ghashState := ghashMul (reverseBytes (aadBlock (BitVec.ofNat 16 (buffer.length + 16))))
        (hashKey aes roundKeys)
      fed := [] }

/-- The tag of a record whose buffer has been gone through. -/
def authTag (length : Nat) (state : CtrState) : Xmm :=
  let ghashState := ghashMul (state.ghashState ^^^ reverseBytes (lengthBlock length))
    (hashKey aes roundKeys)
  reverseBytes ghashState ^^^ aes.encryptBlock roundKeys (initialCounter iv sequenceNumber)

/-- `encrypt_in_place`: the buffer with the tag behind it. -/
def encryptInPlace (plaintext : Bytes) : Bytes :=
  let state := ctrRun aes roundKeys true iv sequenceNumber plaintext
  state.output ++ store (authTag aes roundKeys iv sequenceNumber plaintext.length state)

/-- `decrypt_in_place`: the buffer before the tag, and the number of bytes returned.  The
buffer is overwritten also when the tag is wrong. -/
def decryptInPlace (buffer : Bytes) : Bytes × Nat :=
  if buffer.length < 16 then (buffer, 0)
  else
    let ciphertext := buffer.take (buffer.length - 16)
    let state := ctrRun aes roundKeys false iv sequenceNumber ciphertext
    let expectedTag := authTag aes roundKeys iv sequenceNumber ciphertext.length state
    let actualTag := load (buffer.drop (buffer.length - 16))
    (state.output, if expectedTag = actualTag then ciphertext.length else 0)

/-! ## The counter blocks -/

/-- The counter after a number of turns. -/
def counterAfter (start : Xmm) : Nat → Xmm
  | 0 => start
  | turns + 1 => addLanes (counterAfter start turns) one

/-- How many turns the loop takes. -/
def turns (length : Nat) : Nat := (length + 15) / 16

theorem fed_ctrLoop (aes : AesInstructions) (roundKeys : Fin 11 → Xmm) (encrypting : Bool)
    {fuel : Nat} {buffer : Bytes} (enough : buffer.length ≤ fuel)
    (start : Xmm) (state : CtrState) (done : Nat)
    (counter : state.counter = counterAfter start done)
    (fed : state.fed = (List.range done).map fun turn => counterAfter start (turn + 1)) :
    (ctrLoop aes roundKeys encrypting fuel buffer state).fed =
      (List.range (done + turns buffer.length)).map fun turn =>
        counterAfter start (turn + 1) := by
  induction fuel generalizing buffer state done with
  | zero =>
      rw [Nat.le_zero.mp enough]
      exact fed
  | succ fuel ih =>
      rw [ctrLoop]
      split_ifs with empty
      · rw [empty]
        exact fed
      · have nonempty := List.length_pos_iff.mpr empty
        have count : turns buffer.length = turns (buffer.drop 16).length + 1 := by
          unfold turns
          rw [List.length_drop]
          omega
        rw [count, Nat.add_comm _ 1, ← Nat.add_assoc]
        apply ih
        · rw [List.length_drop]
          omega
        · exact congrArg (addLanes · one) counter
        · rw [List.range_succ, List.map_append, ← fed]
          exact congrArg (state.fed ++ [addLanes · one]) counter

theorem fed_ctrRun (aes : AesInstructions) (roundKeys : Fin 11 → Xmm) (encrypting : Bool)
    (iv : Vector (BitVec 8) 12) (sequenceNumber : BitVec 64) (buffer : Bytes) :
    (ctrRun aes roundKeys encrypting iv sequenceNumber buffer).fed =
      (List.range (turns buffer.length)).map fun turn =>
        counterAfter (initialCounter iv sequenceNumber) (turn + 1) := by
  unfold ctrRun
  rw [fed_ctrLoop aes roundKeys encrypting (Nat.le_refl buffer.length)
    (initialCounter iv sequenceNumber) _ 0 rfl rfl, Nat.zero_add]

/-! ## Lanes of the counter -/

theorem lane_counterAfter (start : Xmm) (count : Nat) :
    lane (counterAfter start count) 0 = lane start 0 + BitVec.ofNat 32 (count * 2 ^ 24) ∧
      ∀ index < 4, index ≠ 0 → lane (counterAfter start count) index = lane start index := by
  obtain ⟨first, second, third, fourth⟩ := lane_ofLanes 0 0 0 ((1 : BitVec 32) <<< 24)
  induction count with
  | zero => exact ⟨by simp [counterAfter], fun _ _ _ => rfl⟩
  | succ count ih =>
      rw [counterAfter]
      refine ⟨?_, fun index inside upper => ?_⟩
      · rw [lane_addLanes _ _ (by decide), ih.1, one, first, Nat.succ_mul, BitVec.ofNat_add,
          BitVec.add_assoc]
        rfl
      · rw [lane_addLanes _ _ inside, ih.2 index inside upper]
        have zero : lane one index = 0 := by
          match index, inside, upper with
          | 1, _, _ => exact second
          | 2, _, _ => exact third
          | 3, _, _ => exact fourth
        rw [zero]
        exact BitVec.add_zero _

theorem byteAt_initialCounter (number : BitVec 64) {index : Nat} (inside : index < 8) :
    byteAt (initialCounter iv number) (4 + index) = byteAt (nonceWord iv number) index := by
  have front : (iv.toList.take 4).length = 4 := by simp
  rw [initialCounter, load, List.take_of_length_le (by simp), byteAt_ofBytes _ (by omega),
    List.append_assoc, List.getD_append_right _ _ _ _ (by omega), front,
    Nat.add_sub_cancel_left, List.getD_append _ _ _ _ (by rw [length_toBytes]; exact inside),
    getD_toBytes _ inside]

/-- The sequence number can be read off the counter. -/
theorem initialCounter_sequence {iv : Vector (BitVec 8) 12} {first second : BitVec 64}
    (same : ∀ index < 4, index ≠ 0 →
      lane (initialCounter iv first) index = lane (initialCounter iv second) index) :
    first = second := by
  have words : nonceWord iv first = nonceWord iv second := by
    have bytes : ∀ index < 8, byteAt (nonceWord iv first) (0 + index) =
        byteAt (nonceWord iv second) (0 + index) := by
      intro index inside
      have lanes := congrArg (byteAt · (index % 4))
        (same (1 + index / 4) (by omega) (by omega))
      have position : 4 * (1 + index / 4) + index % 4 = 4 + index := by omega
      simp only [byteAt_lane _ _ (Nat.mod_lt index (by decide : 0 < 4)), position] at lanes
      rw [Nat.zero_add, ← byteAt_initialCounter iv first inside, lanes,
        byteAt_initialCounter iv second inside]
    simpa using forall_byteAt_iff.mp bytes
  have swapped : byteSwap 8 first = byteSwap 8 second := by
    rw [nonceWord, nonceWord, BitVec.xor_right_inj, networkToHost64_eq, networkToHost64_eq] at words
    exact words
  have bytes : ∀ index < 8, byteAt first (0 + index) = byteAt second (0 + index) := by
    intro index inside
    have mirrored := congrArg (byteAt · (7 - index)) swapped
    have position : 8 - 1 - (7 - index) = index := by omega
    simp only [byteAt_byteSwap _ (show 8 * 8 ≤ 64 by decide) (show 7 - index < 8 by omega),
      position] at mirrored
    rw [Nat.zero_add, mirrored]
  simpa using forall_byteAt_iff.mp bytes

/-- Two counters are equal exactly when they belong to one record and as many blocks have
gone by, up to a multiple of 256. -/
theorem counterAfter_eq_iff (first second : BitVec 64) (count count' : Nat) :
    counterAfter (initialCounter iv first) count = counterAfter (initialCounter iv second) count' ↔
      first = second ∧ count % 256 = count' % 256 := by
  obtain ⟨low, high⟩ := lane_counterAfter (initialCounter iv first) count
  obtain ⟨low', high'⟩ := lane_counterAfter (initialCounter iv second) count'
  have residue : BitVec.ofNat 32 (count * 2 ^ 24) = BitVec.ofNat 32 (count' * 2 ^ 24) ↔
      count % 256 = count' % 256 := by
    rw [← BitVec.toNat_inj, BitVec.toNat_ofNat, BitVec.toNat_ofNat]
    omega
  constructor
  · intro same
    obtain rfl : first = second := by
      refine initialCounter_sequence (fun index inside upper => ?_ : ∀ index < 4, index ≠ 0 →
        lane (initialCounter iv first) index = lane (initialCounter iv second) index)
      rw [← high index inside upper, same, high' index inside upper]
    rw [same, low', BitVec.add_right_inj, eq_comm, residue] at low
    exact ⟨rfl, low⟩
  · rintro ⟨rfl, congruent⟩
    apply eq_of_lanes
    intro index inside
    by_cases zero : index = 0
    · rw [zero, low, low', residue.mpr congruent]
    · rw [high index inside zero, high' index inside zero]

/-- Two blocks of key stream under one IV differ exactly when they belong to different
records or their numbers differ modulo 256, and a block of key stream differs from the
block that masks a tag exactly when it belongs to another record or its number is no
multiple of 256. -/
theorem counters_differ_iff (aes : AesInstructions) (roundKeys : Fin 11 → Xmm)
    (iv : Vector (BitVec 8) 12) (first second : BitVec 64)
    (plaintext plaintext' : Bytes) {block block' : Nat}
    (inside : block < (ctrRun aes roundKeys true iv first plaintext).fed.length)
    (inside' : block' < (ctrRun aes roundKeys true iv second plaintext').fed.length) :
    ((ctrRun aes roundKeys true iv first plaintext).fed[block] ≠
        (ctrRun aes roundKeys true iv second plaintext').fed[block'] ↔
      first ≠ second ∨ (block + 1) % 256 ≠ (block' + 1) % 256) ∧
    ((ctrRun aes roundKeys true iv first plaintext).fed[block] ≠ initialCounter iv second ↔
      first ≠ second ∨ (block + 1) % 256 ≠ 0) := by
  have fed := fed_ctrRun aes roundKeys true iv first plaintext
  have fed' := fed_ctrRun aes roundKeys true iv second plaintext'
  have counter : (ctrRun aes roundKeys true iv first plaintext).fed[block] =
      counterAfter (initialCounter iv first) (block + 1) := by simp [fed]
  have counter' : (ctrRun aes roundKeys true iv second plaintext').fed[block'] =
      counterAfter (initialCounter iv second) (block' + 1) := by simp [fed']
  rw [counter, counter']
  constructor
  · rw [Ne, counterAfter_eq_iff, not_and_or]
  · have masked := counterAfter_eq_iff iv first second (block + 1) 0
    exact (not_congr masked).trans not_and_or

/-- The first blocks of two short records. -/
theorem counters_differ_iff_short :
    let fed := (ctrRun .identity (fun _ => 0) true (.replicate 12 0) 0 [1]).fed
    let fed' := (ctrRun .identity (fun _ => 0) true (.replicate 12 0) 1 [2]).fed
    ∃ (inside : 0 < fed.length) (inside' : 0 < fed'.length),
      (fed[0] ≠ fed'[0] ↔ (0 : BitVec 64) ≠ 1 ∨ (0 + 1) % 256 ≠ (0 + 1) % 256) ∧
        (fed[0] ≠ initialCounter (.replicate 12 0) 1 ↔
          (0 : BitVec 64) ≠ 1 ∨ (0 + 1) % 256 ≠ 0) := by
  intro fed fed'
  have inside : 0 < fed.length := by decide
  have inside' : 0 < fed'.length := by decide
  exact ⟨inside, inside',
    counters_differ_iff .identity _ (.replicate 12 0) 0 1 [1] [2] inside inside'⟩

/-- A record of 257 blocks: the last is encrypted with the key stream of the first, and the
one before it with the block that masks the tag. -/
theorem counters_repeat : let fed :=
      (ctrRun .identity (fun _ => 0) true (.replicate 12 0) 0 (List.replicate 4112 0)).fed
    ∃ inside : fed.length = 257,
      fed[0] = fed[256] ∧ fed[255] = initialCounter (.replicate 12 0) 0 := by
  intro fed
  have all : fed = _ := fed_ctrRun .identity (fun _ => 0) true (.replicate 12 0) 0
    (List.replicate 4112 0)
  have length : fed.length = 257 := by
    rw [all, List.length_map, List.length_range, List.length_replicate]
    rfl
  refine ⟨length, ?_, ?_⟩
  · simp only [all, List.getElem_map, List.getElem_range]
    exact (counterAfter_eq_iff _ 0 0 1 257).mpr ⟨rfl, rfl⟩
  · simp only [all, List.getElem_map, List.getElem_range]
    exact (counterAfter_eq_iff _ 0 0 256 0).mpr ⟨rfl, rfl⟩

end SlabFlux.Security.AesGcmHardware
