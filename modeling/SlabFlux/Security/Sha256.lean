import SlabFlux.Core.Endian
import SlabFlux.Lib.BlockHash

/-!
# Hashing

`sha256_state`, `sha256_hardware::finalize` and `update_transcript`.  The state of a hash and
the transcript of a handshake have the same fields, but for the width of the byte count, and
are updated by the same code.  The compression function is a parameter.

A hash takes in a message however it is divided.  The count of the transcript has 32 bits,
so the length in the padding is right for fewer than 2 ^ 32 bytes.
-/

namespace SlabFlux.Security

open SlabFlux.Core Lib

/-- The eight words of a hash. -/
abbrev HashWords := Vector (BitVec 32) 8

/-- `compress_block`. -/
abbrev Compression := HashWords → Bytes → HashWords

/-- The initial value of `h`, and of `transcript_hash`. -/
def initialWords : HashWords :=
  #v[0x6a09e667, 0xbb67ae85, 0x3c6ef372, 0xa54ff53a, 0x510e527f, 0x9b05688c, 0x1f83d9ab, 0x5be0cd19]

/-- A hash with the bytes that do not fill a block yet. -/
structure HashState (width : Nat) where
  h : HashWords := initialWords
  buffer : Memory := fun _ => 0
  length : Nat := 0
  totalBytes : BitVec width := 0

abbrev Sha256State := HashState 64

/-- The fields of `tls_handshake_context` that start with `transcript`, and
`total_transcript_bytes`. -/
abbrev Transcript := HashState 32

/-- Write bytes to a buffer. -/
def put (buffer : Memory) (offset : Nat) (bytes : Bytes) : Memory :=
  buffer.copy offset (fun index => bytes.getD index 0) 0 bytes.length

namespace HashState

variable {width : Nat}

/-- The bytes of the block that is not full yet. -/
def pending (state : HashState width) : Bytes := state.buffer.bytes 0 state.length

/-- Fill a block that has been started.  The bytes behind those taken are returned. -/
def fill (compress : Compression) (state : HashState width) (data : Bytes) :
    HashState width × Bytes :=
  if 0 < state.length then
    let space := 64 - state.length
    let chunk := if data.length < space then data.length else space
    let filled : HashState width :=
      { state with
        buffer := put state.buffer state.length (data.take chunk)
        length := state.length + chunk }
    (if filled.length = 64 then
        { filled with h := compress filled.h (filled.buffer.bytes 0 64), length := 0 }
      else filled, data.drop chunk)
  else (state, data)

/-- The loop over the whole blocks of the rest. -/
def absorb (compress : Compression) : Nat → HashWords → Bytes →
    HashWords × Bytes
  | 0, h, rest => (h, rest)
  | fuel + 1, h, rest =>
      if 64 ≤ rest.length then absorb compress fuel (compress h (rest.take 64)) (rest.drop 64)
      else (h, rest)

/-- `update`, and the body of `update_transcript`. -/
def update (compress : Compression) (state : HashState width) (data : Bytes) :
    HashState width :=
  let state := { state with totalBytes := state.totalBytes + BitVec.ofNat width data.length }
  let filled := state.fill compress data
  let absorbed := absorb compress data.length filled.1.h filled.2
  if 0 < absorbed.2.length then
    { filled.1 with
      h := absorbed.1, buffer := put filled.1.buffer 0 absorbed.2, length := absorbed.2.length }
  else { filled.1 with h := absorbed.1 }

end HashState

def finalize (compress : Compression) (state : HashWords) (buffer : Memory)
    (bufferLength : Nat) (totalBytes : BitVec 64) : HashWords :=
  let buffer := put buffer bufferLength [0x80]
  let bufferLength := bufferLength + 1
  let padded : HashWords × Memory × Nat :=
    if 56 < bufferLength then
      let buffer := put buffer bufferLength (List.replicate (64 - bufferLength) 0)
      (compress state (buffer.bytes 0 64), buffer, 0)
    else (state, buffer, bufferLength)
  let buffer := put padded.2.1 padded.2.2 (List.replicate (56 - padded.2.2) 0)
  let totalBits := hostToNetwork64 (totalBytes * 8)
  let buffer := put buffer 56 (toBytes 8 totalBits)
  (compress padded.1 (buffer.bytes 0 64)).map hostToNetwork32

/-- The bytes of an array of words. -/
def storedWords (words : HashWords) : Bytes := words.toList.flatMap (toBytes 4)

def Sha256State.finalize (compress : Compression) (state : Sha256State) : Bytes :=
  storedWords (Security.finalize compress state.h state.buffer state.length state.totalBytes)

def updateTranscript (compress : Compression) (ctx : Transcript) (data : Bytes) :
    Transcript := ctx.update compress data

/-- The hash of the transcript so far: copies of the fields are finalized. -/
def Transcript.finalize (compress : Compression) (ctx : Transcript) : Bytes :=
  storedWords (Security.finalize compress ctx.h ctx.buffer ctx.length (ctx.totalBytes.setWidth 64))

/-! ## The padding of FIPS 180-4 -/

/-- How many zero bytes follow the byte that ends the message. -/
def zeroBytes (length : Nat) : Nat := (119 - length % 64) % 64

/-- A message of so many bits, padded. -/
def padded (message : Bytes) (bits : BitVec 64) : Bytes :=
  message ++ ([0x80] ++ List.replicate (zeroBytes message.length) 0 ++ (toBytes 8 bits).reverse)

/-- The hash of a message that is padded as one of so many bits. -/
def hashOf (compress : Compression) (message : Bytes) (bits : BitVec 64) :
    Bytes :=
  (foldBlocks compress 64 initialWords (padded message bits)).toList.flatMap fun word =>
    (toBytes 4 word).reverse

/-- The hash of a message. -/
def sha256 (compress : Compression) (message : Bytes) : Bytes :=
  hashOf compress message (BitVec.ofNat 64 (8 * message.length))

/-! ## Streaming -/

/-- What a hash has taken in. -/
abbrev TakenIn (compress : Compression) := Absorbed compress 64 initialWords

theorem bytes_put (buffer : Memory) (offset : Nat) (bytes : Bytes) :
    (put buffer offset bytes).bytes 0 (offset + bytes.length) = buffer.bytes 0 offset ++ bytes :=
  Memory.bytes_copy_append buffer offset bytes

namespace HashState

variable {width : Nat} {compress : Compression} {state : HashState width}
  {message : Bytes}

theorem length_pending : state.pending.length = state.length := Memory.length_bytes _ _ _

/-- Filling a block takes bytes from the front, and all of them if the block stays open. -/
theorem takenIn_fill (taken : TakenIn compress message state.h state.pending)
    (short : state.length < 64) (data : Bytes) :
    let filled := state.fill compress data
    ∃ front, data = front ++ filled.2 ∧
      TakenIn compress (message ++ front) filled.1.h filled.1.pending ∧
      filled.1.length < 64 ∧ (filled.1.length = 0 ∨ filled.2 = []) := by
  unfold fill
  split_ifs with started
  · dsimp only
    generalize chunk_eq : (if data.length < 64 - state.length then data.length
      else 64 - state.length) = chunk
    have fits : state.length + chunk ≤ 64 := by
      split_ifs at chunk_eq <;> omega
    have inside : chunk ≤ data.length := by
      split_ifs at chunk_eq <;> omega
    have count : (data.take chunk).length = chunk := List.length_take_of_le inside
    have bytes := bytes_put state.buffer state.length (data.take chunk)
    rw [count] at bytes
    have appended := taken.append (data.take chunk)
    refine ⟨data.take chunk, (List.take_append_drop _ _).symm, ?_⟩
    split_ifs with full
    · refine ⟨?_, Nat.succ_pos 63, Or.inl rfl⟩
      rw [← full, bytes]
      exact appended.block (by rw [List.length_append, length_pending, count, full]) (by decide)
    · have unfilled : state.length + chunk < 64 := Nat.lt_of_le_of_ne fits full
      refine ⟨?_, unfilled, Or.inr (List.drop_eq_nil_of_le ?_)⟩
      · rw [pending, bytes]
        exact appended
      · split_ifs at chunk_eq <;> omega
  · refine ⟨[], rfl, ?_, short, Or.inl (Nat.eq_zero_of_not_pos started)⟩
    rw [List.append_nil]
    exact taken

/-- The loop leaves less than a block. -/
theorem takenIn_absorb {h : HashWords} {fuel : Nat} {rest : Bytes}
    (taken : TakenIn compress message h []) (enough : rest.length ≤ fuel) :
    let absorbed := absorb compress fuel h rest
    TakenIn compress (message ++ rest) absorbed.1 absorbed.2 ∧ absorbed.2.length < 64 := by
  induction fuel generalizing message h rest with
  | zero =>
      rw [absorb]
      exact ⟨taken.append rest, by dsimp only; omega⟩
  | succ fuel ih =>
      rw [absorb]
      split_ifs with whole
      · have block := (taken.append (rest.take 64)).block
          (List.length_take_of_le whole) (by decide)
        have done := ih block
          (show (rest.drop 64).length ≤ fuel by rw [List.length_drop]; omega)
        rw [List.append_assoc, List.take_append_drop] at done
        exact done
      · exact ⟨taken.append rest, by dsimp only; omega⟩

theorem totalBytes_fill (data : Bytes) :
    (state.fill compress data).1.totalBytes = state.totalBytes := by
  unfold fill
  split_ifs
  · dsimp only
    split_ifs <;> rfl
  · rfl

theorem totalBytes_update (data : Bytes) :
    (state.update compress data).totalBytes =
      state.totalBytes + BitVec.ofNat width data.length := by
  unfold update
  dsimp only
  split_ifs <;> exact totalBytes_fill data

/-- Whatever is pending in a block, an update takes in its data. -/
theorem takenIn_update (taken : TakenIn compress message state.h state.pending)
    (short : state.length < 64) (data : Bytes) :
    TakenIn compress (message ++ data) (state.update compress data).h
        (state.update compress data).pending ∧
      (state.update compress data).length < 64 := by
  unfold update
  obtain ⟨front, parts, filled, unfilled, rest⟩ := @takenIn_fill _ _
    { state with totalBytes := state.totalBytes + BitVec.ofNat width data.length } _
    taken short data
  dsimp only
  generalize fill compress _ data = result at parts filled unfilled rest ⊢
  obtain closed | done := rest
  · have nothing : result.1.pending = [] := by rw [pending, closed]; rfl
    rw [nothing] at filled
    obtain ⟨absorbed, less⟩ := takenIn_absorb filled
      (show result.2.length ≤ data.length by rw [parts, List.length_append]; omega)
    rw [List.append_assoc, ← parts] at absorbed
    split_ifs with stash
    · refine ⟨?_, less⟩
      have bytes := bytes_put result.1.buffer 0 (absorb compress data.length result.1.h result.2).2
      rw [Nat.zero_add] at bytes
      rw [pending, bytes]
      exact absorbed
    · rw [List.length_eq_zero_iff.mp (Nat.eq_zero_of_not_pos stash)] at absorbed
      refine ⟨?_, unfilled⟩
      rw [closed]
      exact absorbed
  · have none : absorb compress data.length result.1.h [] = (result.1.h, []) := by
      cases data.length <;> rfl
    rw [done, List.append_nil] at parts
    rw [done, none, parts]
    exact ⟨filled, unfilled⟩

/-- A run of updates takes in its data, however it is divided. -/
theorem takenIn_foldl (chunks : List Bytes)
    (taken : TakenIn compress message state.h state.pending) (short : state.length < 64) :
    let last := chunks.foldl (update compress) state
    TakenIn compress (message ++ chunks.flatten) last.h last.pending ∧ last.length < 64 ∧
      last.totalBytes = state.totalBytes + BitVec.ofNat width chunks.flatten.length := by
  induction chunks generalizing state message with
  | nil =>
      rw [List.flatten_nil, List.append_nil]
      exact ⟨taken, short, (BitVec.add_zero _).symm⟩
  | cons chunk rest ih =>
      obtain ⟨next, short'⟩ := takenIn_update taken short chunk
      obtain ⟨last, short'', total⟩ := ih next short'
      rw [List.append_assoc] at last
      refine ⟨last, short'', total.trans ?_⟩
      rw [totalBytes_update, List.flatten_cons, List.length_append, BitVec.ofNat_add,
        BitVec.add_assoc]

end HashState

theorem toBytes_hostToNetwork64 (value : BitVec 64) :
    toBytes 8 (hostToNetwork64 value) = (toBytes 8 value).reverse := by
  rw [hostToNetwork64, networkToHost64_eq]
  exact toBytes_ofBytes (by simp)

theorem toBytes_hostToNetwork32 (value : BitVec 32) :
    toBytes 4 (hostToNetwork32 value) = (toBytes 4 value).reverse := by
  rw [hostToNetwork32, networkToHost32_eq]
  exact toBytes_ofBytes (by simp)

theorem storedWords_map (words : HashWords) :
    storedWords (words.map hostToNetwork32) =
      words.toList.flatMap fun word => (toBytes 4 word).reverse := by
  rw [storedWords, Vector.toList_map, List.flatMap_map]
  exact congrArg (words.toList.flatMap ·) (funext toBytes_hostToNetwork32)

section Padding

variable {compress : Compression} {h : HashWords} {buffer : Memory} {count : Nat}
  {message : Bytes}

section

variable (taken : TakenIn compress message h (buffer.bytes 0 count))
include taken

theorem takenIn_put (bytes : Bytes) {total : Nat} (sum : count + bytes.length = total) :
    TakenIn compress (message ++ bytes) h ((put buffer count bytes).bytes 0 total) := by
  rw [← sum, bytes_put]
  exact taken.append bytes

theorem compress_last (room : count ≤ 56) (bits : BitVec 64) :
    compress h ((put (put buffer count (List.replicate (56 - count) 0)) 56
        (toBytes 8 bits)).bytes 0 64) =
      foldBlocks compress 64 initialWords
        (message ++ List.replicate (56 - count) 0 ++ toBytes 8 bits) := by
  have zeros := takenIn_put taken (List.replicate (56 - count) 0)
    (show _ = 56 by rw [List.length_replicate]; omega)
  have last := takenIn_put zeros (toBytes 8 bits) (show _ = 64 by rw [length_toBytes])
  exact (last.block (Memory.length_bytes _ _ _) (by decide)).hash_eq

/-- The length that the padding ends with is the one that was counted. -/
theorem storedWords_finalize (short : count < 64) (totalBytes : BitVec 64) :
    storedWords (finalize compress h buffer count totalBytes) =
      hashOf compress message (totalBytes * 8) := by
  have remainder := taken.length_mod (by rw [Memory.length_bytes]; exact short)
  rw [Memory.length_bytes] at remainder
  have ended := takenIn_put taken [0x80] (show _ = count + 1 from rfl)
  unfold hashOf finalize padded zeroBytes
  rw [remainder, ← toBytes_hostToNetwork64, storedWords_map]
  split_ifs with long
  · -- The end marker leaves no room for the length: the zeros go on in a block of their own.
    have full := (takenIn_put ended (List.replicate (64 - (count + 1)) 0)
      (show _ = 64 by rw [List.length_replicate]; omega)).block
      (Memory.length_bytes _ _ _) (by decide)
    have zeros : (119 - count) % 64 = 64 - (count + 1) + (56 - 0) := by omega
    rw [@compress_last _ _ _ 0 _ full (Nat.zero_le 56), zeros, List.replicate_add]
    simp only [List.append_assoc]
  · have zeros : (119 - count) % 64 = 56 - (count + 1) := by omega
    rw [compress_last ended (by omega), zeros]
    simp only [List.append_assoc]

end

end Padding

/-- A hash over a message that is given in chunks. -/
def streamed (compress : Compression) (chunks : List Bytes) : Bytes :=
  Sha256State.finalize compress (chunks.foldl (HashState.update compress) {})

/-- The hash over the messages of a handshake. -/
def transcriptHash (compress : Compression) (messages : List Bytes) : Bytes :=
  Transcript.finalize compress (messages.foldl (updateTranscript compress) {})

theorem storedWords_foldl (width : Nat) (compress : Compression) (chunks : List Bytes) :
    let last := chunks.foldl (HashState.update compress) ({} : HashState width)
    storedWords (finalize compress last.h last.buffer last.length (last.totalBytes.setWidth 64)) =
      hashOf compress chunks.flatten
        ((BitVec.ofNat width chunks.flatten.length).setWidth 64 * 8) := by
  obtain ⟨taken, short, total⟩ :=
    @HashState.takenIn_foldl width compress {} [] chunks Absorbed.empty (Nat.succ_pos 63)
  dsimp only
  rw [storedWords_finalize taken short, total]
  exact congrArg (fun count : BitVec width => hashOf compress chunks.flatten
    (count.setWidth 64 * 8)) (BitVec.zero_add _)

theorem streamed_eq_sha256 (compress : Compression) (chunks : List Bytes) :
    streamed compress chunks = sha256 compress chunks.flatten := by
  have folded := storedWords_foldl 64 compress chunks
  dsimp only at folded
  rw [BitVec.setWidth_eq, BitVec.mul_comm] at folded
  rw [streamed, Sha256State.finalize, folded, sha256, BitVec.ofNat_mul]
  rfl

/-- The count of a transcript, in bits. -/
def transcriptBits (length : Nat) : BitVec 64 := (BitVec.ofNat 32 length).setWidth 64 * 8

theorem transcriptHash_eq (compress : Compression) (messages : List Bytes) :
    transcriptHash compress messages =
      hashOf compress messages.flatten (transcriptBits messages.flatten.length) :=
  storedWords_foldl 32 compress messages

theorem transcriptBits_eq_iff {length : Nat} (admitted : length < 2 ^ 61) :
    transcriptBits length = BitVec.ofNat 64 (8 * length) ↔ length < 2 ^ 32 := by
  rw [transcriptBits, ← BitVec.toNat_inj, BitVec.toNat_mul, BitVec.toNat_setWidth,
    BitVec.toNat_ofNat, BitVec.toNat_ofNat]
  change length % 2 ^ 32 % 2 ^ 64 * 8 % 2 ^ 64 = 8 * length % 2 ^ 64 ↔ _
  omega

/-- A compression function that only tells whether a block ends with a length. -/
def tell (bits : BitVec 64) : Compression := fun _ block =>
  Vector.replicate 8 (if block.drop 56 = (toBytes 8 bits).reverse then 0 else 1)

theorem finalize_tell (bits : BitVec 64) (h : HashWords) (buffer : Memory) (count : Nat)
    (totalBytes : BitVec 64) :
    finalize (tell bits) h buffer count totalBytes =
      Vector.replicate 8 (hostToNetwork32 (if totalBytes * 8 = bits then 0 else 1)) := by
  have same : toBytes 8 (hostToNetwork64 (totalBytes * 8)) = (toBytes 8 bits).reverse ↔
      totalBytes * 8 = bits := by
    rw [toBytes_hostToNetwork64, List.reverse_inj]
    refine ⟨fun bytes => ?_, congrArg (toBytes 8)⟩
    rw [← ofBytes_toBytes (totalBytes * 8) (show 8 * 8 = 64 from rfl), bytes,
      ofBytes_toBytes bits (show 8 * 8 = 64 from rfl)]
  have ends (buffer : Memory) (bytes : Bytes) (eight : bytes.length = 8) :
      ((put buffer 56 bytes).bytes 0 64).drop 56 = bytes := by
    have parts := bytes_put buffer 56 bytes
    rw [eight] at parts
    rw [parts, List.drop_left' (Memory.length_bytes _ _ _)]
  unfold finalize tell
  rw [Vector.map_replicate, ends _ _ (length_toBytes _ _)]
  simp only [same]

theorem hashOf_tell (bits totalBytes : BitVec 64) (message : Bytes) :
    hashOf (tell bits) message (totalBytes * 8) = storedWords (Vector.replicate 8
        (hostToNetwork32 (if totalBytes * 8 = bits then 0 else 1))) := by
  obtain ⟨taken, short⟩ := @HashState.takenIn_update 64 (tell bits) {} [] Absorbed.empty
    (Nat.succ_pos 63) message
  rw [List.nil_append] at taken
  rw [← storedWords_finalize taken short, finalize_tell]

/-- From 2 ^ 32 bytes on, the padding of a transcript ends with another length. -/
theorem transcriptHash_ne {messages : List Bytes}
    (admitted : messages.flatten.length < 2 ^ 61) (long : 2 ^ 32 ≤ messages.flatten.length) :
    transcriptHash (tell (BitVec.ofNat 64 (8 * messages.flatten.length))) messages ≠
      sha256 (tell (BitVec.ofNat 64 (8 * messages.flatten.length))) messages.flatten := by
  have differs : transcriptBits messages.flatten.length ≠
      BitVec.ofNat 64 (8 * messages.flatten.length) :=
    fun same => Nat.not_lt.mpr long ((transcriptBits_eq_iff admitted).mp same)
  have product : BitVec.ofNat 64 (8 * messages.flatten.length) =
      BitVec.ofNat 64 messages.flatten.length * 8 := by
    rw [Nat.mul_comm, BitVec.ofNat_mul]
    rfl
  rw [product, transcriptBits] at differs
  rw [transcriptHash_eq, sha256, product, transcriptBits, hashOf_tell, hashOf_tell,
    if_neg differs, if_pos rfl]
  decide

/-- A transcript is hashed as its messages are, whatever the compression function, if it has
fewer than 2 ^ 32 bytes, and a hash state streams every message. -/
theorem streaming_iff (messages : List Bytes) (admitted : messages.flatten.length < 2 ^ 61) :
    (∀ compress, streamed compress messages = sha256 compress messages.flatten ∧
        transcriptHash compress messages = sha256 compress messages.flatten) ↔
      messages.flatten.length < 2 ^ 32 := by
  constructor
  · intro every
    by_contra long
    exact transcriptHash_ne admitted (Nat.le_of_not_lt long) (every _).2
  · intro counted compress
    refine ⟨streamed_eq_sha256 compress messages, ?_⟩
    rw [transcriptHash_eq, (transcriptBits_eq_iff admitted).mpr counted, sha256]

/-- A short handshake. -/
theorem streaming_short :
    (∀ compress, streamed compress [[1], [], [2, 3]] = sha256 compress [1, 2, 3] ∧
        transcriptHash compress [[1], [], [2, 3]] = sha256 compress [1, 2, 3]) ↔
      3 < 2 ^ 32 :=
  streaming_iff [[1], [], [2, 3]] (by decide)

/-- A transcript of 2 ^ 32 bytes is padded as an empty one. -/
theorem transcriptHash_ne_sha256 :
    ∃ compress, transcriptHash compress [List.replicate (2 ^ 32) 0] ≠
      sha256 compress (List.replicate (2 ^ 32) 0) := by
  have length : [List.replicate (2 ^ 32) (0 : BitVec 8)].flatten.length = 2 ^ 32 := by
    rw [List.flatten_singleton, List.length_replicate]
  have differs := transcriptHash_ne (length.trans_lt (by decide)) length.ge
  rw [List.flatten_singleton] at differs
  exact ⟨_, differs⟩

end SlabFlux.Security
