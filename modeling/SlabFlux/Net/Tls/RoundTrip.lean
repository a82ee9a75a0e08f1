import SlabFlux.Lib.ChunkCipher
import SlabFlux.Net.Tls.Socket
import SlabFlux.Security.AesGcmHardware

/-!
# What is encrypted is decrypted again

`aes_gcm_hardware` encrypts records in place, `aes_gcm_128_engine` has `encrypt_quic` and
`decrypt_quic`.  Both engines mask chunk after chunk and hash the ciphertext, so each is a cipher
that works chunk by chunk, and either side of it computes one tag.
-/

namespace SlabFlux.Net.Tls.AesGcm128Engine

open Lib Lib.Simd
open Security.AesGcmHardware (padBlock)
variable (engine : AesGcm128Engine)

/-- A chunk masked with a block of key stream. -/
def maskChunk (keyStream : Xmm) (chunk : Bytes) : Bytes :=
  (store (padBlock chunk ^^^ keyStream)).take chunk.length

/-- `cb` up to its counter: the IV with the packet number folded into the last eight bytes. -/
def packetNonce (packetNumber : BitVec 64) : Bytes :=
  let cb := (toBytes 8 engine.implicitIv0 ++ toBytes 8 engine.implicitIv1).take 12
  cb.take 4 ++ List.zipWith (· ^^^ ·) (cb.drop 4) (toBytes 8 (byteSwap 8 packetNumber))

/-- The hash state after a block, which zeros fill up. -/
def hashChunk (ghashState : Xmm) (chunk : Bytes) : Xmm :=
  gfmul (ghashState ^^^ reverseBytes (padBlock chunk)) engine.h

/-- The hash of the associated data: the loop over its blocks, and the branch for the rest. -/
def hashAad (aad : Bytes) : Xmm :=
  blockwise 16 (fun ghashState block =>
    gfmul (ghashState ^^^ reverseBytes (load block)) engine.h) engine.hashChunk aad 0

/-- `c32` and `ghash_state` between two blocks. -/
structure PacketState where
  c32 : BitVec 32
  ghashState : Xmm

section Payload

variable (aes : AesInstructions) (encrypting : Bool) (nonce : Bytes)

/-- One round of the loop over the blocks of the payload.  Encryption hashes what it writes,
decryption what it reads. -/
def packetBlock (progress : Bytes × PacketState) (block : Bytes) :
    Bytes × PacketState :=
  let c32 := progress.2.c32 + 1
  let source := load block
  let target := source ^^^ aes.encryptBlock engine.roundKeys (counterBlock nonce c32)
  let hashed := if encrypting then target else source
  (progress.1 ++ store target,
    ⟨c32, gfmul (progress.2.ghashState ^^^ reverseBytes hashed) engine.h⟩)

/-- The branch for the bytes behind the last block. -/
def packetRest (progress : Bytes × PacketState) (rest : Bytes) :
    Bytes × PacketState :=
  let c32 := progress.2.c32 + 1
  let source := padBlock rest
  let target := source ^^^ aes.encryptBlock engine.roundKeys (counterBlock nonce c32)
  let written := (store target).take rest.length
  let hashed := if encrypting then padBlock written else source
  (progress.1 ++ written,
    ⟨c32, gfmul (progress.2.ghashState ^^^ reverseBytes hashed) engine.h⟩)

/-- The payload: what is written, and the state behind it. -/
def packetPayload (aad buffer : Bytes) : Bytes × PacketState :=
  blockwise 16 (engine.packetBlock aes encrypting nonce) (engine.packetRest aes encrypting nonce)
    buffer ([], ⟨1, engine.hashAad aad⟩)

end Payload

/-- What both the loop and the branch do with a chunk. -/
def packetCipher (aes : AesInstructions) (engine : AesGcm128Engine)
    (nonce : Bytes) : ChunkCipher PacketState where
  size := 16
  mask state :=
    maskChunk (aes.encryptBlock engine.roundKeys (counterBlock nonce (state.c32 + 1)))
  absorb state chunk := ⟨state.c32 + 1, engine.hashChunk state.ghashState chunk⟩

/-- The tag of a payload that has been gone through. -/
def packetTag (aes : AesInstructions) (engine : AesGcm128Engine) (nonce : Bytes)
    (ptLen aadLen : Nat) (state : PacketState) : Xmm :=
  let lengths := ofLanes 0 (BitVec.ofNat 32 (ptLen * 8)) 0 (BitVec.ofNat 32 (aadLen * 8))
  reverseBytes (gfmul (state.ghashState ^^^ lengths) engine.h) ^^^
    aes.encryptBlock engine.roundKeys (counterBlock nonce 1)

/-- `encrypt_quic`: the ciphertext with the tag behind it. -/
def encryptQuic (aes : AesInstructions) (engine : AesGcm128Engine)
    (plaintext aad : Bytes) (packetNumber : BitVec 64) : Bytes :=
  let nonce := engine.packetNonce packetNumber
  let payload := engine.packetPayload aes true nonce aad plaintext
  payload.1 ++ store (packetTag aes engine nonce plaintext.length aad.length payload.2)

/-- `decrypt_quic`: what was written to `plaintext`, and the answer.  The plaintext is
written also when the tag is wrong. -/
def decryptQuic (aes : AesInstructions) (engine : AesGcm128Engine)
    (ciphertext aad : Bytes) (packetNumber : BitVec 64) : Bytes × Bool :=
  if ciphertext.length < 16 then ([], false)
  else
    let ptLen := ciphertext.length - 16
    let nonce := engine.packetNonce packetNumber
    let payload := engine.packetPayload aes false nonce aad (ciphertext.take ptLen)
    let calcTag := store (packetTag aes engine nonce ptLen aad.length payload.2)
    (payload.1, calcTag = ciphertext.drop ptLen)

end SlabFlux.Net.Tls.AesGcm128Engine

namespace SlabFlux.Net.Tls

open Lib Lib.Simd Security.AesGcmHardware
open AesGcm128Engine (maskChunk packetCipher)

/-! ## Both engines as ciphers -/

variable {chunk : Bytes} (keyStream : Xmm) (aes : AesInstructions)

theorem byteAt_padBlock (chunk : Bytes) {index : Nat} (inside : index < 16)
    (short : chunk.length ≤ 16) : byteAt (padBlock chunk) index = chunk.getD index 0 := by
  rw [padBlock, load, List.take_of_length_le (by simp; omega), byteAt_ofBytes _ (by omega)]
  rcases Nat.lt_or_ge index chunk.length with before | behind
  · exact List.getD_append _ _ _ _ before
  · rw [List.getD_append_right _ _ _ _ behind, List.getD_eq_default _ _ behind]
    rw [List.getD_eq_getElem?_getD, List.getElem?_getD_replicate_default_eq]

theorem length_maskChunk (short : chunk.length ≤ 16) :
    (maskChunk keyStream chunk).length = chunk.length := by
  rw [maskChunk, List.length_take, store, length_toBytes, Nat.min_eq_left short]

theorem getD_maskChunk (short : chunk.length ≤ 16) {index : Nat} (inside : index < chunk.length) :
    (maskChunk keyStream chunk).getD index 0 = chunk.getD index 0 ^^^ byteAt keyStream index := by
  rw [maskChunk, store, take_toBytes _ short, getD_toBytes _ inside, byteAt_xor,
    byteAt_padBlock chunk (by omega) short]

theorem maskChunk_maskChunk (short : chunk.length ≤ 16) :
    maskChunk keyStream (maskChunk keyStream chunk) = chunk := by
  have length := length_maskChunk keyStream short
  have short' := length.trans_le short
  apply List.ext_getElem ((length_maskChunk keyStream short').trans length)
  intro index inside inside'
  rw [← List.getD_eq_getElem _ 0, ← List.getD_eq_getElem _ 0,
    getD_maskChunk keyStream short' (by omega), getD_maskChunk keyStream short inside',
    BitVec.xor_assoc, BitVec.xor_self, BitVec.xor_zero]

theorem lawful_packetCipher (engine : AesGcm128Engine) (nonce : Bytes) :
    (packetCipher aes engine nonce).Lawful where
  size_pos := Nat.succ_pos 15
  length_mask _ _ short := length_maskChunk _ short
  mask_mask _ _ short := maskChunk_maskChunk _ short

theorem length_store (register : Xmm) : (store register).length = 16 := length_toBytes 16 register

theorem load_store (register : Xmm) : load (store register) = register :=
  ofBytes_toBytes register (show 8 * 16 = 128 from rfl)

theorem padBlock_of_length (whole : chunk.length = 16) : padBlock chunk = load chunk := by
  rw [padBlock, whole]
  exact congrArg load (List.append_nil chunk)

/-- The payload of a packet runs that cipher. -/
theorem packetPayload_eq_run (engine : AesGcm128Engine) (encrypting : Bool)
    (nonce aad buffer : Bytes) :
    engine.packetPayload aes encrypting nonce aad buffer =
      (packetCipher aes engine nonce).run encrypting buffer.length buffer
        ⟨1, engine.hashAad aad⟩ := by
  refine ((packetCipher aes engine nonce).blockwise_eq_run encrypting (Nat.succ_pos 15) ?_ ?_
    (Nat.le_refl _) _).trans (Prod.ext (List.nil_append _) rfl)
  · intro progress chunk whole
    have written (register : Xmm) : (store register).take chunk.length = store register :=
      List.take_of_length_le ((length_store register).trans_le whole.ge)
    have padded (register : Xmm) : padBlock (store register) = register := by
      rw [padBlock_of_length (length_store register), load_store]
    unfold AesGcm128Engine.packetBlock ChunkCipher.turn packetCipher maskChunk
      AesGcm128Engine.hashChunk
    dsimp only
    rw [written, padBlock_of_length whole]
    cases encrypting with
    | true => simp only [if_true, padded]
    | false => simp only [Bool.false_eq_true, if_false, padBlock_of_length whole]
  · intro progress chunk short
    cases encrypting <;> rfl

variable (roundKeys : Fin 11 → Xmm)

/-- What the loop over a record does with a block, in a state of the counter and the hash. -/
def recordCipher : ChunkCipher (Xmm × Xmm) where
  size := 16
  mask state := maskChunk (aes.encryptBlock roundKeys (addLanes state.1 one))
  absorb state chunk :=
    (addLanes state.1 one,
      ghashMul (state.2 ^^^ reverseBytes (padBlock chunk)) (hashKey aes roundKeys))

theorem lawful_recordCipher : (recordCipher aes roundKeys).Lawful where
  size_pos := Nat.succ_pos 15
  length_mask _ _ short := length_maskChunk _ short
  mask_mask _ _ short := maskChunk_maskChunk _ short

/-- The loop over a record runs that cipher. -/
theorem ctrLoop_eq_run (aes : AesInstructions) (roundKeys : Fin 11 → Xmm) (encrypting : Bool)
    (fuel : Nat) (buffer : Bytes) (state : CtrState) :
    let run := (recordCipher aes roundKeys).run encrypting fuel buffer
      (state.counter, state.ghashState)
    (ctrLoop aes roundKeys encrypting fuel buffer state).output = state.output ++ run.1 ∧
      (ctrLoop aes roundKeys encrypting fuel buffer state).ghashState = run.2.2 := by
  induction fuel generalizing buffer state with
  | zero => exact ⟨(List.append_nil _).symm, rfl⟩
  | succ fuel ih =>
      by_cases empty : buffer = []
      · rw [empty]
        exact ⟨(List.append_nil _).symm, rfl⟩
      · rw [ChunkCipher.run_succ _ _ _ empty, ctrLoop, if_neg empty]
        obtain ⟨output, ghash⟩ := ih (buffer.drop 16)
          (ctrTurn aes roundKeys encrypting (buffer.take 16) state)
        refine ⟨output.trans ?_, ghash⟩
        rw [ctrTurn, List.append_assoc]
        rfl

variable (iv : Vector (BitVec 8) 12)

/-- The counter and the hash in front of the buffer of a record. -/
def recordStart (number : BitVec 64) (length : Nat) : Xmm × Xmm :=
  (initialCounter iv number,
    ghashMul (reverseBytes (aadBlock (BitVec.ofNat 16 (length + 16)))) (hashKey aes roundKeys))

theorem ctrRun_eq_run (aes : AesInstructions) (roundKeys : Fin 11 → Xmm) (encrypting : Bool)
    (iv : Vector (BitVec 8) 12) (number : BitVec 64) (buffer : Bytes) :
    let run := (recordCipher aes roundKeys).run encrypting buffer.length buffer
      (recordStart aes roundKeys iv number buffer.length)
    (ctrRun aes roundKeys encrypting iv number buffer).output = run.1 ∧
      (ctrRun aes roundKeys encrypting iv number buffer).ghashState = run.2.2 :=
  ctrLoop_eq_run aes roundKeys encrypting buffer.length buffer _

theorem authTag_congr (number : BitVec 64) (length : Nat) {first second : CtrState}
    (same : first.ghashState = second.ghashState) :
    authTag aes roundKeys iv number length first =
      authTag aes roundKeys iv number length second := by
  rw [authTag, authTag, same]

/-- Decrypting what either engine encrypted, under the same key, IV, number and associated
data, succeeds and gives the plaintext back. -/
theorem decrypt_encrypt (engine : AesGcm128Engine) (number : BitVec 64) (plaintext aad : Bytes) :
    decryptInPlace aes roundKeys iv number
        (encryptInPlace aes roundKeys iv number plaintext) =
      (plaintext, plaintext.length) ∧
    engine.decryptQuic aes (engine.encryptQuic aes plaintext aad number) aad number =
      (plaintext, true) := by
  constructor
  · obtain ⟨output, ghash⟩ := ctrRun_eq_run aes roundKeys true iv number plaintext
    have lawful := lawful_recordCipher aes roundKeys
    have length := lawful.length_run true (Nat.le_refl plaintext.length)
      (recordStart aes roundKeys iv number plaintext.length)
    have back := lawful.run_run (Nat.le_refl plaintext.length)
      (recordStart aes roundKeys iv number plaintext.length)
    rw [← output] at length back
    obtain ⟨output', ghash'⟩ := ctrRun_eq_run aes roundKeys false iv number
      (ctrRun aes roundKeys true iv number plaintext).output
    rw [length, back] at output' ghash'
    unfold decryptInPlace encryptInPlace
    dsimp only
    rw [List.length_append, length, length_store, Nat.add_sub_cancel, if_neg (by omega),
      List.take_left' length, List.drop_left' length, load_store, output', length,
      authTag_congr aes roundKeys iv number plaintext.length (ghash'.trans ghash.symm),
      if_pos rfl]
  · have lawful := lawful_packetCipher aes engine (engine.packetNonce number)
    have length := lawful.length_run true (Nat.le_refl plaintext.length)
      ⟨1, engine.hashAad aad⟩
    have back := lawful.run_run (Nat.le_refl plaintext.length) ⟨1, engine.hashAad aad⟩
    unfold AesGcm128Engine.decryptQuic AesGcm128Engine.encryptQuic
    simp only [packetPayload_eq_run]
    rw [List.length_append, length, length_store, Nat.add_sub_cancel, if_neg (by omega),
      List.take_left' length, List.drop_left' length, length, back, decide_eq_true rfl]

end SlabFlux.Net.Tls
