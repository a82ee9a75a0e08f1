import SlabFlux.Lib.Simd
import SlabFlux.Net.Tcp.Outbound

/-!
# The TLS socket

`aes_gcm_128_engine::set_key` and `encrypt_record`.  A record is encrypted with a history
of the blocks that AES was applied to.

`virtual_tls_socket::set_traffic_keys` and `send` over an IPv4 connection.
-/

namespace SlabFlux.Net.Tls

open Lib Lib.Simd

/-- `aes_gcm_128_engine`. -/
structure AesGcm128Engine where
  roundKeys : Fin 11 → Xmm
  h : Xmm
  implicitIv0 : BitVec 64
  implicitIv1 : BitVec 64
  sequenceNumber : BitVec 64

namespace AesGcm128Engine

def gfmul (a b : Xmm) : Xmm :=
  let tmp3 := carrylessMultiply a b false false
  let tmp4 := carrylessMultiply a b false true
  let tmp5 := carrylessMultiply a b true false
  let tmp6 := carrylessMultiply a b true true
  let tmp4 := tmp4 ^^^ tmp5
  let tmp5 := shiftBytesLeft tmp4 8
  let tmp4 := shiftBytesRight tmp4 8
  let tmp3 := tmp3 ^^^ tmp5
  let tmp6 := tmp6 ^^^ tmp4
  let tmp7 := shiftLanesRight tmp3 31
  let tmp8 := shiftLanesRight tmp6 31
  let tmp3 := shiftLanesLeft tmp3 1
  let tmp6 := shiftLanesLeft tmp6 1
  let tmp9 := shiftBytesRight tmp7 12
  let tmp8 := shiftBytesLeft tmp8 4
  let tmp7 := shiftBytesLeft tmp7 4
  let tmp3 := tmp3 ||| tmp7
  let tmp6 := tmp6 ||| tmp8
  let tmp6 := tmp6 ||| tmp9
  let tmp10 := shiftLanesLeft tmp3 31
  let tmp11 := shiftLanesLeft tmp3 30
  let tmp12 := shiftLanesLeft tmp3 25
  let tmp10 := tmp10 ^^^ tmp11
  let tmp10 := tmp10 ^^^ tmp12
  let tmp8 := shiftBytesRight tmp10 4
  let tmp10 := shiftBytesLeft tmp10 12
  let tmp3 := tmp3 ^^^ tmp10
  let tmp10 := shiftLanesRight tmp3 1
  let tmp11 := shiftLanesRight tmp3 2
  let tmp12 := shiftLanesRight tmp3 7
  let tmp10 := tmp10 ^^^ tmp11
  let tmp10 := tmp10 ^^^ tmp12
  let tmp10 := tmp10 ^^^ tmp8
  let tmp3 := tmp3 ^^^ tmp10
  tmp6 ^^^ tmp3

def setKey (aes : AesInstructions) (key : Vector (BitVec 8) 16) (iv : Vector (BitVec 8) 12) :
    AesGcm128Engine :=
  let roundKeys := aes.expandKey key.toList
  { roundKeys := roundKeys
    h := reverseBytes (aes.encryptBlock roundKeys 0)
    implicitIv0 := ofBytes 64 (iv.toList.take 8)
    implicitIv1 := ofBytes 64 (iv.toList.drop 8)
    sequenceNumber := 0 }

/-- The twelve bytes of `nonce` that are copied into the counter block. -/
def recordNonce (engine : AesGcm128Engine) : Bytes :=
  (toBytes 8 engine.implicitIv0 ++
    toBytes 8 (engine.implicitIv1 ^^^ byteSwap 8 engine.sequenceNumber)).take 12

/-- `cb` with a value of `c32`. -/
def counterBlock (nonce : Bytes) (c32 : BitVec 32) : Xmm :=
  load (nonce ++ toBytes 4 (byteSwap 4 c32))

/-- The ciphertext and the GHASH state while a record is encrypted, with the blocks that
AES was applied to. -/
structure RecordState where
  ciphertext : Bytes
  ghashState : Xmm
  fed : List Xmm

/-- The block of AAD: the header of the record. -/
def aadBlock (ptLen : Nat) : Xmm :=
  let length := BitVec.ofNat 16 (ptLen + 17)
  let header : Bytes :=
    [0x17, 0x03, 0x03, (length >>> 8).setWidth 8, length.setWidth 8]
  load (header ++ List.replicate 11 0)

/-- Encrypt the bytes in `tmp` with a counter and keep `count` of them. -/
def encryptChunk (aes : AesInstructions) (engine : AesGcm128Engine)
    (nonce tmp : Bytes) (c32 : BitVec 32) (count : Nat) (state : RecordState) :
    RecordState :=
  let counter := counterBlock nonce c32
  let ct := load tmp ^^^ aes.encryptBlock engine.roundKeys counter
  let kept := (store ct).take count
  { ciphertext := state.ciphertext ++ kept
    ghashState := gfmul
      (state.ghashState ^^^ reverseBytes (load (kept ++ List.replicate (16 - count) 0)))
      engine.h
    fed := state.fed ++ [counter] }

/-- The plaintext of a whole block; the last of them may end with the inner type. -/
def wholeBlock (plaintext : Bytes) (innerType : BitVec 8) (index : Nat) :
    Bytes :=
  if index = (plaintext.length + 1) / 16 - 1 ∧ (plaintext.length + 1) % 16 = 0 then
    (plaintext.drop (index * 16)).take 15 ++ [innerType]
  else (plaintext.drop (index * 16)).take 16

/-- The plaintext of the block that is not whole, padded with zeros. -/
def lastBlock (plaintext : Bytes) (innerType : BitVec 8) : Bytes :=
  let rest := plaintext.drop ((plaintext.length + 1) / 16 * 16)
  rest ++ [innerType] ++ List.replicate (15 - rest.length) 0

/-- The bytes of the record. -/
def encryptPayload (aes : AesInstructions) (engine : AesGcm128Engine)
    (nonce plaintext : Bytes) (innerType : BitVec 8) (state : RecordState) :
    RecordState :=
  let blocks := (plaintext.length + 1) / 16
  let remainder := (plaintext.length + 1) % 16
  let state := (List.range blocks).foldl
    (fun state index =>
      encryptChunk aes engine nonce (wholeBlock plaintext innerType index)
        (BitVec.ofNat 32 (index + 2)) 16 state) state
  if 0 < remainder then
    encryptChunk aes engine nonce (lastBlock plaintext innerType)
      (BitVec.ofNat 32 (blocks + 2)) remainder state
  else state

/-- What a record leaves: the engine, what was written to `ciphertext`, and the blocks that
AES was applied to. -/
structure Record where
  engine : AesGcm128Engine
  ciphertext : Bytes
  fed : List Xmm

def encryptRecord (aes : AesInstructions) (engine : AesGcm128Engine)
    (plaintext : Bytes) (innerType : BitVec 8) : Record :=
  let nonce := engine.recordNonce
  let engine := { engine with sequenceNumber := engine.sequenceNumber + 1 }
  let j0 := counterBlock nonce 1
  let tagMask := aes.encryptBlock engine.roundKeys j0
  let ptLen := plaintext.length
  let state := encryptPayload aes engine nonce plaintext innerType
    { ciphertext := []
      ghashState := gfmul (reverseBytes (aadBlock ptLen)) engine.h
      fed := [j0] }
  let lengths := ofLanes 0 (BitVec.ofNat 32 ((ptLen + 1) * 8)) 0 (5 * 8)
  let ghashState := reverseBytes (gfmul (state.ghashState ^^^ lengths) engine.h)
  { engine := engine
    ciphertext := state.ciphertext ++ store (ghashState ^^^ tagMask)
    fed := state.fed }

end AesGcm128Engine

/-! ## The socket -/

open Net.Tcp

variable {Mbuf : Type}

/-- `virtual_tls_socket`. -/
structure VirtualTlsSocket (Mbuf : Type) where
  tcp : Tcb Mbuf
  txEngine : AesGcm128Engine
  rxEngine : AesGcm128Engine

namespace VirtualTlsSocket

def setTrafficKeys (aes : AesInstructions) (clientKey : Vector (BitVec 8) 16)
    (clientIv : Vector (BitVec 8) 12) (serverKey : Vector (BitVec 8) 16)
    (serverIv : Vector (BitVec 8) 12) (isServer : Bool) (socket : VirtualTlsSocket Mbuf) :
    VirtualTlsSocket Mbuf :=
  let client := AesGcm128Engine.setKey aes clientKey clientIv
  let server := AesGcm128Engine.setKey aes serverKey serverIv
  if isServer then { socket with txEngine := server, rxEngine := client }
  else { socket with txEngine := client, rxEngine := server }

/-- Whether `send` gets as far as encrypting a record. -/
def encrypts (socket : VirtualTlsSocket Mbuf) (buffer : Bytes) : Bool :=
  socket.tcp.isEstablished ∧ buffer.length ≤ 1400

/-- The five bytes before the ciphertext. -/
def recordHeader (length : Nat) : Bytes :=
  let cipherLen := BitVec.ofNat 16 (length + 1 + 16)
  [0x17, 0x03, 0x03, (cipherLen >>> 8).setWidth 8, cipherLen.setWidth 8]

/-- `send`.  The return value `-1` is `none`. -/
def send (aes : AesInstructions) (platform : Platform) (buffer : Bytes)
    (socket : VirtualTlsSocket Mbuf) : VirtualTlsSocket Mbuf × Option Nat :=
  if socket.encrypts buffer then
    let record := socket.txEngine.encryptRecord aes buffer 0x17
    let sent := socket.tcp.send platform (recordHeader buffer.length ++ record.ciphertext)
    ({ socket with tcp := sent.1, txEngine := record.engine }, sent.2)
  else (socket, none)

end VirtualTlsSocket

end SlabFlux.Net.Tls
