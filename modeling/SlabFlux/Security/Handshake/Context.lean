import SlabFlux.Lib.Execution
import SlabFlux.Lib.Outcome
import SlabFlux.Security.Certificates
import SlabFlux.Security.AesGcmHardware
import SlabFlux.Security.HelloFields

/-!
# What a call of the handshake machine works on

The context and the keys of a session, the process-wide data, what a call takes from its
surroundings, and the operations the branches of `process_handshake` share.

The cryptographic primitives are parameters.  The transcript hash is kept as the bytes that
have been hashed.  A session carries a history of what was offered and accepted.
-/

namespace SlabFlux.Security.Handshake

open Lib Lib.Simd

/-- The primitives that the machine calls. -/
structure Primitives where
  hash : Bytes → Vector (BitVec 8) 32
  hmac : (key message : Bytes) → Vector (BitVec 8) 32
  extract : (salt keyMaterial : Bytes) → Vector (BitVec 8) 32
  expandLabel : (secret : Vector (BitVec 8) 32) → (label : String) →
    (context : Bytes) → (length : Nat) → Vector (BitVec 8) length
  scalarmult : (scalar point : Vector (BitVec 8) 32) → Vector (BitVec 8) 32
  sign : (nonce privateKey : Vector (BitVec 8) 32) → (message : Bytes) →
    Vector (BitVec 8) 32 × Vector (BitVec 8) 32
  verify : (publicKey signature message : Bytes) → Bool
  aes : AesInstructions

/-- An array of 32 zero bytes. -/
def zeros : Vector (BitVec 8) 32 := .replicate 32 0

/-- The clamping of a private key. -/
def clamp (privateKey : Vector (BitVec 8) 32) : Vector (BitVec 8) 32 :=
  (privateKey.set 0 (privateKey[0] &&& 248)).set 31 ((privateKey[31] &&& 127) ||| 64)

variable (crypto : Primitives)

/-- `scalarmult_base` of a clamped key. -/
def Primitives.scalarmultBase (privateKey : Vector (BitVec 8) 32) :
    Vector (BitVec 8) 32 :=
  crypto.scalarmult privateKey (zeros.set 0 9)

/-- `tls_handshake_state`. -/
inductive HandshakeState where
  | expectClientHello
  | expectFinished
  | established
  | failed
  | generateClientHello
  | expectServerHello
  | expectServerFinished
  deriving DecidableEq

/-- `tls_session_keys`. -/
structure SessionKeys where
  clientWriteKey : Fin 11 → Xmm
  serverWriteKey : Fin 11 → Xmm
  clientWriteIv : Vector (BitVec 8) 12
  serverWriteIv : Vector (BitVec 8) 12
  clientSeq : BitVec 64
  serverSeq : BitVec 64
  active : Bool

/-- `tls_handshake_context`. -/
structure Context where
  state : HandshakeState
  isResumption : Bool
  isServer : Bool
  mtlsRequested : Bool
  transcript : Bytes
  remoteIpv4 : BitVec 32
  ephemeralPrivKey : Vector (BitVec 8) 32
  handshakeSecret : Vector (BitVec 8) 32
  clientTrafficSecret : Vector (BitVec 8) 32
  serverTrafficSecret : Vector (BitVec 8) 32

/-- A fresh context in a state. -/
def Context.fresh (state : HandshakeState) (remoteIpv4 : BitVec 32) : Context where
  state := state
  isResumption := false
  isServer := false
  mtlsRequested := false
  transcript := []
  remoteIpv4 := remoteIpv4
  ephemeralPrivKey := zeros
  handshakeSecret := zeros
  clientTrafficSecret := zeros
  serverTrafficSecret := zeros

/-- A signature of a peer that the signature check has accepted: the certificate with the
key, the signature, and the transcript it was checked against. -/
structure Verification where
  certificate : View
  signature : View
  transcript : Bytes

/-- What a session has offered or accepted. -/
inductive Event where
  | offered
  | verified (verification : Verification)
  | finished

/-- The keys and the context of a session, and its history. -/
structure Session where
  keys : SessionKeys
  context : Context
  history : List Event

/-- What `tls_ticket_vault` keeps of a ticket. -/
structure SessionTicket where
  lifetime : BitVec 32
  ageAdd : BitVec 32
  receivedTsc : BitVec 64
  ticket : Bytes

/-- The process-wide data. -/
structure Host where
  crypto : Primitives
  serverCertificate : Bytes
  clientCertificate : Bytes
  policy : MtlsPolicyEngine
  whitelist : ClientSpkiWhitelist

/-- What a call takes from its surroundings: the bytes the random number generator gives,
32 at a time, what `tls_ticket_vault::lookup` finds, the time stamp counter, and the
caller's buffer. -/
structure Surroundings where
  random : Nat → Vector (BitVec 8) 32
  ticketFor : BitVec 32 → Option SessionTicket
  tsc : BitVec 64
  egress : Memory
  capacity : Nat

/-- What a call leaves: the session, the bytes it returns the count of, and the tickets it
has given to `tls_ticket_vault::store`. -/
structure Answer where
  session : Session
  written : Bytes
  stored : List SessionTicket

namespace Session

variable (session : Session)

def updateTranscript (data : Bytes) : Session :=
  { session with
    context := { session.context with transcript := session.context.transcript ++ data } }

theorem state_updateTranscript (data : Bytes) :
    (session.updateTranscript data).context.state = session.context.state := rfl

/-- Note something in the history. -/
def note (event : Event) : Session :=
  { session with history := session.history ++ [event] }

/-- The session in another state. -/
def enter (state : HandshakeState) : Session :=
  { session with context := { session.context with state := state } }

/-- Return 0 with the context failed. -/
def fail {Next : Type} (session : Session) : Except Session Next := .error (session.enter .failed)

/-- The hash of the transcript. -/
def transcriptHash : Vector (BitVec 8) 32 :=
  crypto.hash session.context.transcript

/-- Take over the client's write key and IV from a traffic secret. -/
def keyClient (secret : Vector (BitVec 8) 32) : Session :=
  { session with keys :=
    { session.keys with
      clientWriteKey := crypto.aes.expandKey (crypto.expandLabel secret "key" [] 16).toList
      clientWriteIv := crypto.expandLabel secret "iv" [] 12
      clientSeq := 0 } }

/-- Take over the server's write key and IV from a traffic secret. -/
def keyServer (secret : Vector (BitVec 8) 32) : Session :=
  { session with keys :=
    { session.keys with
      serverWriteKey := crypto.aes.expandKey (crypto.expandLabel secret "key" [] 16).toList
      serverWriteIv := crypto.expandLabel secret "iv" [] 12
      serverSeq := 0 } }

end Session

/-- 32 bytes of a view. -/
def blockAt (view : View) (start : Nat) : Vector (BitVec 8) 32 :=
  .ofFn fun index => view.get (start + index)

/-- The length of what lies between two indices and behind a header, as it is narrowed to
the width of its field. -/
def lengthBetween (width start stop header : Nat) : BitVec width :=
  BitVec.ofNat width stop - BitVec.ofNat width start - BitVec.ofNat width header

/-- The buffer of a call. -/
def Surroundings.buffer (surroundings : Surroundings) : AppendBuffer :=
  ⟨surroundings.egress, surroundings.capacity, 0⟩

/-- The verify data of a Finished message. -/
def Primitives.verifyData (secret hash : Vector (BitVec 8) 32) :
    Vector (BitVec 8) 32 :=
  crypto.hmac (crypto.expandLabel secret "finished" [] 32).toList hash.toList

/-- The two sides of a handshake. -/
inductive Side where
  | client
  | server

/-- The bytes of a text of ASCII characters. -/
def text (characters : String) : Bytes :=
  characters.toList.map fun character => BitVec.ofNat 8 character.toNat

/-- The text that a CertificateVerify of a side is about. -/
def Side.label : Side → Bytes
  | .client => text "TLS 1.3, client CertificateVerify"
  | .server => text "TLS 1.3, server CertificateVerify"

/-- `cv_payload`. -/
def certificateVerifyPayload (side : Side) (hash : Vector (BitVec 8) 32) : Bytes :=
  List.replicate 64 0x20 ++ side.label ++ [0x00] ++ hash.toList

/-- The fields of an ECDSA signature. -/
def signatureFields (r s : Vector (BitVec 8) 32) : List Bytes :=
  let integer (value : Vector (BitVec 8) 32) : List Bytes :=
    if value[0] &&& 0x80 ≠ 0 then [u8 0x02, u8 33, u8 0x00, value.toList]
    else [u8 0x02, u8 32, value.toList]
  let rPad : Nat := if r[0] &&& 0x80 ≠ 0 then 1 else 0
  let sPad : Nat := if s[0] &&& 0x80 ≠ 0 then 1 else 0
  let asn1Len := 4 + 32 + rPad + 2 + 32 + sPad
  [u8 0x0F, u24 (BitVec.ofNat 32 (2 + 2 + asn1Len)), u16 0x0403,
    u16 (BitVec.ofNat 16 asn1Len), u8 0x30, u8 (BitVec.ofNat 8 (asn1Len - 2))] ++
    integer r ++ integer s

/-- The fields of a Certificate message before the request context. -/
def certificateHead (reqCtxLen : BitVec 64) (certificate : Bytes) :
    List Bytes :=
  [u8 0x0B, u24 (1 + reqCtxLen.setWidth 32 + BitVec.ofNat 32 (3 + 3 + certificate.length + 2)),
    u8 (reqCtxLen.setWidth 8)]

/-- The fields of a Certificate message behind the request context. -/
def certificateTail (certificate : Bytes) : List Bytes :=
  [u24 (BitVec.ofNat 32 (3 + certificate.length + 2)),
    u24 (BitVec.ofNat 32 certificate.length), certificate, u16 0x0000]

/-- A buffer that is appended to, and the session that its bytes are hashed for. -/
abbrev Draft := AppendBuffer × Session

/-- Append to a buffer and hash what was appended. -/
def Draft.appendHashed (draft : Draft) (change : AppendBuffer → AppendBuffer) : Draft :=
  let buffer := change draft.1
  (buffer, draft.2.updateTranscript
    (buffer.window draft.1.offset (lengthBetween 64 draft.1.offset buffer.offset 0).toNat))

/-- `encrypt_in_place` on the bytes appended since `start`; the tag goes behind them and the
cursor over it, without a check. -/
def encryptSince (buffer : AppendBuffer) (aes : AesInstructions) (key : Fin 11 → Xmm)
    (iv : Vector (BitVec 8) 12) (number : BitVec 64) (start : Nat) : AppendBuffer :=
  let plaintext := buffer.window start (buffer.offset - start)
  { buffer.overwrite start (AesGcmHardware.encryptInPlace aes key iv number plaintext) with
    offset := buffer.offset + 16 }

/-! ## Messages of a record -/

/-- A handshake message inside a record: where it starts, its type and the length of its
body. -/
structure Message where
  start : Nat
  type : BitVec 8
  length : Nat

/-- The loop over the messages of a record.  The flag says whether the walk ended at a
message that the record has no room for. -/
def walkMessages (data : View) : Nat → Nat → List Message × Bool
  | 0, _ => ([], false)
  | fuel + 1, pos =>
      if pos + 4 ≤ data.length then
        let length := data.word24 (pos + 1)
        if data.length < pos + 4 + length then ([], true)
        else
          let rest := walkMessages data fuel (pos + 4 + length)
          (⟨pos, data.get pos, length⟩ :: rest.1, rest.2)
      else ([], false)

/-- The messages of a record. -/
def messagesOf (data : View) : List Message × Bool := walkMessages data (data.length + 1) 0

/-- The bytes of a message. -/
def Message.bytes (message : Message) (data : View) : Bytes :=
  data.window message.start (4 + message.length)

/-- The first certificate of a Certificate message, if the lengths in it are consistent. -/
def Message.certificate (message : Message) (data : View) : Option View :=
  let pos := message.start
  let messageEnd := pos + 4 + message.length
  if 4 ≤ message.length then
    let reqCtxLen := (data.get (pos + 4)).toNat
    if 4 + 1 + reqCtxLen + 3 ≤ message.length then
      let listStart := pos + 4 + 1 + reqCtxLen
      let listLen := data.word24 listStart
      if 0 < listLen ∧ listStart + 3 + listLen ≤ messageEnd then
        let certStart := listStart + 3
        if certStart + 3 ≤ messageEnd then
          let certLen := data.word24 certStart
          if certStart + 3 + certLen ≤ listStart + 3 + listLen then
            some (data.slice (certStart + 3) certLen)
          else none
        else none
      else none
    else none
  else none

/-- The signature of a CertificateVerify message, if the lengths in it are consistent. -/
def Message.signature (message : Message) (data : View) : Option View :=
  if 4 ≤ message.length then
    let sigLen := data.word16 (message.start + 6)
    if 4 + sigLen = message.length then some (data.slice (message.start + 8) sigLen) else none
  else none

end SlabFlux.Security.Handshake
