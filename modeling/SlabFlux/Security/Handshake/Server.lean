import SlabFlux.Security.Handshake.Client

/-!
# The server's branches of the handshake machine

`process_handshake` in the states `EXPECT_CLIENT_HELLO` and `EXPECT_FINISHED`, and
`generate_new_session_ticket`.
-/

namespace SlabFlux.Security.Handshake

open Lib
variable (crypto : Primitives) (host : Host) (surroundings : Surroundings) (record : View)
  (session : Session)

/-! ## The ClientHello -/

/-- `client_wants_0rtt`. -/
def wantsEarlyData : Bool :=
  hasExtension record 0x002A && hasExtension record 0x0029

/-- The ticket that the server resumes with. -/
def resumedTicket : Option SessionTicket :=
  if wantsEarlyData record then surroundings.ticketFor session.context.remoteIpv4 else none

/-- Start early data if there is a ticket: the session and the early secret. -/
def Session.resume (session : Session) (crypto : Primitives) :
    Option SessionTicket → Session × Vector (BitVec 8) 32
  | some ticket =>
      let session := { session with context := { session.context with isResumption := true } }
      (session.startEarlyData crypto ticket, crypto.earlySecret ticket)
  | none => (session, crypto.extract zeros.toList zeros.toList)

/-- The key agreement.  Without a key share of the client no secret is derived. -/
def Session.agree (crypto : Primitives) (earlySecret : Vector (BitVec 8) 32)
    (privateKey : Vector (BitVec 8) 32) (clientPubKey : View) : Session :=
  let session := { session with
    context := { session.context with ephemeralPrivKey := privateKey } }
  if clientPubKey.length = 32 then
    session.deriveHandshakeSecrets crypto earlySecret
      (crypto.scalarmult privateKey (blockAt clientPubKey 0))
  else session

/-- The fields of the ServerHello. -/
def serverHelloFields (publicKeyShare : Vector (BitVec 8) 32) : List Bytes :=
  [u8 0x16, u16 0x0303, u16 0, u8 0x02, u24 0, u16 0x0303, zeros.toList, u8 0x00, u16 0x1301,
    u8 0x00, u16 0, u16 0x002B, u16 0x0002, u16 0x0304, u16 0x0033, u16 0x0024, u16 0x001D,
    u16 0x0020, publicKeyShare.toList]

/-- The fields of the EncryptedExtensions message. -/
def encryptedExtensionsFields (isResumption : Bool) (alpn : View) : List Bytes :=
  let size := BitVec.ofNat 16 alpn.length
  let eeExtLen : BitVec 16 :=
    (if isResumption then 4 else 0) + (if alpn.length = 0 then 0 else 7 + size)
  [u8 0x08, u24 (2 + eeExtLen.setWidth 32), u16 eeExtLen] ++
    (if isResumption then [u16 0x002A, u16 0] else []) ++
    (if alpn.length = 0 then []
      else [u16 0x0010, u16 (3 + size), u16 (1 + size), u8 (size.setWidth 8), alpn.bytes])

/-- The fields of the CertificateRequest message. -/
def certificateRequestFields : List Bytes :=
  [u8 0x0D, u24 9, u8 0, u16 6, u16 0x000D, u16 2, u16 0x0403]

/-- Hash what lies in the buffer from one index up to another. -/
def Draft.hashBetween (draft : Draft) (start stop : Nat) : Draft :=
  (draft.1, draft.2.updateTranscript (draft.1.window start (lengthBetween 64 start stop 0).toNat))

/-- Append to the buffer only. -/
def Draft.write (draft : Draft) (fields : List Bytes) : Draft :=
  (draft.1.appendAll fields, draft.2)

/-- The certificate part of the server's flight, which a resumption leaves out.  The indices
`cr_start`, `cert_start` and `cv_start` are all taken from `sh_offset`. -/
def Draft.serverCertificate (draft : Draft) (host : Host) (nonce : Vector (BitVec 8) 32)
    (shOffset : Nat) : Draft :=
  if draft.2.context.isResumption then draft
  else
    let draft :=
      if host.policy.requiresMtls draft.2.context.remoteIpv4 then
        let session := { draft.2 with
          context := { draft.2.context with mtlsRequested := true } }
        (Draft.write (draft.1, session) certificateRequestFields).hashBetween shOffset shOffset
      else draft
    let certificate := host.serverCertificate
    let draft := (draft.write
      (certificateHead 0 certificate ++ certificateTail certificate)).hashBetween shOffset shOffset
    let payload := certificateVerifyPayload .server (draft.2.transcriptHash host.crypto)
    let signature := host.crypto.sign nonce zeros payload
    let draft := draft.write (signatureFields signature.1 signature.2)
    draft.hashBetween shOffset draft.1.offset

/-- `process_handshake` in the state `EXPECT_CLIENT_HELLO`.  The lambdas that append to the
ServerHello move `offset`; `sh_offset`, which all indices are taken from, stays zero until
the tag is counted. -/
def expectClientHello : Answer :=
  let crypto := host.crypto
  let alpn := extractAlpn record
  let (session, earlySecret) :=
    session.resume crypto (resumedTicket surroundings record session)
  let privateKey := clamp (surroundings.random 0)
  let publicKeyShare := crypto.scalarmultBase privateKey
  let session := session.agree crypto earlySecret privateKey (extractKeyShare record)
  let shOffset := 0
  let buffer := surroundings.buffer.appendAll (serverHelloFields publicKeyShare)
  let buffer := buffer.overwrite shOffset (u16 (lengthBetween 16 shOffset shOffset 2))
  let buffer := buffer.overwrite shOffset (u24 (lengthBetween 32 shOffset shOffset 4))
  let buffer := buffer.overwrite shOffset (u16 (lengthBetween 16 shOffset shOffset 2))
  let draft := Draft.write (buffer, session)
    (encryptedExtensionsFields session.context.isResumption alpn)
  let draft := draft.hashBetween shOffset draft.1.offset
  let draft := draft.serverCertificate host (surroundings.random 1) shOffset
  let verifyData := crypto.verifyData draft.2.context.serverTrafficSecret
    (draft.2.transcriptHash crypto)
  let draft := (draft.write [u8 0x14, u24 32, verifyData.toList]).hashBetween shOffset shOffset
  let (buffer, session) := draft.write [u8 22]
  -- The plaintext is what lies between `crypto_start` and `sh_offset`: nothing.
  let cryptoStart := shOffset
  let buffer := buffer.overwrite cryptoStart
    (AesGcmHardware.encryptInPlace crypto.aes session.keys.serverWriteKey
      session.keys.serverWriteIv session.keys.serverSeq
      (buffer.window cryptoStart (shOffset - cryptoStart)))
  let session := { session with
    keys := { session.keys with serverSeq := session.keys.serverSeq + 1 } }
  let shOffset := shOffset + 16
  -- The length of the record goes to the two bytes before the buffer.
  let recordLenIdx := (BitVec.ofNat 64 cryptoStart - 2).toNat
  let buffer := buffer.overwrite recordLenIdx (u16 (BitVec.ofNat 16 (shOffset - cryptoStart)))
  ⟨session.enter .expectFinished, buffer.window 0 shOffset, []⟩

/-! ## The client's flight -/

/-- What the loop over the client's flight works on. -/
structure ClientFlight where
  session : Session
  clientCert : View
  certVerified : Bool
  finishedProcessed : Bool

/-- The check of the client's signature. -/
def verifyClient (host : Host) (data : View) (message : Message) (flight : ClientFlight) :
    Except Session ClientFlight :=
  let session := flight.session
  let signature := (message.signature data).getD .empty
  let clientPubKey := extractSpki flight.clientCert
  if flight.clientCert.length = 0 ∨ signature.length = 0 ∨ clientPubKey.length = 0 ∨
      ¬host.whitelist.isAuthorized clientPubKey then session.fail
  else
    let payload := certificateVerifyPayload .client (session.transcriptHash host.crypto)
    if host.crypto.verify clientPubKey.bytes signature.bytes payload then
      let verification := ⟨flight.clientCert, signature, session.context.transcript⟩
      .ok { flight with
        certVerified := true
        session := (session.note (.verified verification)).updateTranscript
          (message.bytes data) }
    else session.fail

/-- The check of the client's Finished message. -/
def checkClientFinished (crypto : Primitives) (data : View) (message : Message)
    (flight : ClientFlight) : Except Session ClientFlight :=
  let session := flight.session
  let expected :=
    crypto.verifyData session.context.clientTrafficSecret (session.transcriptHash crypto)
  if message.length = 32 ∧ expected = blockAt data (message.start + 4) then
    .ok { flight with
      finishedProcessed := true
      session := (session.note .finished).updateTranscript (message.bytes data) }
  else session.fail

/-- One turn of the loop over the client's flight. -/
def clientMessage (host : Host) (data : View) (message : Message) (flight : ClientFlight) :
    Except Session ClientFlight :=
  let session := flight.session
  if message.type = 0x05 then
    if message.length ≠ 0 then session.fail
    else
      let session := session.updateTranscript (message.bytes data)
      .ok { flight with
        session := session.keyClient host.crypto session.context.clientTrafficSecret }
  else if message.type = 0x0B then
    .ok { flight with
      clientCert := (message.certificate data).getD flight.clientCert
      session := session.updateTranscript (message.bytes data) }
  else if message.type = 0x0F then verifyClient host data message flight
  else if message.type = 0x14 then checkClientFinished host.crypto data message flight
  else .ok flight

/-- The loop over the client's flight. -/
def readClientFlight (host : Host) (data : View) :
    List Message → ClientFlight → Except Session ClientFlight
  | [], flight => .ok flight
  | message :: rest, flight =>
      (clientMessage host data message flight).bind (readClientFlight host data rest)

/-- `decrypt_in_place` on the client's record: the memory of the record afterwards, and the
number of bytes returned. -/
def decryptRecord : Memory × Nat :=
  let (plaintext, plaintextLen) := AesGcmHardware.decryptInPlace crypto.aes
    session.keys.clientWriteKey session.keys.clientWriteIv session.keys.clientSeq record.bytes
  (record.memory.copy 0 (fun index => plaintext.getD index 0) 0 plaintext.length, plaintextLen)

/-- The plaintext of the client's record without the inner content type. -/
def clientPlaintext : View :=
  let (memory, plaintextLen) := decryptRecord crypto record session
  ⟨memory, plaintextLen - 1⟩

def generateNewSessionTicket : Answer :=
  let crypto := host.crypto
  let buffer := surroundings.buffer.appendAll [u8 0x17, u16 0x0303]
  let recLenIdx := buffer.offset
  let buffer := buffer.append (u16 0)
  let cryptoStart := buffer.offset
  let ageAdd := ofBytes 32 ((surroundings.random 0).toList.take 4)
  let masterSecret := crypto.extract session.context.handshakeSecret.toList zeros.toList
  let resMasterSecret := crypto.expandLabel masterSecret "res master"
    (session.transcriptHash crypto).toList 32
  let pskTicket := crypto.expandLabel resMasterSecret "ticket" [0x00] 32
  let buffer := buffer.appendAll
    [u8 0x04, u24 (4 + 4 + 1 + 1 + 2 + 32 + 2 + 8), u32 86400, u32 ageAdd, u8 1, u8 0x00,
      u16 32, pskTicket.toList, u16 8, u16 0x002A, u16 4, u32 65535, u8 0x16]
  let buffer := encryptSince buffer crypto.aes session.keys.serverWriteKey
    session.keys.serverWriteIv session.keys.serverSeq cryptoStart
  let session := { session with
    keys := { session.keys with serverSeq := session.keys.serverSeq + 1 } }
  let buffer := buffer.overwrite recLenIdx (u16 (lengthBetween 16 cryptoStart buffer.offset 0))
  ⟨session, buffer.window 0 buffer.offset, []⟩

/-- Switch to the application keys. -/
def Session.igniteServer (crypto : Primitives) : Session :=
  let secrets := crypto.applicationSecrets session.context.handshakeSecret
    (session.transcriptHash crypto)
  let session := (session.keyClient crypto secrets.1).keyServer crypto secrets.2
  { session with keys := { session.keys with active := true } }

/-- What follows the loop over the client's flight.  Without a Finished message the call
returns 0 and the machine waits for another record. -/
def concludeClientFlight (host : Host) (surroundings : Surroundings) (flight : ClientFlight) :
    Except Session Answer :=
  let session := flight.session
  if ¬flight.finishedProcessed then .error session
  else if session.context.mtlsRequested ∧
      (¬flight.certVerified ∨ flight.clientCert.length = 0) then session.fail
  else
    .ok (generateNewSessionTicket host surroundings
      ((session.igniteServer host.crypto).enter .established))

/-- `process_handshake` in the state `EXPECT_FINISHED`. -/
def expectFinished : Except Session Answer :=
  let (memory, plaintextLen) := decryptRecord host.crypto record session
  let data := clientPlaintext host.crypto record session
  let session := { session with
    keys := { session.keys with clientSeq := session.keys.clientSeq + 1 } }
  if plaintextLen = 0 ∨ memory (plaintextLen - 1) ≠ 22 then session.fail
  else
    let (messages, truncated) := messagesOf data
    (readClientFlight host data messages ⟨session, .empty, false, false⟩).bind fun flight =>
      if truncated then flight.session.fail
      else concludeClientFlight host surroundings flight

end SlabFlux.Security.Handshake
