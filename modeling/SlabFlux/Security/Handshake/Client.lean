import SlabFlux.Security.Handshake.Context

/-!
# The client's branches of the handshake machine

`process_handshake` in the states `GENERATE_CLIENT_HELLO`, `EXPECT_SERVER_HELLO` and
`EXPECT_SERVER_FINISHED`.
-/

namespace SlabFlux.Security.Handshake

open Lib
variable (session : Session) (crypto : Primitives) (ticket : SessionTicket) (host : Host)
  (surroundings : Surroundings)

/-! ## The ClientHello -/

/-- A ClientHello under construction and the places of its length fields. -/
structure HelloLayout where
  buffer : AppendBuffer
  recLenIdx : Nat
  msgStart : Nat
  msgLenIdx : Nat
  extLenIdx : Nat

/-- The extensions that every ClientHello has: the server name, the versions, the groups
and the key share. -/
def helloExtensions (publicKeyShare : Vector (BitVec 8) 32) : List Bytes :=
  let sni := text "api.exchange.local"
  [u16 0x0000, u16 (BitVec.ofNat 16 (sni.length + 5)), u16 (BitVec.ofNat 16 (sni.length + 3)),
    u8 0x00, u16 (BitVec.ofNat 16 sni.length), sni,
    u16 0x002B, u16 0x0003, u8 0x02, u16 0x0304,
    u16 0x000A, u16 0x0004, u16 0x0002, u16 0x001D,
    u16 0x0033, u16 0x0026, u16 0x0024, u16 0x001D, u16 0x0020, publicKeyShare.toList]

/-- The ClientHello up to the key share. -/
def helloLayout (publicKeyShare : Vector (BitVec 8) 32) : HelloLayout :=
  let buffer := surroundings.buffer.appendAll [u8 0x16, u16 0x0301]
  let recLenIdx := buffer.offset
  let buffer := buffer.appendAll [u16 0]
  let msgStart := buffer.offset
  let buffer := buffer.appendAll [u8 0x01]
  let msgLenIdx := buffer.offset
  let buffer := buffer.appendAll
    [u24 0, u16 0x0303, (surroundings.random 1).toList, u8 0x20,
      (surroundings.random 2).toList, u16 0x0002, u16 0x1301, u8 0x01, u8 0x00]
  let extLenIdx := buffer.offset
  let buffer := buffer.appendAll (u16 0 :: helloExtensions publicKeyShare)
  ⟨buffer, recLenIdx, msgStart, msgLenIdx, extLenIdx⟩

/-- Fill in the lengths, with room for bytes that are still to come. -/
def HelloLayout.backfill (layout : HelloLayout) (reserved : Nat) : AppendBuffer :=
  let stop := layout.buffer.offset + reserved
  ((layout.buffer.overwrite layout.extLenIdx
    (u16 (lengthBetween 16 layout.extLenIdx stop 2))).overwrite layout.msgLenIdx
      (u24 (lengthBetween 32 layout.msgStart stop 4))).overwrite layout.recLenIdx
        (u16 (lengthBetween 16 layout.recLenIdx stop 2))

/-- The SHA-256 hash of the empty string. -/
def emptyHash : Bytes :=
  [0xe3, 0xb0, 0xc4, 0x42, 0x98, 0xfc, 0x1c, 0x14, 0x9a, 0xfb, 0xf4, 0xc8, 0x99, 0x6f, 0xb9, 0x24,
    0x27, 0xae, 0x41, 0xe4, 0x64, 0x9b, 0x93, 0x4c, 0xa4, 0x95, 0x99, 0x1b, 0x78, 0x52, 0xb8, 0x55]

/-- The early data extension and the pre-shared key extension up to the binder. -/
def pskFields (tsc : BitVec 64) : List Bytes :=
  let ticketLen := BitVec.ofNat 16 ticket.ticket.length
  let identityListLen := ticketLen + 6
  let elapsedMs : BitVec 32 := ((tsc - ticket.receivedTsc) / 3000000).setWidth 32
  let age := elapsedMs + ticket.ageAdd
  [u16 0x002A, u16 0x0000, u16 0x0029, u16 (2 + identityListLen + 2 + 33),
    u16 identityListLen, u16 ticketLen, ticket.ticket, u24 (age >>> 8), u8 (age.setWidth 8),
    u16 33, u8 32]

/-- The early secret of a ticket. -/
def Primitives.earlySecret : Vector (BitVec 8) 32 :=
  crypto.extract zeros.toList ticket.ticket

/-- The ClientHello with a pre-shared key: the lengths are filled in, the hash of what there
is so far is taken, and the binder follows. -/
def HelloLayout.withPsk (layout : HelloLayout) (crypto : Primitives) (ticket : SessionTicket)
    (tsc : BitVec 64) (session : Session) : AppendBuffer :=
  let layout := { layout with buffer := layout.buffer.appendAll (pskFields ticket tsc) }
  let buffer := layout.backfill 32
  let truncatedHash := crypto.hash
    (session.context.transcript ++ buffer.window layout.msgStart (buffer.offset - layout.msgStart))
  let binderKey := crypto.expandLabel (crypto.earlySecret ticket) "res binder" emptyHash 32
  buffer.append (crypto.verifyData binderKey truncatedHash).toList

/-- `total_ch_msg_len`: the length of the message is read back from the buffer, whose
elements are of the signed type `char`.  Of the 159 bytes of a ClientHello without a ticket
`0xFFFFFF9F` is read back, and the call of `update_transcript` reads 4 GiB from the buffer.  The
memory of the model is total and hides this access. -/
def readBackLength (buffer : AppendBuffer) (index : Nat) : BitVec 32 :=
  let char (index : Nat) : BitVec 32 := (buffer.memory index).signExtend 32
  (char index <<< 16) ||| (char (index + 1) <<< 8) ||| char (index + 2)

/-- Derive the client's keys for early data. -/
def Session.startEarlyData : Session :=
  let secret := crypto.expandLabel (crypto.earlySecret ticket) "c e traffic"
    (session.transcriptHash crypto).toList 32
  let session := session.keyClient crypto secret
  { session with keys := { session.keys with active := true } }

/-- `process_handshake` in the state `GENERATE_CLIENT_HELLO`. -/
def generateClientHello (session : Session) : Answer :=
  let crypto := host.crypto
  let privateKey := clamp (surroundings.random 0)
  let session := { session with
    context := { session.context with isServer := false, ephemeralPrivKey := privateKey } }
  let layout := helloLayout surroundings (crypto.scalarmultBase privateKey)
  let ticket := surroundings.ticketFor session.context.remoteIpv4
  let buffer :=
    match ticket with
    | some ticket => layout.withPsk crypto ticket surroundings.tsc session
    | none => layout.backfill 0
  let session := session.updateTranscript
    (buffer.window layout.msgStart (readBackLength buffer layout.msgLenIdx + 4).toNat)
  let session :=
    match ticket with
    | some ticket => (session.startEarlyData crypto ticket).note .offered
    | none => session
  ⟨session.enter .expectServerHello, buffer.window 0 buffer.offset, []⟩

/-! ## The ServerHello -/

/-- Derive the handshake traffic secrets of both sides. -/
def Session.deriveHandshakeSecrets (salt sharedSecret : Vector (BitVec 8) 32) : Session :=
  let handshakeSecret := crypto.extract salt.toList sharedSecret.toList
  let hash := (session.transcriptHash crypto).toList
  { session with context :=
    { session.context with
      handshakeSecret := handshakeSecret
      clientTrafficSecret := crypto.expandLabel handshakeSecret "c hs traffic" hash 32
      serverTrafficSecret := crypto.expandLabel handshakeSecret "s hs traffic" hash 32 } }

/-- `process_handshake` in the state `EXPECT_SERVER_HELLO`. -/
def expectServerHello (record : View) (session : Session) : Except Session Session :=
  let crypto := host.crypto
  let serverPubKey := extractKeyShare record
  if serverPubKey.length = 0 then session.fail
  else
    let session := { session with
      context := { session.context with isResumption := hasExtension record 0x0029 } }
    let sharedSecret :=
      crypto.scalarmult session.context.ephemeralPrivKey (blockAt serverPubKey 0)
    let session := session.deriveHandshakeSecrets crypto zeros sharedSecret
    let session := session.keyServer crypto session.context.serverTrafficSecret
    .ok ((session.updateTranscript record.bytes).enter .expectServerFinished)

/-! ## The server's flight -/

/-- What the loop over the server's flight collects. -/
structure ServerFlight where
  certVerifyStart : Nat
  certVerifySig : View
  serverCert : View

/-- The loop over the server's flight, up to the Finished message: where that starts and
what came before it.  Whether the record ends too early or has no Finished message, the
handshake fails. -/
def readServerFlight (data : View) :
    List Message → ServerFlight → Session → Except Session (Nat × ServerFlight × Session)
  | [], _, session => session.fail
  | message :: rest, flight, session =>
      if message.type = 0x0D then
        let session := { session with context := { session.context with mtlsRequested := true } }
        readServerFlight data rest flight (session.updateTranscript (message.bytes data))
      else if message.type = 0x0B then
        let cert := (message.certificate data).getD flight.serverCert
        readServerFlight data rest { flight with serverCert := cert } session
      else if message.type = 0x0F then
        let sig := (message.signature data).getD flight.certVerifySig
        readServerFlight data rest
          { flight with certVerifyStart := message.start, certVerifySig := sig } session
      else if message.type = 0x14 then .ok (message.start, flight, session)
      else readServerFlight data rest flight session

/-- The check of the server's signature, which a resumption skips. -/
def verifyServer (data : View) (flight : ServerFlight) (session : Session) :
    Except Session Session :=
  if session.context.isResumption then .ok session
  else if flight.certVerifyStart = 0 ∨ flight.certVerifySig.length = 0 ∨
      flight.serverCert.length = 0 then session.fail
  else
    let serverPubKey := extractSpki flight.serverCert
    if serverPubKey.length = 0 then session.fail
    else
      let transcript := session.context.transcript ++ data.window 0 flight.certVerifyStart
      let payload := certificateVerifyPayload .server (crypto.hash transcript)
      if crypto.verify serverPubKey.bytes flight.certVerifySig.bytes payload then
        .ok (session.note (.verified ⟨flight.serverCert, flight.certVerifySig, transcript⟩))
      else session.fail

/-- The check of the server's Finished message.  The 32 bytes behind its header are read
whatever its length is. -/
def checkServerFinished (data : View) (finishedStart : Nat) (session : Session) :
    Except Session Session :=
  let session := session.updateTranscript (data.window 0 finishedStart)
  let expected :=
    crypto.verifyData session.context.serverTrafficSecret (session.transcriptHash crypto)
  if expected = blockAt data (finishedStart + 4) then
    .ok (session.updateTranscript (data.window finishedStart (4 + 32)))
  else session.fail

/-- The client's Certificate and CertificateVerify messages. -/
def Draft.clientCertificate (draft : Draft) (host : Host) (nonce : Vector (BitVec 8) 32)
    (reqCtxLen : BitVec 64) (appendContext : AppendBuffer → AppendBuffer) : Draft :=
  let certificate := host.clientCertificate
  let draft := draft.appendHashed fun buffer =>
    (appendContext (buffer.appendAll (certificateHead reqCtxLen certificate))).appendAll
      (certificateTail certificate)
  let payload := certificateVerifyPayload .client (draft.2.transcriptHash host.crypto)
  let signature := host.crypto.sign nonce zeros payload
  draft.appendHashed (·.appendAll (signatureFields signature.1 signature.2))

/-- The client's Finished message. -/
def Draft.clientFinished (draft : Draft) (crypto : Primitives) : Draft :=
  let verifyData := crypto.verifyData draft.2.context.clientTrafficSecret
    (draft.2.transcriptHash crypto)
  draft.appendHashed (·.appendAll [u8 0x14, u24 32, verifyData.toList])

/-- The application traffic secrets of the client and the server. -/
def Primitives.applicationSecrets (handshakeSecret finHash : Vector (BitVec 8) 32) :
    Vector (BitVec 8) 32 × Vector (BitVec 8) 32 :=
  let masterSecret := crypto.extract handshakeSecret.toList zeros.toList
  (crypto.expandLabel masterSecret "c ap traffic" finHash.toList 32,
    crypto.expandLabel masterSecret "s ap traffic" finHash.toList 32)

/-- Switch to the application keys. -/
def Session.igniteClient (finHash : Vector (BitVec 8) 32) : Session :=
  let secrets := crypto.applicationSecrets session.context.handshakeSecret finHash
  let session := { session with context :=
    { session.context with
      clientTrafficSecret := secrets.1
      serverTrafficSecret := secrets.2 } }
  let session := (session.keyServer crypto secrets.2).keyClient crypto secrets.1
  { session with keys := { session.keys with active := true } }

/-- The client's answer to the server's flight. -/
def answerServer (session : Session) : Answer :=
  let crypto := host.crypto
  let draft : Draft := (surroundings.buffer, session)
  let draft :=
    if session.context.mtlsRequested then
      draft.clientCertificate host (surroundings.random 0) 0 id
    else draft
  let finHash := draft.2.transcriptHash crypto
  let cryptoStart := draft.1.offset
  let (buffer, session) := draft.clientFinished crypto
  let session := session.keyClient crypto session.context.clientTrafficSecret
  let buffer := encryptSince (buffer.append (u8 0x16)) crypto.aes session.keys.clientWriteKey
    session.keys.clientWriteIv session.keys.clientSeq cryptoStart
  ⟨(session.igniteClient crypto finHash).enter .established, buffer.window 0 buffer.offset, []⟩

/-- `process_handshake` in the state `EXPECT_SERVER_FINISHED`. -/
def expectServerFinished (record : View) (session : Session) : Except Session Answer :=
  (readServerFlight record (messagesOf record).1 ⟨0, .empty, .empty⟩ session).bind
    fun (finishedStart, flight, session) =>
      if finishedStart = 0 then session.fail
      else
        (verifyServer host.crypto record flight session).bind fun session =>
          (checkServerFinished host.crypto record finishedStart session).map
            (answerServer host surroundings)

end SlabFlux.Security.Handshake
