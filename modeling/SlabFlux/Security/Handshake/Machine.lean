import SlabFlux.Security.Handshake.Server

/-!
# The handshake machine

`process_handshake` in the state `ESTABLISHED`.  What the branch writes to the buffer is
never returned.

`process_handshake`, and runs of a session under an arbitrary sequence of calls.
-/

namespace SlabFlux.Security.Handshake

open Lib

/-- A big-endian number of four bytes. -/
def word32 (data : View) (index : Nat) : BitVec 32 :=
  BitVec.ofNat 32 (data.word24 index * 2 ^ 8 + (data.get (index + 3)).toNat)

/-- The ticket of a NewSessionTicket message, if the lengths in it are consistent. -/
def Message.sessionTicket (message : Message) (data : View) (tsc : BitVec 64) :
    Option SessionTicket :=
  let pos := message.start
  let messageEnd := pos + 4 + message.length
  let ticketIdx := pos + 13 + (data.get (pos + 12)).toNat
  let ticketLen := data.word16 ticketIdx
  if 12 ≤ message.length ∧ ticketIdx + 2 ≤ messageEnd ∧ ticketIdx + 2 + ticketLen ≤ messageEnd then
    some
      { lifetime := word32 data (pos + 4)
        ageAdd := word32 data (pos + 8)
        receivedTsc := tsc
        ticket := data.window (ticketIdx + 2) ticketLen }
  else none

/-- `rotate_keys` for what the peer writes. -/
def Session.rotatePeerKeys (session : Session) (crypto : Primitives) : Session :=
  if session.context.isServer then
    let secret := crypto.expandLabel session.context.clientTrafficSecret "traffic upd" [] 32
    let session := { session with
      context := { session.context with clientTrafficSecret := secret } }
    session.keyClient crypto secret
  else
    let secret := crypto.expandLabel session.context.serverTrafficSecret "traffic upd" [] 32
    let session := { session with
      context := { session.context with serverTrafficSecret := secret } }
    session.keyServer crypto secret

/-- Append the request context.  Its length has been read as a signed `char`, and the sum
that is compared with the capacity wraps. -/
def appendRequestContext (data : View) (start : Nat) (reqCtxLen : BitVec 64)
    (buffer : AppendBuffer) : AppendBuffer :=
  let stop := (BitVec.ofNat 64 buffer.offset + reqCtxLen).toNat
  if stop ≤ buffer.capacity then
    { buffer with
      memory := buffer.memory.copy buffer.offset data.memory start reqCtxLen.toNat
      offset := stop }
  else buffer

/-- The answer to a CertificateRequest message. -/
def Draft.answerCertificateRequest (draft : Draft) (host : Host) (data : View)
    (message : Message) (nonce : Vector (BitVec 8) 32) : Draft :=
  let reqCtxLen := (data.get (message.start + 4)).signExtend 64
  let draft : Draft := (draft.1, draft.2.updateTranscript (message.bytes data))
  let draft := draft.write [u8 0x17, u16 0x0303]
  let recLenIdx := draft.1.offset
  let draft := draft.write [u16 0]
  let cryptoStart := draft.1.offset
  let draft := draft.clientCertificate host nonce reqCtxLen
    (appendRequestContext data (message.start + 5) reqCtxLen)
  let (buffer, session) := (draft.clientFinished host.crypto).write [u8 0x16]
  let buffer := encryptSince buffer host.crypto.aes session.keys.clientWriteKey
    session.keys.clientWriteIv session.keys.clientSeq cryptoStart
  let session := { session with
    keys := { session.keys with clientSeq := session.keys.clientSeq + 1 } }
  (buffer.overwrite recLenIdx (u16 (lengthBetween 16 cryptoStart buffer.offset 0)), session)

/-- What the loop over the messages works on: the buffer, the session, the tickets that were
stored and how many nonces were drawn. -/
structure PostHandshake where
  draft : Draft
  stored : List SessionTicket
  drawn : Nat

/-- One turn of the loop. -/
def postHandshakeMessage (host : Host) (surroundings : Surroundings) (data : View)
    (state : PostHandshake) (message : Message) : PostHandshake :=
  if message.type = 0x04 then
    { state with
      stored := state.stored ++ (message.sessionTicket data surroundings.tsc).toList }
  else if message.type = 0x18 then
    if message.length = 1 then
      { state with draft := (state.draft.1, state.draft.2.rotatePeerKeys host.crypto) }
    else state
  else if message.type = 0x0D then
    if state.draft.2.context.isServer then state
    else
      { state with
        draft := state.draft.answerCertificateRequest host data message
          (surroundings.random state.drawn)
        drawn := state.drawn + 1 }
  else state

/-- `process_handshake` in the state `ESTABLISHED`. -/
def postHandshake (host : Host) (surroundings : Surroundings) (record : View)
    (session : Session) : Answer :=
  let state := (messagesOf record).1.foldl (postHandshakeMessage host surroundings record)
    ⟨(surroundings.buffer, session), [], 0⟩
  ⟨state.draft.2, [], state.stored⟩

/-! ## The machine -/

/-- What a branch leaves that may return early with 0. -/
def returned : Except Session Answer → Answer
  | .ok answer => answer
  | .error session => ⟨session, [], []⟩

/-- What holds of the session either way holds of what is left. -/
theorem returned_of_ensures {outcome : Except Session Answer} {property : Session → Prop}
    (ensured : Ensures outcome (fun answer => property answer.session) property) :
    property (returned outcome).session := by
  cases outcome with
  | ok answer => exact ensured
  | error session => exact ensured

/-- The branch that a state selects. -/
def handshakeBranch (host : Host) (surroundings : Surroundings) (record : View)
    (session : Session) : HandshakeState → Answer
  | .generateClientHello => generateClientHello host surroundings session
  | .established => postHandshake host surroundings record session
  | .expectServerHello =>
      returned ((expectServerHello host record session).map fun session => ⟨session, [], []⟩)
  | .expectServerFinished => returned (expectServerFinished host surroundings record session)
  | .expectClientHello => expectClientHello host surroundings record session
  | .expectFinished => returned (expectFinished host surroundings record session)
  | .failed => ⟨session, [], []⟩

/-- `process_handshake`.  The record is hashed before it is looked at, in every state. -/
def processHandshake (host : Host) (surroundings : Surroundings) (record : View)
    (session : Session) : Answer :=
  let session := session.updateTranscript record.bytes
  handshakeBranch host surroundings record session session.context.state

/-- A call: a record and what the call takes from its surroundings. -/
structure Call where
  record : View
  surroundings : Surroundings

/-- The session after a call. -/
def Session.step (host : Host) (session : Session) (call : Call) : Session :=
  (processHandshake host call.surroundings call.record session).session

/-- A session that has not taken part in anything. -/
def Session.fresh (keys : SessionKeys) (state : HandshakeState) (remoteIpv4 : BitVec 32) :
    Session :=
  ⟨keys, .fresh state remoteIpv4, []⟩

theorem processHandshake_of_state (host : Host) (surroundings : Surroundings) (record : View)
    {session : Session} {state : HandshakeState} (known : session.context.state = state) :
    processHandshake host surroundings record session = handshakeBranch host surroundings record
      (session.updateTranscript record.bytes) state := by
  rw [processHandshake, Session.state_updateTranscript, known]

theorem Session.step_of_state {host : Host} {session : Session} {call : Call}
    {state : HandshakeState} (known : session.context.state = state) :
    session.step host call = (handshakeBranch host call.surroundings call.record
      (session.updateTranscript call.record.bytes) state).session := by
  rw [step, processHandshake_of_state _ _ _ known]

end SlabFlux.Security.Handshake
