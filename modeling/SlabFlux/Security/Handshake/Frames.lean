import SlabFlux.Security.Handshake.Machine

/-!
# What the branches leave alone

The transcript of a session only grows, and the messages of a record lie one behind the
other inside it.
-/

namespace SlabFlux.Security.Handshake

open Lib
variable (session : Session) (draft : Draft) (host : Host)

/-- A later session in the same state: the transcript has grown, and the rest of what
authentication depends on is the same. -/
structure Session.Continues (before after : Session) : Prop where
  transcript : before.context.transcript <+: after.context.transcript
  history : after.history = before.history
  state : after.context.state = before.context.state
  isResumption : after.context.isResumption = before.context.isResumption
  remoteIpv4 : after.context.remoteIpv4 = before.context.remoteIpv4

namespace Session.Continues

variable {first second third : Session}

theorem refl : session.Continues session :=
  ⟨List.prefix_rfl, rfl, rfl, rfl, rfl⟩

theorem trans (left : first.Continues second) (right : second.Continues third) :
    first.Continues third where
  transcript := left.transcript.trans right.transcript
  history := right.history.trans left.history
  state := right.state.trans left.state
  isResumption := right.isResumption.trans left.isResumption
  remoteIpv4 := right.remoteIpv4.trans left.remoteIpv4

theorem updateTranscript (data : Bytes) :
    session.Continues (session.updateTranscript data) :=
  ⟨List.prefix_append _ _, rfl, rfl, rfl, rfl⟩

theorem rotatePeerKeys (crypto : Primitives) :
    session.Continues (session.rotatePeerKeys crypto) := by
  rw [Session.rotatePeerKeys]
  split_ifs <;> exact ⟨List.prefix_rfl, rfl, rfl, rfl, rfl⟩

theorem appendHashed (change : AppendBuffer → AppendBuffer) :
    draft.2.Continues (draft.appendHashed change).2 :=
  updateTranscript _ _

theorem clientCertificate (nonce : Vector (BitVec 8) 32) (reqCtxLen : BitVec 64)
    (appendContext : AppendBuffer → AppendBuffer) :
    draft.2.Continues (draft.clientCertificate host nonce reqCtxLen appendContext).2 :=
  (appendHashed draft _).trans (appendHashed _ _)

theorem clientFinished (crypto : Primitives) : draft.2.Continues (draft.clientFinished crypto).2 :=
  appendHashed draft _

theorem answerCertificateRequest (data : View) (message : Message) (nonce : Vector (BitVec 8) 32) :
    draft.2.Continues (draft.answerCertificateRequest host data message nonce).2 := by
  let hashed := draft.2.updateTranscript (message.bytes data)
  let header := (Draft.write (draft.1, hashed) [u8 0x17, u16 0x0303]).write [u16 0]
  let reqCtxLen := (data.get (message.start + 4)).signExtend 64
  let appendContext := appendRequestContext data (message.start + 5) reqCtxLen
  have signed : hashed.Continues (header.clientCertificate host nonce reqCtxLen appendContext).2 :=
    clientCertificate header host nonce reqCtxLen appendContext
  have finished := ((updateTranscript draft.2 (message.bytes data)).trans signed).trans
    (clientFinished _ host.crypto)
  exact ⟨finished.transcript, finished.history, finished.state, finished.isResumption,
    finished.remoteIpv4⟩

theorem postHandshakeMessage (surroundings : Surroundings) (data : View) (state : PostHandshake)
    (message : Message) :
    state.draft.2.Continues
      (postHandshakeMessage host surroundings data state message).draft.2 := by
  rw [Handshake.postHandshakeMessage]
  split_ifs
  · exact refl _
  · exact rotatePeerKeys _ _
  · exact refl _
  · exact refl _
  · exact answerCertificateRequest _ _ _ _ _
  · exact refl _

theorem postHandshake (surroundings : Surroundings) (record : View) (session : Session) :
    session.Continues (postHandshake host surroundings record session).session := by
  have turns : ∀ (messages : List Message) (state : PostHandshake), state.draft.2.Continues
        (messages.foldl (Handshake.postHandshakeMessage host surroundings record)
          state).draft.2 := by
    intro messages
    induction messages with
    | nil => exact fun state => refl _
    | cons message rest ih =>
        exact fun state =>
          (postHandshakeMessage host surroundings record state message).trans (ih _)
  exact turns _ ⟨(surroundings.buffer, session), [], 0⟩

end Session.Continues

/-! ## Messages of a record -/

/-- A message that the walk has found. -/
structure Message.Inside (message : Message) (data : View) : Prop where
  type : message.type = data.get message.start
  length : message.length = data.word24 (message.start + 1)
  fits : message.start + 4 + message.length ≤ data.length

theorem walkMessages_inside (data : View) (fuel pos : Nat) :
    ∀ message ∈ (walkMessages data fuel pos).1, message.Inside data ∧ pos ≤ message.start := by
  induction fuel generalizing pos with
  | zero => exact fun _ member => absurd member List.not_mem_nil
  | succ fuel ih =>
      intro message member
      rw [walkMessages] at member
      dsimp only at member
      split_ifs at member with room truncated
      · exact absurd member List.not_mem_nil
      · rcases List.mem_cons.mp member with rfl | later
        · exact ⟨⟨rfl, rfl, Nat.le_of_not_lt truncated⟩, Nat.le_refl _⟩
        · obtain ⟨inside, behind⟩ := ih _ message later
          exact ⟨inside, by omega⟩
      · exact absurd member List.not_mem_nil

theorem walkMessages_sorted (data : View) (fuel pos : Nat) :
    (walkMessages data fuel pos).1.Pairwise fun first second => first.start < second.start := by
  induction fuel generalizing pos with
  | zero => exact List.Pairwise.nil
  | succ fuel ih =>
      rw [walkMessages]
      dsimp only
      split_ifs with room truncated
      · exact List.Pairwise.nil
      · refine List.pairwise_cons.mpr ⟨fun message member => ?_, ih _⟩
        have behind := (walkMessages_inside data fuel _ message member).2
        change pos < message.start
        omega
      · exact List.Pairwise.nil

/-- The bytes of a message are a part of the record. -/
theorem Message.Inside.contained {message : Message} {data : View} (inside : message.Inside data) :
    message.bytes data <:+: data.bytes :=
  data.window_infix (by rw [← Nat.add_assoc]; exact inside.fits)

/-- A CertificateVerify message with a signature. -/
structure IsCertificateVerify (message signature : Bytes) : Prop where
  type : message.head? = some 0x0F
  signature : message.drop 8 = signature

theorem Message.signature_spec {message : Message} {data signature : View}
    (type : message.type = data.get message.start) (verify : message.type = 0x0F)
    (read : message.signature data = some signature) :
    IsCertificateVerify (message.bytes data) signature.bytes := by
  rw [Message.signature] at read
  dsimp only at read
  split_ifs at read with long consistent
  obtain rfl := Option.some.inj read
  have length : 4 + message.length = 8 + data.word16 (message.start + 6) := by omega
  constructor
  · rw [Message.bytes, View.window, Memory.bytes, length, Nat.add_comm 8, List.range_succ_eq_map]
    rw [← verify, type]
    rfl
  · rw [Message.bytes, length, View.window, Memory.bytes_add,
      List.drop_left' (Memory.length_bytes _ _ _)]
    exact Memory.bytes_congr fun index _ => by simp [View.slice]

/-! ## Fixed data -/

/-- Primitives that give the same for everything, and a check that accepts every signature. -/
def constantPrimitives : Primitives where
  hash _ := zeros
  hmac _ _ := zeros
  extract _ _ := zeros
  expandLabel _ _ _ length := .replicate length 0
  scalarmult _ _ := zeros
  sign _ _ _ := (zeros, zeros)
  verify _ _ _ := true
  aes := ⟨fun _ _ => 0, fun _ _ => 0, fun _ _ => 0⟩

/-- A host with these primitives, no policy and no whitelist. -/
def constantHost : Host where
  crypto := constantPrimitives
  serverCertificate := []
  clientCertificate := []
  policy := .initial
  whitelist := ⟨fun _ => ⟨fun _ => 0, 0⟩, 0⟩

/-- A call without tickets. -/
def callWith (record : View) : Call :=
  ⟨record, ⟨fun _ => zeros, fun _ => none, 0, fun _ => 0, 4096⟩⟩

/-- Keys that nothing has been written to. -/
def blankKeys : SessionKeys :=
  ⟨fun _ => 0, fun _ => 0, .replicate 12 0, .replicate 12 0, 0, 0, false⟩

/-- A hello message with a key share and the extensions given.  It reads the same as a
ClientHello and as a ServerHello. -/
def helloMessage (type : BitVec 8) (extensions : Bytes) : View :=
  .ofList ([type, 0x00, 0x00, BitVec.ofNat 8 (82 + extensions.length), 0x03, 0x03] ++
    List.replicate 32 0 ++
    [0x00, 0x00, 0x00, 0x00, 0x00, BitVec.ofNat 8 (42 + extensions.length),
      0x00, 0x33, 0x00, 0x26, 0x00, 0x24, 0x00, 0x1D, 0x00, 0x20] ++
    List.replicate 32 9 ++ extensions)

/-- A certificate with a public key of one byte. -/
def tinyCertificate : Bytes :=
  [0x30, 0x15, 0x30, 0x13, 0x02, 0x01, 0x00, 0x30, 0x00, 0x30, 0x00, 0x30, 0x00, 0x30, 0x00,
    0x30, 0x06, 0x30, 0x00, 0x03, 0x02, 0x00, 0xAA]

/-- A Certificate message and a CertificateVerify message. -/
def certificateMessages : Bytes :=
  [0x0B, 0x00, 0x00, 0x20, 0x00, 0x00, 0x00, 0x1C, 0x00, 0x00, 0x17] ++ tinyCertificate ++
    [0x00, 0x00, 0x0F, 0x00, 0x00, 0x05, 0x04, 0x03, 0x00, 0x01, 0xAA]

/-- A Finished message. -/
def finishedMessage (verifyData : Vector (BitVec 8) 32) : Bytes :=
  [0x14, 0x00, 0x00, 0x20] ++ verifyData.toList

end SlabFlux.Security.Handshake
