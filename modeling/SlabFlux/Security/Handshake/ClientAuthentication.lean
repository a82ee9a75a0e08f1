import SlabFlux.Security.Handshake.Frames

/-!
# Client authentication

A server that requires a certificate of its client is established only behind a signature
of the client, unless it resumes a session or the record with the Finished message has a
CertificateVerify message behind it: what the loop over the messages has found is looked at
only after the loop.
-/

namespace SlabFlux.Security.Handshake

open Lib Session
variable {session : Session} {host : Host}

/-- A signature that was accepted for a transcript: the certificate's key is authorized, and
the signature came in a CertificateVerify message right behind what it was checked
against. -/
structure ClientSigned (host : Host) (transcript : Bytes) (verification : Verification) : Prop where
  certificate : verification.certificate.length ≠ 0
  authorized : host.whitelist.isAuthorized (extractSpki verification.certificate) = true
  accepted : host.crypto.verify (extractSpki verification.certificate).bytes
    verification.signature.bytes
    (certificateVerifyPayload .client (host.crypto.hash verification.transcript)) = true
  current : ∃ message, IsCertificateVerify message verification.signature.bytes ∧
    verification.transcript ++ message <+: transcript

theorem ClientSigned.mono {transcript transcript' : Bytes} {verification : Verification}
    (signed : ClientSigned host transcript verification) (longer : transcript <+: transcript') :
    ClientSigned host transcript' verification := by
  obtain ⟨message, verifies, part⟩ := signed.current
  exact ⟨signed.certificate, signed.authorized, signed.accepted, message, verifies,
    part.trans longer⟩

/-- A signature of the client has been accepted before any of its Finished messages. -/
def SignedFirst (host : Host) (session : Session) : Prop :=
  ∃ verification before after, session.history = before ++ Event.verified verification :: after ∧
      Event.finished ∉ before ∧ ClientSigned host session.context.transcript verification

/-- A server is established only by a Finished message that came behind a signature of the
client. -/
def ClientAuthenticated (host : Host) (session : Session) : Prop :=
  session.context.state = .established → ∃ verification before after,
    session.history = before ++ Event.verified verification :: after ∧
      Event.finished ∉ before ∧ Event.finished ∈ after ∧
      ClientSigned host session.context.transcript verification

/-- No CertificateVerify message follows a Finished message. -/
abbrev FinishedLast (messages : List Message) : Prop :=
  messages.Pairwise fun first second => ¬(first.type = 0x14 ∧ second.type = 0x0F)

/-- The ClientHello is not answered with a resumption, and no record has a CertificateVerify
message behind a Finished message. -/
def SignsBeforeFinished (host : Host) (session : Session) (call : Call) : Prop :=
  (session.context.state = .expectClientHello →
    resumedTicket call.surroundings call.record session = none) ∧
  (session.context.state = .expectFinished →
    FinishedLast (messagesOf (clientPlaintext host.crypto call.record session)).1)

/-! ## The ClientHello -/

theorem serverCertificate_history (draft : Draft) (host : Host) (nonce : Vector (BitVec 8) 32)
    (shOffset : Nat) :
    (draft.serverCertificate host nonce shOffset).2.history = draft.2.history := by
  rw [Draft.serverCertificate]
  split_ifs <;> rfl

theorem serverCertificate_requested (draft : Draft) (host : Host)
    (nonce : Vector (BitVec 8) 32) (shOffset : Nat)
    (full : draft.2.context.isResumption = false)
    (required : host.policy.requiresMtls draft.2.context.remoteIpv4 = true) :
    (draft.serverCertificate host nonce shOffset).2.context.mtlsRequested = true := by
  rw [Draft.serverCertificate, if_neg (by rw [full]; exact Bool.false_ne_true), if_pos required]
  rfl

theorem agree_session (session : Session) (crypto : Primitives)
    (earlySecret privateKey : Vector (BitVec 8) 32) (clientPubKey : View) :
    (session.agree crypto earlySecret privateKey clientPubKey).context.isResumption =
        session.context.isResumption ∧
      (session.agree crypto earlySecret privateKey clientPubKey).context.remoteIpv4 =
        session.context.remoteIpv4 ∧
      (session.agree crypto earlySecret privateKey clientPubKey).history = session.history := by
  rw [agree]
  split_ifs <;> exact ⟨rfl, rfl, rfl⟩

/-- Without a resumption the server asks for a certificate where the policy requires one. -/
theorem expectClientHello_requested (host : Host) (surroundings : Surroundings) (record : View)
    (session : Session) (unresumed : resumedTicket surroundings record session = none)
    (full : session.context.isResumption = false)
    (required : host.policy.requiresMtls session.context.remoteIpv4 = true) :
    (expectClientHello host surroundings record session).session.context.mtlsRequested = true := by
  obtain ⟨resumption, address, -⟩ := agree_session session host.crypto
    (host.crypto.extract zeros.toList zeros.toList) (clamp (surroundings.random 0))
    (extractKeyShare record)
  simp only [expectClientHello, unresumed, resume]
  exact serverCertificate_requested _ _ _ _ (resumption.trans full)
    ((congrArg host.policy.requiresMtls address).trans required)

theorem expectClientHello_history (host : Host) (surroundings : Surroundings) (record : View)
    (session : Session) :
    (expectClientHello host surroundings record session).session.history = session.history := by
  have resumed (ticket : Option SessionTicket) :
      (session.resume host.crypto ticket).1.history = session.history := by
    cases ticket <;> rfl
  exact (serverCertificate_history _ _ _ _).trans
    ((agree_session _ _ _ _ _).2.2.trans (resumed _))

/-! ## The client's flight -/

/-- What holds while the loop goes over the client's flight. -/
structure ClientFlight.Sound (host : Host) (flight : ClientFlight) : Prop where
  state : flight.session.context.state = .expectFinished
  requested : flight.session.context.mtlsRequested = true
  finished : flight.finishedProcessed = true ↔ Event.finished ∈ flight.session.history
  verified : flight.certVerified = true → SignedFirst host flight.session

theorem SignedFirst.note (signed : SignedFirst host session) (event : Event) (data : Bytes) :
    SignedFirst host ((session.note event).updateTranscript data) := by
  obtain ⟨verification, before, after, history, unfinished, accepted⟩ := signed
  refine ⟨verification, before, after ++ [event], ?_, unfinished,
    accepted.mono (List.prefix_append _ _)⟩
  change session.history ++ [event] = _
  rw [history, List.append_assoc, List.cons_append]

theorem SignedFirst.updateTranscript (signed : SignedFirst host session) (data : Bytes) :
    SignedFirst host (session.updateTranscript data) := by
  obtain ⟨verification, before, after, history, unfinished, accepted⟩ := signed
  exact ⟨verification, before, after, history, unfinished, accepted.mono (List.prefix_append _ _)⟩

theorem verifyClient_ensures (host : Host) (data : View) (message : Message)
    (flight : ClientFlight) (inside : message.Inside data) (verify : message.type = 0x0F)
    (sound : flight.Sound host) (unfinished : flight.finishedProcessed = false) :
    Ensures (verifyClient host data message flight)
      (fun after => after.Sound host ∧ after.finishedProcessed = false)
      fun early => early.context.state = .failed := by
  have none : Event.finished ∉ flight.session.history := by
    rw [← sound.finished, unfinished]
    exact Bool.false_ne_true
  rw [verifyClient]
  dsimp only
  split_ifs with rejected accepted
  · exact rfl
  · simp only [not_or, not_not] at rejected
    obtain ⟨certificate, signature, key, authorized⟩ := rejected
    cases read : message.signature data with
    | none =>
        rw [read] at signature
        exact absurd rfl signature
    | some found =>
        rw [read] at accepted
        have current := Message.signature_spec inside.type verify read
        refine ⟨⟨sound.state, sound.requested, ?_, fun _ => ?_⟩, unfinished⟩
        · change flight.finishedProcessed = true ↔ Event.finished ∈ flight.session.history ++ [_]
          rw [sound.finished]
          simp
        · exact ⟨_, flight.session.history, [], rfl, none, certificate, authorized, accepted,
            message.bytes data, current, List.prefix_rfl⟩
  · exact rfl

theorem checkClientFinished_ensures (host : Host) (data : View) (message : Message)
    (flight : ClientFlight) (sound : flight.Sound host) :
    Ensures (checkClientFinished host.crypto data message flight)
      (fun after => after.Sound host) fun early => early.context.state = .failed := by
  rw [checkClientFinished]
  split_ifs
  · refine ⟨sound.state, sound.requested, ?_, fun verified => (sound.verified verified).note _ _⟩
    change true = true ↔ Event.finished ∈ flight.session.history ++ [Event.finished]
    simp
  · exact rfl

theorem clientMessage_ensures (host : Host) (data : View) (message : Message)
    (flight : ClientFlight) (inside : message.Inside data) (sound : flight.Sound host)
    (unfinished : message.type = 0x0F → flight.finishedProcessed = false) :
    Ensures (clientMessage host data message flight)
      (fun after => after.Sound host ∧ (after.finishedProcessed = true →
        flight.finishedProcessed = true ∨ message.type = 0x14))
      fun early => early.context.state = .failed := by
  rw [clientMessage]
  split_ifs with endOfEarlyData malformed certificate verify finished
  · exact rfl
  · exact ⟨⟨sound.state, sound.requested, sound.finished,
      fun verified => (sound.verified verified).updateTranscript _⟩, Or.inl⟩
  · exact ⟨⟨sound.state, sound.requested, sound.finished,
      fun verified => (sound.verified verified).updateTranscript _⟩, Or.inl⟩
  · refine (verifyClient_ensures host data message flight inside verify sound
      (unfinished verify)).mono (fun after spec => ⟨spec.1, fun finished => ?_⟩) fun _ => id
    rw [spec.2] at finished
    exact absurd finished Bool.false_ne_true
  · exact (checkClientFinished_ensures host data message flight sound).mono
      (fun after spec => ⟨spec, fun _ => Or.inr finished⟩) fun _ failed => failed
  · exact ⟨sound, Or.inl⟩

theorem readClientFlight_ensures (host : Host) (data : View) (messages : List Message)
    (flight : ClientFlight) (inside : ∀ message ∈ messages, message.Inside data)
    (last : FinishedLast messages) (sound : flight.Sound host)
    (unfinished : flight.finishedProcessed = true → ∀ message ∈ messages, message.type ≠ 0x0F) :
    Ensures (readClientFlight host data messages flight) (fun after => after.Sound host)
      fun early => early.context.state = .failed := by
  induction messages generalizing flight with
  | nil => exact sound
  | cons message rest ih =>
      obtain ⟨first, last'⟩ := List.pairwise_cons.mp last
      refine (clientMessage_ensures host data message flight (inside message List.mem_cons_self)
        sound fun verify => ?_).bind fun after spec => ?_
      · by_contra finished
        exact unfinished (Bool.eq_true_of_not_eq_false finished) message List.mem_cons_self verify
      · refine ih after (fun later member => inside later (List.mem_cons_of_mem _ member)) last'
          spec.1 fun finished later member => ?_
        rcases spec.2 finished with earlier | here
        · exact unfinished earlier later (List.mem_cons_of_mem _ member)
        · exact fun verify => first later member ⟨here, verify⟩

theorem concludeClientFlight_ensures (host : Host) (surroundings : Surroundings)
    (flight : ClientFlight) (sound : flight.Sound host) :
    Ensures (concludeClientFlight host surroundings flight)
      (fun answer => ClientAuthenticated host answer.session ∧
        answer.session.context.state = .established)
      fun early => early.context.state = .failed ∨
        early.context.state = .expectFinished ∧ early.context.mtlsRequested = true ∧
          Event.finished ∉ early.history := by
  rw [concludeClientFlight]
  split_ifs with finished missing
  · exact Or.inl rfl
  · simp only [sound.requested, true_and, not_or, not_not] at missing
    obtain ⟨verification, before, after, history, first, signed⟩ := sound.verified missing.1
    refine ⟨fun _ => ⟨verification, before, after, history, first, ?_, signed⟩, rfl⟩
    have member := sound.finished.mp finished
    rw [history, List.mem_append, List.mem_cons] at member
    rcases member with early | same | late
    · exact absurd early first
    · exact absurd same nofun
    · exact late
  · exact Or.inr ⟨sound.state, sound.requested, fun member =>
      finished (sound.finished.mpr member)⟩

theorem expectFinished_ensures (host : Host) (surroundings : Surroundings) (record : View)
    (session : Session) (state : session.context.state = .expectFinished)
    (requested : session.context.mtlsRequested = true)
    (unfinished : Event.finished ∉ session.history)
    (last : FinishedLast (messagesOf (clientPlaintext host.crypto record session)).1) :
    Ensures (expectFinished host surroundings record session)
      (fun answer => ClientAuthenticated host answer.session ∧
        answer.session.context.state = .established)
      fun early => early.context.state = .failed ∨
        early.context.state = .expectFinished ∧ early.context.mtlsRequested = true ∧
          Event.finished ∉ early.history := by
  rw [expectFinished]
  dsimp only
  by_cases undecrypted : (decryptRecord host.crypto record session).2 = 0 ∨
      (decryptRecord host.crypto record session).1
        ((decryptRecord host.crypto record session).2 - 1) ≠ 22
  · rw [if_pos undecrypted]
    exact Or.inl rfl
  · rw [if_neg undecrypted]
    refine ((readClientFlight_ensures host _ _ _
      (fun message member => (walkMessages_inside _ _ _ message member).1) last
      ⟨state, requested, iff_of_false Bool.false_ne_true unfinished,
        fun verified => absurd verified Bool.false_ne_true⟩
      fun finished => absurd finished Bool.false_ne_true).mono (fun _ sound => sound)
        fun _ failed => Or.inl failed).bind fun flight sound => ?_
    split_ifs
    · exact Or.inl rfl
    · exact concludeClientFlight_ensures host surroundings flight sound

/-! ## Runs of a server -/

variable {clientIp : BitVec 32}

/-- What holds of a server between calls. -/
structure ServerInvariant (host : Host) (clientIp : BitVec 32) (session : Session) : Prop where
  server : session.context.state = .expectClientHello ∨
    session.context.state = .expectFinished ∨ session.context.state = .established ∨
    session.context.state = .failed
  fresh : session.context.state = .expectClientHello →
    session.context.isResumption = false ∧ session.context.remoteIpv4 = clientIp ∧
      session.history = []
  requested : session.context.state = .expectFinished →
    session.context.mtlsRequested = true ∧ Event.finished ∉ session.history
  authenticated : ClientAuthenticated host session

theorem ServerInvariant.of_failed (failed : session.context.state = .failed) :
    ServerInvariant host clientIp session := by
  constructor <;> simp [failed, ClientAuthenticated]

theorem ServerInvariant.of_expectFinished (state : session.context.state = .expectFinished)
    (requested : session.context.mtlsRequested = true)
    (unfinished : Event.finished ∉ session.history) : ServerInvariant host clientIp session := by
  constructor <;> simp [state, requested, unfinished, ClientAuthenticated]

theorem ServerInvariant.of_established (state : session.context.state = .established)
    (authenticated : ClientAuthenticated host session) :
    ServerInvariant host clientIp session := by
  refine ⟨Or.inr (Or.inr (Or.inl state)), ?_, ?_, authenticated⟩ <;> simp [state]

theorem step_serverInvariant (host : Host) (clientIp : BitVec 32)
    (required : host.policy.requiresMtls clientIp = true) (session : Session) (call : Call)
    (invariant : ServerInvariant host clientIp session)
    (guarded : SignsBeforeFinished host session call) :
    ServerInvariant host clientIp (session.step host call) := by
  rcases invariant.server with state | state | state | state
  · obtain ⟨full, address, history⟩ := invariant.fresh state
    rw [step_of_state state, handshakeBranch]
    have requested := expectClientHello_requested host call.surroundings
      call.record (session.updateTranscript call.record.bytes) (guarded.1 state) full
      ((congrArg host.policy.requiresMtls address).trans required)
    refine .of_expectFinished rfl requested ?_
    rw [expectClientHello_history]
    change Event.finished ∉ session.history
    rw [history]
    exact List.not_mem_nil
  · obtain ⟨requested, unfinished⟩ := invariant.requested state
    rw [step_of_state state, handshakeBranch]
    refine returned_of_ensures ((expectFinished_ensures host call.surroundings call.record
      (session.updateTranscript call.record.bytes) state requested unfinished
      (guarded.2 state)).mono (fun answer spec => .of_established spec.2 spec.1) ?_)
    rintro early (failed | ⟨waiting, still, unfinished⟩)
    · exact .of_failed failed
    · exact .of_expectFinished waiting still unfinished
  · rw [step_of_state state, handshakeBranch]
    have continued := (Continues.updateTranscript session call.record.bytes).trans
      (Continues.postHandshake host call.surroundings call.record _)
    refine .of_established (continued.state.trans state) fun _ => ?_
    obtain ⟨verification, before, after, history, first, finished, signed⟩ :=
      invariant.authenticated state
    exact ⟨verification, before, after, continued.history.trans history, first, finished,
      signed.mono continued.transcript⟩
  · rw [step_of_state state, handshakeBranch]
    exact .of_failed state

/-- In every run in which the server does not resume a session and no CertificateVerify
message follows a Finished message in a record, a server that must authenticate its client
is established only behind an authorized signature. -/
theorem client_authenticated (host : Host) (keys : SessionKeys) (clientIp : BitVec 32)
    (required : host.policy.requiresMtls clientIp = true) (calls : List Call)
    (admissible : Admissible (step host) (SignsBeforeFinished host)
      (.fresh keys .expectClientHello clientIp) calls) :
    ClientAuthenticated host
      (execute (step host) (.fresh keys .expectClientHello clientIp) calls) := by
  have initially : ServerInvariant host clientIp (.fresh keys .expectClientHello clientIp) :=
    ⟨Or.inl rfl, fun _ => ⟨rfl, rfl, rfl⟩, nofun, nofun⟩
  exact (execute_invariant_of_admissible (step_serverInvariant host clientIp required)
    initially admissible).authenticated

/-! ## Runs on fixed records -/

instance (host : Host) (session : Session) (call : Call) :
    Decidable (SignsBeforeFinished host session call) :=
  have (ticket : Option SessionTicket) : Decidable (ticket = none) :=
    decidable_of_iff _ Option.isNone_iff_eq_none
  inferInstanceAs (Decidable ((_ → _) ∧ (_ → _)))

/-- A host that requires certificates of the clients in 10.50.0.0/16 and has authorized the
key of `tinyCertificate`. -/
def strictHost : Host :=
  { constantHost with
    policy := .ofSubnets [(0x0A320000, 0xFFFF0000)]
    whitelist := constantHost.whitelist.authorize (.ofList [0xAA]) }

/-- A record of the client under `constantPrimitives`. -/
def clientRecord (messages : Bytes) : View :=
  .ofList (messages ++ [22] ++ List.replicate 16 0)

/-- A client of such a subnet that signs and finishes. -/
theorem client_authenticated_signed :
    let start := fresh blankKeys .expectClientHello 0x0A320001
    let calls := [callWith (helloMessage 0x01 []),
      callWith (clientRecord (certificateMessages ++ finishedMessage zeros))]
    strictHost.policy.requiresMtls 0x0A320001 = true ∧
      Admissible (step strictHost) (SignsBeforeFinished strictHost) start calls ∧
      (execute (step strictHost) start calls).context.state = .established ∧
      ClientAuthenticated strictHost (execute (step strictHost) start calls) := by
  intro start calls
  have required : strictHost.policy.requiresMtls 0x0A320001 = true := by decide
  have admissible : Admissible (step strictHost) (SignsBeforeFinished strictHost)
      start calls := by
    decide +kernel
  exact ⟨required, admissible, by decide +kernel,
    client_authenticated strictHost blankKeys 0x0A320001 required calls admissible⟩

/-! ## A Finished message that comes first -/

theorem not_clientAuthenticated (established : session.context.state = .established)
    (first : session.history.head? = some .finished) : ¬ClientAuthenticated host session := by
  intro authenticated
  obtain ⟨verification, before, after, history, unfinished, -⟩ := authenticated established
  rw [history] at first
  cases before with
  | nil => exact Event.noConfusion (Option.some.inj first)
  | cons event rest =>
      obtain rfl := Option.some.inj first
      exact unfinished List.mem_cons_self

/-- A flight of which the first message that counts was the Finished message. -/
def ClientFlight.Early (flight : ClientFlight) : Prop :=
  flight.session.context.state = .expectFinished ∧
    flight.session.history.head? = some .finished

theorem clientMessage_early (host : Host) (data : View) (message : Message)
    (flight : ClientFlight) (early : flight.Early) :
    Ensures (clientMessage host data message flight) ClientFlight.Early
      fun after => after.context.state = .failed := by
  have noted (event : Event) : (flight.session.history ++ [event]).head? = some .finished := by
    rw [List.head?_append, early.2]
    rfl
  rw [clientMessage]
  split_ifs
  · exact rfl
  · exact early
  · exact early
  · rw [verifyClient]
    dsimp only
    split_ifs
    · exact rfl
    · exact ⟨early.1, noted _⟩
    · exact rfl
  · rw [checkClientFinished]
    split_ifs
    · exact ⟨early.1, noted _⟩
    · exact rfl
  · exact early

theorem readClientFlight_early (host : Host) (data : View) (messages : List Message)
    (flight : ClientFlight) (early : flight.Early) :
    Ensures (readClientFlight host data messages flight) ClientFlight.Early
      fun after => after.context.state = .failed := by
  induction messages generalizing flight with
  | nil => exact early
  | cons message rest ih =>
      exact (clientMessage_early host data message flight early).bind
        fun after spec => ih after spec

theorem clientMessage_finished (host : Host) (data : View) (message : Message)
    (flight : ClientFlight) (type : message.type = 0x14)
    (state : flight.session.context.state = .expectFinished)
    (blank : flight.session.history = []) :
    Ensures (clientMessage host data message flight) ClientFlight.Early
      fun after => after.context.state = .failed := by
  rw [clientMessage, type]
  change Ensures (checkClientFinished host.crypto data message flight) _ _
  rw [checkClientFinished]
  split_ifs
  · refine ⟨state, ?_⟩
    change (flight.session.history ++ [Event.finished]).head? = _
    rw [blank]
    rfl
  · exact rfl

theorem expectFinished_early (host : Host) (surroundings : Surroundings) (record : View)
    (session : Session) (state : session.context.state = .expectFinished)
    (blank : session.history = [])
    (first : (messagesOf (clientPlaintext host.crypto record session)).1.head?.map
      Message.type = some 0x14) :
    Ensures (expectFinished host surroundings record session)
      (fun answer => answer.session.history.head? = some .finished)
      fun after => after.context.state ≠ .established := by
  have unestablished (session : Session) (failed : session.context.state = .failed) :
      session.context.state ≠ .established := by
    rw [failed]
    exact nofun
  rw [expectFinished]
  dsimp only
  split
  · exact unestablished _ rfl
  · obtain ⟨message, head, type⟩ := Option.map_eq_some_iff.mp first
    obtain ⟨rest, messages⟩ := List.head?_eq_some_iff.mp head
    rw [messages, readClientFlight]
    refine (((clientMessage_finished host _ message _ type state blank).bind fun flight early =>
      readClientFlight_early host _ rest flight early).mono (fun _ => id) unestablished).bind ?_
    rintro flight ⟨state, first⟩
    split_ifs
    · exact unestablished _ rfl
    · rw [concludeClientFlight]
      split_ifs
      · exact unestablished _ rfl
      · exact first
      · change flight.session.context.state ≠ _
        rw [state]
        exact nofun

theorem step_early (host : Host) (session : Session) (call : Call)
    (state : session.context.state = .expectFinished) (blank : session.history = [])
    (first : (messagesOf (clientPlaintext host.crypto call.record session)).1.head?.map
      Message.type = some 0x14)
    (established : (session.step host call).context.state = .established) :
    ¬ClientAuthenticated host (session.step host call) := by
  have early := expectFinished_early host call.surroundings call.record
    (session.updateTranscript call.record.bytes) state blank first
  refine not_clientAuthenticated established ?_
  rw [step_of_state state, handshakeBranch] at established ⊢
  revert early established
  cases expectFinished host call.surroundings call.record
    (session.updateTranscript call.record.bytes) with
  | ok answer => exact fun _ first => first
  | error after => exact fun established unestablished => absurd established unestablished

/-- A ticket, and a call that finds it. -/
def callWithTicket (record : View) : Call :=
  ⟨record, { (callWith record).surroundings with ticketFor := fun _ => some ⟨86400, 0, 0, [1]⟩ }⟩

/-- Whatever the primitives are, a record that begins with a Finished message and establishes the
server does so before any signature.  With a ticket no signature has to follow.  The record is
hashed before its messages are looked at, so the verify data depend on the record they are in. -/
theorem established_unsigned :
    (∀ (host : Host) (keys : SessionKeys) (clientIp : BitVec 32) (hello call : Call),
      let session := (fresh keys .expectClientHello clientIp).step host hello
      (messagesOf (clientPlaintext host.crypto call.record session)).1.head?.map Message.type =
        some 0x14 → (session.step host call).context.state = .established →
          ¬ClientAuthenticated host (session.step host call)) ∧
    let start := fresh blankKeys .expectClientHello 0x0A320001
    let resuming := [callWithTicket
      (helloMessage 0x01 [0x00, 0x2A, 0x00, 0x00, 0x00, 0x29, 0x00, 0x00]),
      callWith (clientRecord (finishedMessage zeros))]
    let reordered := [callWith (helloMessage 0x01 []),
      callWith (clientRecord (finishedMessage zeros ++ certificateMessages))]
    strictHost.policy.requiresMtls 0x0A320001 = true ∧
      ¬ClientAuthenticated strictHost (execute (step strictHost) start resuming) ∧
      ¬ClientAuthenticated strictHost (execute (step strictHost) start reordered) := by
  have unsigned (host : Host) (keys : SessionKeys) (clientIp : BitVec 32) (hello call : Call) :=
    step_early host ((fresh keys .expectClientHello clientIp).step host hello) call rfl
      (expectClientHello_history _ _ _ _)
  refine ⟨unsigned, by decide, unsigned strictHost _ _ _ _ ?_ ?_, unsigned strictHost _ _ _ _ ?_ ?_⟩
    <;> decide +kernel

end SlabFlux.Security.Handshake
