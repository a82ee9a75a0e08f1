import SlabFlux.Security.Handshake.Frames

/-!
# Server authentication

A client that reaches `ESTABLISHED` has checked a signature of the server, unless the
ServerHello carried the pre-shared key extension: whether the client had offered a key is
not looked at.  This is so if the client gets past its ClientHello, which it hashes beyond the
end of the buffer (`readBackLength`).
-/

namespace SlabFlux.Security.Handshake

open Lib Session
variable (host : Host) (surroundings : Surroundings) (session : Session)

/-- A signature that the check has accepted for a transcript: it came in a CertificateVerify
message that is a part of the transcript, and it was checked against what the transcript
starts with. -/
structure ServerSigned (crypto : Primitives) (transcript : Bytes)
    (verification : Verification) : Prop where
  accepted : crypto.verify (extractSpki verification.certificate).bytes
    verification.signature.bytes
    (certificateVerifyPayload .server (crypto.hash verification.transcript)) = true
  current : verification.transcript <+: transcript
  message : ∃ message, message <:+: transcript ∧
    IsCertificateVerify message verification.signature.bytes

/-- A client that has not offered a pre-shared key is established only if it has accepted a
signature of the server for this transcript. -/
def ServerAuthenticated (crypto : Primitives) (session : Session) : Prop :=
  Event.offered ∉ session.history → session.context.state = .established →
    ∃ verification, Event.verified verification ∈ session.history ∧
      ServerSigned crypto session.context.transcript verification

/-- The ServerHello does not carry the pre-shared key extension. -/
abbrev ServerHelloWithoutPsk (session : Session) (call : Call) : Prop :=
  session.context.state = .expectServerHello → hasExtension call.record 0x0029 = false

theorem ServerSigned.mono {crypto : Primitives} {transcript transcript' : Bytes}
    {verification : Verification} (signed : ServerSigned crypto transcript verification)
    (longer : transcript <+: transcript') : ServerSigned crypto transcript' verification := by
  obtain ⟨message, part, verifies⟩ := signed.message
  exact ⟨signed.accepted, signed.current.trans longer, message, part.trans longer.isInfix, verifies⟩

/-! ## The server's flight -/

/-- The signature that the loop has collected, if any, came in a CertificateVerify message of
the record. -/
def ServerFlight.Signed (flight : ServerFlight) (data : View) : Prop :=
  flight.certVerifySig.length ≠ 0 → ∃ message, message <:+: data.bytes ∧
    IsCertificateVerify message flight.certVerifySig.bytes

theorem readServerFlight_ensures (data : View) (messages : List Message)
    (flight : ServerFlight) (session : Session)
    (inside : ∀ message ∈ messages, message.Inside data)
    (sorted : messages.Pairwise fun first second => first.start < second.start)
    (before : ∀ message ∈ messages, flight.certVerifyStart ≤ message.start)
    (signed : flight.Signed data) :
    Ensures (readServerFlight data messages flight session)
      (fun read => read.2.1.certVerifyStart ≤ read.1 ∧ read.2.1.Signed data ∧
        session.Continues read.2.2)
      fun early => early.context.state = .failed := by
  induction messages generalizing flight session with
  | nil => exact rfl
  | cons message rest ih =>
      have inside' : ∀ message ∈ rest, message.Inside data :=
        fun later member => inside later (List.mem_cons_of_mem _ member)
      have before' : ∀ message ∈ rest, flight.certVerifyStart ≤ message.start :=
        fun later member => before later (List.mem_cons_of_mem _ member)
      obtain ⟨first, sorted'⟩ := List.pairwise_cons.mp sorted
      rw [readServerFlight]
      split_ifs with request certificate verify finished
      · refine (ih flight _ inside' sorted' before' signed).mono (fun read spec => ?_)
          fun _ failed => failed
        have requested : session.Continues { session with
            context := { session.context with mtlsRequested := true } } :=
          ⟨List.prefix_rfl, rfl, rfl, rfl, rfl⟩
        exact ⟨spec.1, spec.2.1, (requested.trans (Continues.updateTranscript _ _)).trans spec.2.2⟩
      · exact ih { flight with serverCert := _ } session inside' sorted' before' signed
      · refine ih ⟨message.start, _, flight.serverCert⟩ session inside' sorted'
          (fun later member => Nat.le_of_lt (first later member)) ?_
        intro nonempty
        cases read : message.signature data with
        | none =>
            rw [read] at nonempty
            exact signed nonempty
        | some signature =>
            have here := inside message List.mem_cons_self
            exact ⟨message.bytes data, here.contained, Message.signature_spec here.type verify read⟩
      · exact ⟨before message List.mem_cons_self, signed, Continues.refl session⟩
      · exact ih flight session inside' sorted' before' signed

theorem verifyServer_ensures (crypto : Primitives) (data : View) (flight : ServerFlight)
    (session : Session) (required : session.context.isResumption = false) :
    Ensures (verifyServer crypto data flight session)
      (fun after => flight.certVerifySig.length ≠ 0 ∧
        let verification : Verification := ⟨flight.serverCert, flight.certVerifySig,
          session.context.transcript ++ data.window 0 flight.certVerifyStart⟩
        crypto.verify (extractSpki flight.serverCert).bytes flight.certVerifySig.bytes
          (certificateVerifyPayload .server (crypto.hash verification.transcript)) = true ∧
        after = session.note (.verified verification))
      fun early => early.context.state = .failed := by
  rw [verifyServer, if_neg (by rw [required]; exact Bool.false_ne_true)]
  split_ifs with missing
  · exact rfl
  · dsimp only
    split_ifs with unparsed accepted
    · exact rfl
    · exact ⟨fun empty => missing (Or.inr (Or.inl empty)), accepted, rfl⟩
    · exact rfl

theorem checkServerFinished_ensures (crypto : Primitives) (data : View) (finishedStart : Nat)
    (session : Session) :
    Ensures (checkServerFinished crypto data finishedStart session)
      (fun after => after.history = session.history ∧
        session.context.transcript ++ data.window 0 finishedStart <+: after.context.transcript)
      fun early => early.context.state = .failed := by
  rw [checkServerFinished]
  split_ifs
  · exact ⟨rfl, List.prefix_append _ _⟩
  · exact rfl

/-- What the client does after the checks. -/
theorem answerServer_session :
    (answerServer host surroundings session).session.context.state = .established ∧
      (answerServer host surroundings session).session.history = session.history ∧
      session.context.transcript <+:
        (answerServer host surroundings session).session.context.transcript := by
  let draft : Draft := (surroundings.buffer, session)
  have signed : session.Continues
      (if session.context.mtlsRequested then
        draft.clientCertificate host (surroundings.random 0) 0 id else draft).2 := by
    split_ifs
    · exact Continues.clientCertificate draft host _ _ _
    · exact Continues.refl session
  have finished := signed.trans (Continues.clientFinished _ host.crypto)
  exact ⟨rfl, finished.history, finished.transcript⟩

theorem expectServerFinished_ensures (record : View) (session : Session)
    (required : session.context.isResumption = false)
    (hashed : record.bytes <:+: session.context.transcript) :
    Ensures (expectServerFinished host surroundings record session)
      (fun answer => answer.session.context.state = .established ∧
        ∃ verification, Event.verified verification ∈ answer.session.history ∧
          ServerSigned host.crypto answer.session.context.transcript verification)
      fun early => early.context.state = .failed := by
  refine (readServerFlight_ensures record (messagesOf record).1 ⟨0, .empty, .empty⟩ session
    (fun message member => (walkMessages_inside record _ _ message member).1)
    (walkMessages_sorted record _ _) (fun _ _ => Nat.zero_le _)
    (fun nonempty => absurd rfl nonempty)).bind ?_
  rintro ⟨finishedStart, flight, session'⟩ ⟨ordered, collected, continued⟩
  dsimp only at ordered collected continued ⊢
  split_ifs with missing
  · exact rfl
  · refine (verifyServer_ensures host.crypto record flight session'
      (continued.isResumption.trans required)).bind ?_
    rintro _ ⟨nonempty, accepted, rfl⟩
    refine (checkServerFinished_ensures host.crypto record finishedStart _).map ?_
    rintro checked ⟨history, transcript⟩
    obtain ⟨established, kept, longer⟩ := answerServer_session host surroundings checked
    refine ⟨established, ⟨flight.serverCert, flight.certVerifySig,
      session'.context.transcript ++ record.window 0 flight.certVerifyStart⟩, ?_, accepted,
      ?_, ?_⟩
    · rw [kept, history]
      exact List.mem_append_right _ (List.mem_singleton_self _)
    · have part := List.prefix_append_right_inj session'.context.transcript |>.mpr
        (record.window_prefix 0 ordered)
      exact (part.trans transcript).trans longer
    · obtain ⟨message, part, verifies⟩ := collected nonempty
      have grown : session'.context.transcript <+:
          (answerServer host surroundings checked).session.context.transcript :=
        ((List.prefix_append _ _).trans transcript).trans longer
      exact ⟨message, ((part.trans hashed).trans continued.transcript.isInfix).trans
        grown.isInfix, verifies⟩

/-! ## Runs of a client -/

theorem expectServerHello_ensures (record : View) (session : Session) :
    Ensures (expectServerHello host record session)
      (fun after => after.context.state = .expectServerFinished ∧
        after.context.isResumption = hasExtension record 0x0029 ∧
        after.history = session.history)
      fun early => early.context.state = .failed ∧ (extractKeyShare record).length = 0 := by
  rw [expectServerHello]
  split_ifs with missing
  · exact ⟨rfl, missing⟩
  · exact ⟨rfl, rfl, rfl⟩

theorem generateClientHello_state :
    (generateClientHello host surroundings session).session.context.state =
      .expectServerHello := rfl

/-- What holds of a client between calls. -/
structure ClientInvariant (crypto : Primitives) (session : Session) : Prop where
  notHello : session.context.state ≠ .expectClientHello
  notFinished : session.context.state ≠ .expectFinished
  required : session.context.state = .expectServerFinished → session.context.isResumption = false
  authenticated : session.context.state = .established →
    ∃ verification, Event.verified verification ∈ session.history ∧
      ServerSigned crypto session.context.transcript verification

theorem ClientInvariant.of_failed {crypto : Primitives} {session : Session}
    (failed : session.context.state = .failed) : ClientInvariant crypto session := by
  constructor <;> simp [failed]

theorem step_clientInvariant (call : Call) (invariant : ClientInvariant host.crypto session)
    (guarded : ServerHelloWithoutPsk session call) :
    ClientInvariant host.crypto (session.step host call) := by
  have hashed : call.record.bytes <:+:
      (session.updateTranscript call.record.bytes).context.transcript :=
    (List.suffix_append _ _).isInfix
  cases state : session.context.state with
  | expectClientHello => exact absurd state invariant.notHello
  | expectFinished => exact absurd state invariant.notFinished
  | failed =>
      rw [step_of_state state, handshakeBranch]
      exact .of_failed state
  | generateClientHello =>
      rw [step_of_state state, handshakeBranch]
      have next := generateClientHello_state host call.surroundings
        (session.updateTranscript call.record.bytes)
      constructor <;> simp [next]
  | expectServerHello =>
      rw [step_of_state state, handshakeBranch]
      have spec := expectServerHello_ensures host call.record
        (session.updateTranscript call.record.bytes)
      refine returned_of_ensures ((spec.mono (fun after answered => ?_)
        fun early failed => ClientInvariant.of_failed failed.1).map fun _ invariant => invariant)
      obtain ⟨next, resumption, -⟩ := answered
      refine ⟨?_, ?_, fun _ => resumption.trans (guarded state), ?_⟩ <;> simp [next]
  | expectServerFinished =>
      rw [step_of_state state, handshakeBranch]
      have spec := expectServerFinished_ensures host call.surroundings call.record
        (session.updateTranscript call.record.bytes) (invariant.required state) hashed
      refine returned_of_ensures (spec.mono (fun answer checked => ?_)
        fun early failed => ClientInvariant.of_failed failed)
      refine ⟨?_, ?_, ?_, fun _ => checked.2⟩ <;> simp [checked.1]
  | established =>
      rw [step_of_state state, handshakeBranch]
      have continued := (Continues.updateTranscript session call.record.bytes).trans
        (Continues.postHandshake host call.surroundings call.record _)
      obtain ⟨verification, noted, signed⟩ := invariant.authenticated state
      have same := continued.state.trans state
      refine ⟨by simp [same], by simp [same], by simp [same], fun _ => ⟨verification, ?_, ?_⟩⟩
      · rw [continued.history]
        exact noted
      · exact signed.mono continued.transcript

/-- In every run in which no ServerHello carries the pre-shared key extension, a client that
is established has accepted a signature of the server. -/
theorem server_authenticated (host : Host) (start : Session)
    (client : start.context.state = .generateClientHello) (calls : List Call)
    (admissible : Admissible (step host) ServerHelloWithoutPsk start calls) :
    ServerAuthenticated host.crypto (execute (step host) start calls) := by
  have initially : ClientInvariant host.crypto start := by
    constructor <;> simp [client]
  have invariant := execute_invariant_of_admissible (step_clientInvariant host) initially admissible
  exact fun _ => invariant.authenticated

/-! ## Runs on fixed records -/

/-- A client that gets a certificate, a signature and a Finished message. -/
theorem server_authenticated_signed :
    let start := fresh blankKeys .generateClientHello 0
    let calls := [callWith .empty, callWith (helloMessage 0x02 []),
      callWith (.ofList ([0x08, 0x00, 0x00, 0x02, 0x00, 0x00] ++ certificateMessages ++
        finishedMessage zeros))]
    Admissible (step constantHost) ServerHelloWithoutPsk start calls ∧
      (execute (step constantHost) start calls).context.state = .established ∧
      ServerAuthenticated constantPrimitives
        (execute (step constantHost) start calls) := by
  intro start calls
  have admissible : Admissible (step constantHost) ServerHelloWithoutPsk start calls := by
    decide +kernel
  exact ⟨admissible, by decide +kernel,
    server_authenticated constantHost start rfl calls admissible⟩

/-- EncryptedExtensions and the header of a Finished message without a body. -/
def bareFlight : Bytes := [0x08, 0x00, 0x00, 0x02, 0x00, 0x00, 0x14, 0x00, 0x00, 0x00]

variable (verifyData : Vector (BitVec 8) 32)

/-- The flight in a buffer in which verify data follows it. -/
def bareFlightBefore (verifyData : Vector (BitVec 8) 32) : View :=
  ⟨fun index => (bareFlight ++ verifyData.toList).getD index 0, 10⟩

theorem bytes_bareFlightBefore : (bareFlightBefore verifyData).bytes = bareFlight := by
  simp [View.bytes, View.window, Memory.bytes, bareFlightBefore, bareFlight, List.range_succ]

theorem messagesOf_bareFlightBefore :
    (messagesOf (bareFlightBefore verifyData)).1 = [⟨0, 0x08, 2⟩, ⟨6, 0x14, 0⟩] := by
  simp [messagesOf, walkMessages, View.word24, View.word16, View.get, bareFlightBefore, bareFlight]

theorem blockAt_bareFlightBefore : blockAt (bareFlightBefore verifyData) (6 + 4) = verifyData := by
  apply Vector.ext
  intro index inside
  have length : bareFlight.length = 6 + 4 := rfl
  rw [blockAt, Vector.getElem_ofFn]
  change (bareFlight ++ verifyData.toList).getD (6 + 4 + index) 0 = _
  rw [List.getD_append_right _ _ _ _ (by rw [length]; exact Nat.le_add_right _ _), length,
    Nat.add_sub_cancel_left]
  simp [List.getD_eq_getElem?_getD, inside]

/-- A client that takes the handshake for a resumption accepts a flight without a
signature. -/
theorem expectServerFinished_resumed (resumption : session.context.isResumption = true) :
    ∃ (verifyData : Vector (BitVec 8) 32) (checked : Session), checked.history = session.history ∧
        expectServerFinished host surroundings (bareFlightBefore verifyData) session =
          .ok (answerServer host surroundings checked) := by
  -- The record has been hashed already, so what its Finished has to hold is known.
  let hashed := session.updateTranscript (bareFlight.take 6)
  let verifyData := host.crypto.verifyData session.context.serverTrafficSecret
    (hashed.transcriptHash host.crypto)
  let record := bareFlightBefore verifyData
  have read : readServerFlight record (messagesOf record).1 ⟨0, .empty, .empty⟩ session =
      .ok (6, ⟨0, .empty, .empty⟩, session) := by
    rw [messagesOf_bareFlightBefore]
    rfl
  have verified : verifyServer host.crypto record ⟨0, .empty, .empty⟩ session = .ok session := by
    rw [verifyServer, if_pos resumption]
  have checked : checkServerFinished host.crypto record 6 session =
      .ok (hashed.updateTranscript (record.window 6 (4 + 32))) := by
    exact if_pos (blockAt_bareFlightBefore verifyData).symm
  refine ⟨verifyData, hashed.updateTranscript (record.window 6 (4 + 32)), rfl, ?_⟩
  rw [expectServerFinished, read]
  change (verifyServer host.crypto record ⟨0, .empty, .empty⟩ session).bind _ = _
  rw [verified]
  change (checkServerFinished host.crypto record 6 session).map _ = _
  rw [checked]
  rfl

/-- Whatever the primitives are, a client that has offered nothing is established without a
signature by a ServerHello with the pre-shared key extension. -/
theorem established_unauthenticated :
    ¬∃ host : Host, ∀ (start : Session) (calls : List Call),
      start.context.state = .generateClientHello → start.history = [] →
        ServerAuthenticated host.crypto (execute (step host) start calls) := by
  rintro ⟨host, authenticated⟩
  obtain ⟨hello, share, flag⟩ : ∃ hello, (extractKeyShare hello).length ≠ 0 ∧
      hasExtension hello 0x0029 = true :=
    ⟨helloMessage 0x02 [0x00, 0x29, 0x00, 0x02, 0x00, 0x00], by decide +kernel, by decide +kernel⟩
  let start := fresh blankKeys .generateClientHello 0
  obtain ⟨offered, offer, state, history⟩ : ∃ offered, start.step host (callWith .empty) = offered ∧
      offered.context.state = .expectServerHello ∧ offered.history = [] :=
    ⟨_, rfl, rfl, rfl⟩
  obtain ⟨answered, answer, state, resumption, history⟩ :
      ∃ answered, offered.step host (callWith hello) = answered ∧
        answered.context.state = .expectServerFinished ∧
        answered.context.isResumption = true ∧ answered.history = [] := by
    refine ⟨_, step_of_state state, ?_⟩
    rw [handshakeBranch]
    have spec := expectServerHello_ensures host (callWith hello).record
      (offered.updateTranscript (callWith hello).record.bytes)
    revert spec
    cases expectServerHello host (callWith hello).record
      (offered.updateTranscript (callWith hello).record.bytes) with
    | error early => exact fun failed => absurd failed.2 share
    | ok after => exact fun spec => ⟨spec.1, spec.2.1.trans flag, spec.2.2.trans history⟩
  obtain ⟨verifyData, checked, kept, accepted⟩ := expectServerFinished_resumed host
    (callWith .empty).surroundings (answered.updateTranscript bareFlight) resumption
  obtain ⟨established, noted, -⟩ := answerServer_session host (callWith .empty).surroundings checked
  have final : execute (step host) start [callWith .empty, callWith hello,
      callWith (bareFlightBefore verifyData)] =
      (answerServer host (callWith .empty).surroundings checked).session := by
    rw [execute_cons, execute_cons, execute_cons, execute_nil, offer, answer,
      step_of_state state, handshakeBranch]
    change (returned (expectServerFinished host (callWith .empty).surroundings
      (bareFlightBefore verifyData) (answered.updateTranscript
        (bareFlightBefore verifyData).bytes))).session = _
    rw [bytes_bareFlightBefore, accepted]
    rfl
  have empty : (answerServer host (callWith .empty).surroundings checked).session.history = [] :=
    (noted.trans kept).trans history
  have claimed := authenticated start [callWith .empty, callWith hello,
    callWith (bareFlightBefore verifyData)] rfl rfl
  rw [final] at claimed
  obtain ⟨verification, member, -⟩ := claimed (by rw [empty]; exact List.not_mem_nil) established
  rw [empty] at member
  exact absurd member List.not_mem_nil

end SlabFlux.Security.Handshake
