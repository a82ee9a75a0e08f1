import SlabFlux.Security.Handshake.Frames
import SlabFlux.Security.RecordFraming.Delivery
import SlabFlux.Security.TlsRecordLayer

/-!
# Agreement

A client and a server that talk over a link, through the record layer on either side.  The
server answers a ClientHello with the 16 bytes of a tag, and no record of 16 bytes takes the
client any further, if the client gets past its ClientHello at all (`readBackLength`).
-/

namespace SlabFlux.Security.Handshake

open Lib Memory RecordFraming Receiver

variable {session : Session} (host : Host)
variable (clientIp serverIp : BitVec 32) (surroundings : Surroundings)

/-- Two sessions and the bytes on the way between them. -/
structure Link where
  client : SessionBlock
  server : SessionBlock
  toServer : Bytes
  toClient : Bytes

/-- The moves of a link: the client starts, and bytes arrive at either side. -/
inductive Move where
  | sendHello (surroundings : Surroundings)
  | deliverToServer (count : Nat) (surroundings : Nat → Surroundings)
  | deliverToClient (count : Nat) (surroundings : Nat → Surroundings)

/-- Surroundings in which no ticket is found. -/
def Surroundings.withoutTickets (surroundings : Surroundings) : Surroundings :=
  { surroundings with ticketFor := fun _ => none }

/-- A move. -/
def Link.step (host : Host) (clientIp serverIp : BitVec 32) (link : Link) : Move → Link
  | .sendHello surroundings =>
      if link.client.session.context.state = .generateClientHello then
        let answer := processHandshake host
          { surroundings.withoutTickets with capacity := 4096 } .empty link.client.session
        { link with
          client := { link.client with session := answer.session }
          toServer := link.toServer ++ answer.written }
      else link
  | .deliverToServer count surroundings =>
      let (server, sent) := link.server.on host (fun call => (surroundings call).withoutTickets)
        clientIp (link.toServer.take count)
      { link with
        server := server
        toServer := link.toServer.drop count
        toClient := link.toClient ++ sent }
  | .deliverToClient count surroundings =>
      let (client, sent) := link.client.on host (fun call => (surroundings call).withoutTickets)
        serverIp (link.toClient.take count)
      { link with
        client := client
        toClient := link.toClient.drop count
        toServer := link.toServer ++ sent }

/-- A link before anything has been sent. -/
def Link.initial (clientKeys serverKeys : SessionKeys) (buffer buffer' : Memory) : Link where
  client := ⟨.fresh clientKeys .generateClientHello 0, buffer, 0⟩
  server := ⟨.fresh serverKeys .expectClientHello 0, buffer', 0⟩
  toServer := []
  toClient := []

/-- Both sides are established with the same keys. -/
structure Link.Agreed (link : Link) : Prop where
  client : link.client.session.context.state = .established
  server : link.server.session.context.state = .established
  clientWriteKey : link.client.session.keys.clientWriteKey = link.server.session.keys.clientWriteKey
  serverWriteKey : link.client.session.keys.serverWriteKey = link.server.session.keys.serverWriteKey
  clientWriteIv : link.client.session.keys.clientWriteIv = link.server.session.keys.clientWriteIv
  serverWriteIv : link.client.session.keys.serverWriteIv = link.server.session.keys.serverWriteIv

/-! ## The ClientHello -/

variable {hello : Bytes}

/-- A single record of 168 bytes. -/
structure IsHello (hello : Bytes) : Prop where
  length : hello.length = 168
  type : hello.getD 0 0 = 22
  high : hello.getD 3 0 = 0
  low : hello.getD 4 0 = 163

/-- A buffer of 4096 bytes that is filled up to an index and starts with a byte. -/
structure Filled (buffer : AppendBuffer) (offset : Nat) (first : BitVec 8) : Prop where
  offset : buffer.offset = offset
  capacity : buffer.capacity = 4096
  first : buffer.memory 0 = first

theorem Filled.appendAll {buffer : AppendBuffer} {offset : Nat} {first : BitVec 8}
    (filled : Filled buffer offset first) (fields : List Bytes)
    (started : 0 < offset) {count : Nat} (length : fields.flatten.length = count)
    (fits : offset + count ≤ 4096) : Filled (buffer.appendAll fields) (offset + count) first := by
  obtain ⟨offset', capacity, kept⟩ := AppendBuffer.appendAll_fits
    (show buffer.offset + fields.flatten.length ≤ buffer.capacity by
      rw [filled.offset, filled.capacity, length]; exact fits)
  exact ⟨by rw [offset', filled.offset, length], capacity.trans filled.capacity,
    (kept 0 (by rw [filled.offset]; exact started)).trans filled.first⟩

theorem length_helloExtensions (share : Vector (BitVec 8) 32) :
    (u16 0 :: helloExtensions share).flatten.length = 86 := by
  have name : (text "api.exchange.local").length = 18 := by decide
  simp [helloExtensions, u8, u16, name]

variable {record : View}

theorem helloLayout_spec (roomy : surroundings.capacity = 4096) (share : Vector (BitVec 8) 32) :
    let layout := helloLayout surroundings share
    Filled layout.buffer 168 0x16 ∧ layout.recLenIdx = 3 ∧ layout.msgLenIdx = 6 ∧
      layout.extLenIdx = 82 := by
  intro layout
  have type : Filled (surroundings.buffer.appendAll [u8 0x16, u16 0x0301]) 3 0x16 := by
    have fits : surroundings.buffer.offset + ([u8 0x16, u16 0x0301]).flatten.length ≤
        surroundings.buffer.capacity := by
      simp [Surroundings.buffer, roomy, u8, u16]
    obtain ⟨offset, capacity, -⟩ := AppendBuffer.appendAll_fits fits
    exact ⟨offset, capacity.trans roomy,
      AppendBuffer.appendAll_first (show 0 < (u8 0x16).length by decide) fits⟩
  have record := type.appendAll [u16 0] (by decide) rfl (by decide)
  have message := record.appendAll [u8 0x01] (by decide) rfl (by decide)
  have body := message.appendAll _ (by decide)
    (show ([u24 0, u16 0x0303, (surroundings.random 1).toList, u8 0x20,
      (surroundings.random 2).toList, u16 0x0002, u16 0x1301, u8 0x01,
      u8 0x00]).flatten.length = 76 by simp [u8, u16, u24]) (by decide)
  have extensions := body.appendAll _ (by decide) (length_helloExtensions share) (by decide)
  exact ⟨extensions, type.offset, message.offset, body.offset⟩

/-- The lengths are filled in behind the type and the version of the record. -/
theorem backfill_front (layout : HelloLayout) (offset : layout.buffer.offset = 168)
    (recLenIdx : layout.recLenIdx = 3) (msgLenIdx : layout.msgLenIdx = 6)
    (extLenIdx : layout.extLenIdx = 82) :
    (layout.backfill 0).memory 0 = layout.buffer.memory 0 ∧
      (layout.backfill 0).memory 3 = 0 ∧ (layout.backfill 0).memory 4 = 163 := by
  have length : lengthBetween 16 3 (168 + 0) 2 = 163 := rfl
  simp [HelloLayout.backfill, AppendBuffer.overwrite, copy, offset, recLenIdx, msgLenIdx,
    extLenIdx, u16, u24, length]

theorem generateClientHello_written (session : Session) (roomy : surroundings.capacity = 4096)
    (unoffered : surroundings.ticketFor session.context.remoteIpv4 = none) :
    IsHello (generateClientHello host surroundings session).written := by
  let layout := helloLayout surroundings
    (host.crypto.scalarmultBase (clamp (surroundings.random 0)))
  obtain ⟨filled, recLenIdx, msgLenIdx, extLenIdx⟩ := helloLayout_spec surroundings roomy
    (host.crypto.scalarmultBase (clamp (surroundings.random 0)))
  have written : (generateClientHello host surroundings session).written =
      (layout.backfill 0).memory.bytes 0 168 := by
    have offset : (layout.backfill 0).offset = 168 := filled.offset
    rw [← offset]
    simp only [generateClientHello, unoffered]
    rfl
  obtain ⟨first, high, low⟩ := backfill_front layout filled.offset recLenIdx msgLenIdx extLenIdx
  refine ⟨?_, ?_, ?_, ?_⟩ <;> rw [written]
  · exact length_bytes _ _ _
  · rw [getD_bytes _ (by decide), Nat.zero_add, first]
    exact filled.first
  · rw [getD_bytes _ (by decide), Nat.zero_add, high]
  · rw [getD_bytes _ (by decide), Nat.zero_add, low]

/-! ## Records that are too short -/

/-- A client that waits for a ServerHello or has failed. -/
def Waiting (session : Session) : Prop :=
  session.context.state = .expectServerHello ∨ session.context.state = .failed

theorem Waiting.not_started (waiting : Waiting session) :
    session.context.state ≠ .generateClientHello := by
  rcases waiting with state | state <;> rw [state] <;> decide

theorem Waiting.not_established (waiting : Waiting session) :
    session.context.state ≠ .established := by
  rcases waiting with state | state <;> rw [state] <;> decide

theorem extractKeyShare_short (short : record.length < 42) :
    (extractKeyShare record).length = 0 := by
  rw [extractKeyShare, clientExtensions, if_pos short]
  rfl

theorem processHandshake_short (short : record.length < 42) (waiting : Waiting session) :
    Waiting (processHandshake host surroundings record session).session ∧
      (processHandshake host surroundings record session).written = [] := by
  rcases waiting with state | state
  · rw [processHandshake_of_state _ _ _ state, handshakeBranch]
    rw [expectServerHello, if_pos (extractKeyShare_short short)]
    exact ⟨Or.inr rfl, rfl⟩
  · rw [processHandshake_of_state _ _ _ state]
    exact ⟨Or.inr state, rfl⟩

theorem handshakeRecord_short (short : record.length < 42) (waiting : Waiting session) :
    Waiting (handshakeRecord host surroundings record session).1 ∧
      (handshakeRecord host surroundings record session).2 = [] := by
  obtain ⟨still, written⟩ := processHandshake_short host
    { surroundings with capacity := 4096 } short waiting
  refine ⟨still, ?_⟩
  rw [handshakeRecord]
  rw [written, ite_self]

theorem decryptRecord_length (crypto : Primitives) (record : View) (session : Session) :
    (decryptRecord crypto record session).2 ≤ record.length := by
  have bytes : record.bytes.length = record.length := length_bytes _ _ _
  rw [decryptRecord, AesGcmHardware.decryptInPlace]
  split_ifs
  · exact Nat.zero_le _
  · dsimp only
    split_ifs
    · rw [List.length_take]
      omega
    · exact Nat.zero_le _

theorem processRecord_short (remoteIpv4 : BitVec 32) {event : RecordEvent}
    (short : event.ciphertext.length < 42) (waiting : Waiting session) :
    Waiting (processRecord host surroundings remoteIpv4 event session).1 ∧
      (processRecord host surroundings remoteIpv4 event session).2 = [] := by
  have fits := decryptRecord_length host.crypto event.ciphertext session
  rw [processRecord]
  dsimp only
  split_ifs
  · exact handshakeRecord_short host surroundings short waiting
  · exact ⟨waiting, rfl⟩
  · exact handshakeRecord_short host surroundings
      (Nat.lt_of_le_of_lt (Nat.sub_le _ _) (Nat.lt_of_le_of_lt fits short)) waiting
  · exact ⟨waiting, rfl⟩

theorem on_short (host : Host) (surroundings : Nat → Surroundings) (remoteIpv4 : BitVec 32)
    {block : SessionBlock} {frame : Bytes} (waiting : Waiting block.session)
    (short : block.rxBufferLen + frame.length ≤ 16) :
    let after := block.on host surroundings remoteIpv4 frame
    Waiting after.1.session ∧ after.2 = [] ∧
      after.1.rxBufferLen ≤ block.rxBufferLen + frame.length := by
  have room : block.receiver.rxBufferLen ≤ rxBufferSize := by
    change block.rxBufferLen ≤ 16384 + 256
    omega
  obtain ⟨-, balance⟩ := on_accounts (layerConsumer host surroundings remoteIpv4) room frame
  have nothing : block.receiver.handedSize + block.receiver.rxBufferLen = block.rxBufferLen :=
    Nat.zero_add _
  obtain ⟨still, silent⟩ := on_invariant (layerConsumer host surroundings remoteIpv4)
    (motive := fun layer _ => Waiting layer.session ∧ layer.sent = [])
    (by
      rintro event layer - bound ⟨waiting, silent⟩
      obtain ⟨still, written⟩ := processRecord_short host (surroundings layer.processed) remoteIpv4
        (Nat.lt_of_le_of_lt bound (by decide : 16 < 42)) waiting
      exact ⟨still, congrArg₂ (· ++ ·) silent written⟩)
    (show block.receiver.rxBufferLen + frame.length ≤ 16 from short) ⟨waiting, rfl⟩
  refine ⟨still, silent, ?_⟩
  change (block.receiver.on _ frame).1.rxBufferLen ≤ _
  omega

/-! ## The server's answer -/

/-- The bytes in the buffer of a block. -/
def received (block : SessionBlock) : Bytes :=
  block.rxBuffer.bytes 0 block.rxBufferLen

theorem handshakeRecord_hello (record : View) (state : session.context.state = .expectClientHello) :
    (handshakeRecord host surroundings record session).1.context.state = .expectFinished ∧
      (handshakeRecord host surroundings record session).2.length = 16 := by
  have branch := processHandshake_of_state host { surroundings with capacity := 4096 } record state
  rw [handshakeRecord]
  rw [branch]
  exact ⟨rfl, length_bytes _ _ _⟩

theorem IsHello.exists_record (isHello : IsHello hello) :
    ∃ record : Record, record.bytes = hello ∧ record.contentType = 22 ∧ record.size = 168 := by
  obtain ⟨length, type, high, low⟩ := isHello
  match hello, length, type, high, low with
  | _ :: major :: minor :: _ :: _ :: body, length, rfl, rfl, rfl =>
      have size : body.length = 163 := by simpa using length
      exact ⟨⟨22, (major, minor), body, by omega⟩, by simp [Record.bytes, size], rfl,
        by rw [Record.size, size]⟩

/-- What is left of a layer that a first record of a handshake has reached. -/
def Answers (start : Layer) (layer : Layer) : List (BitVec 8 × Bytes) → Prop
  | [] => layer = start
  | [entry] => entry.1 = 22 →
      layer.session.context.state = .expectFinished ∧ layer.sent.length = start.sent.length + 16
  | _ => True

theorem answers_consume (host : Host) (surroundings : Nat → Surroundings) (remoteIpv4 : BitVec 32)
    {start layer : Layer} (state : start.session.context.state = .expectClientHello)
    (event : RecordEvent) (handed : List (BitVec 8 × Bytes))
    (answers : Answers start layer handed) :
    Answers start ((layerConsumer host surroundings remoteIpv4).consume event layer).1
      (handed ++ [(event.contentType, event.ciphertext.bytes)]) := by
  match handed, answers with
  | [], same =>
      obtain rfl : layer = start := same
      intro isHandshake
      change event.contentType = 22 at isHandshake
      let addressed : Session := { layer.session with
        context := { layer.session.context with remoteIpv4 := remoteIpv4 } }
      have waits : addressed.context.state = .expectClientHello := state
      obtain ⟨next, sixteen⟩ := handshakeRecord_hello host (surroundings layer.processed)
        event.ciphertext waits
      rw [layerConsumer]
      dsimp only
      rw [processRecord, if_pos isHandshake]
      exact ⟨next, by rw [List.length_append, sixteen]⟩
  | [_], _ => trivial
  | _ :: _ :: _, _ => trivial

/-- What a piece of the ClientHello does to the server: it waits for more, or it answers with
16 bytes. -/
theorem on_hello (host : Host) (surroundings : Nat → Surroundings) (remoteIpv4 : BitVec 32)
    {block : SessionBlock} {frame rest hello : Bytes} (isHello : IsHello hello)
    (state : block.session.context.state = .expectClientHello)
    (division : received block ++ frame ++ rest = hello)
    (unread : (received block).length < 168) :
    let after := block.on host surroundings remoteIpv4 frame
    (after.1.session = block.session ∧ after.2 = [] ∧
        received after.1 = received block ++ frame ∧ (received after.1).length < 168) ∨
      (after.1.session.context.state = .expectFinished ∧ after.2.length = 16 ∧
        after.1.rxBufferLen = 0 ∧ rest = []) := by
  intro after
  obtain ⟨record, bytes, type, sized⟩ := isHello.exists_record
  have size : (received block).length = block.rxBufferLen := length_bytes _ _ _
  have whole : stream [record] = hello := by
    rw [stream, List.flatMap_singleton, bytes]
  have tracks : Tracks [record] block.receiver (received block).length (frame ++ rest) := by
    refine ⟨[], [record], received block, rfl, rfl, size.symm, ?_, ?_, ?_, ?_⟩
    · rw [size]
      rfl
    · rw [← List.append_assoc, division, whole]
    · change (received block).length < record.size
      omega
    · exact (Nat.zero_add _).symm
  have total : block.rxBufferLen + frame.length + rest.length = 168 := by
    rw [← isHello.length, ← division, List.length_append, List.length_append, size]
  have later : Tracks [record] (block.receiver.on (layerConsumer host surroundings remoteIpv4)
      frame).1 _ rest := tracks.on (by
    change block.rxBufferLen + frame.length ≤ 16384 + 256
    omega)
  have answers := on_invariant (layerConsumer host surroundings remoteIpv4)
    (motive := Answers block.receiver.consumer)
    (fun event layer handed _ => answers_consume host surroundings remoteIpv4 state event handed)
    (Nat.le_refl (block.receiver.rxBufferLen + frame.length)) rfl
  obtain ⟨done, left, staged, split, handed, length, kept, continues, ends, -⟩ := later
  rw [handed] at answers
  have shown : received after.1 = staged := by
    rw [← kept, ← length]
    rfl
  cases done with
  | nil =>
      obtain rfl : [record] = left := split
      have same : received block ++ frame = staged := by
        rw [whole, ← division] at continues
        exact (List.append_cancel_right continues).symm
      have unanswered : _ = block.receiver.consumer := answers
      refine Or.inl ⟨congrArg Layer.session unanswered, congrArg Layer.sent unanswered,
        shown.trans same.symm, ?_⟩
      rw [shown, ← sized]
      exact ends
  | cons first done =>
      obtain ⟨rfl, rest⟩ := List.cons.inj split
      obtain ⟨rfl, rfl⟩ := List.append_eq_nil_iff.mp rest.symm
      obtain ⟨next, sixteen⟩ := answers type
      obtain ⟨rfl, finished⟩ := List.append_eq_nil_iff.mp continues
      exact Or.inr ⟨next, sixteen, length, finished⟩

/-! ## Runs of a link -/

/-- How far a link has come: nothing has been sent, the ClientHello is on its way, or the
server has answered it. -/
inductive Link.Phase (link : Link) : Prop where
  | silent (client : link.client.session.context.state = .generateClientHello)
      (unread : link.client.rxBufferLen = 0)
      (server : link.server.session.context.state = .expectClientHello)
      (unread' : link.server.rxBufferLen = 0) (quiet : link.toServer = [])
      (quiet' : link.toClient = [])
  | greeting (hello : Bytes) (isHello : IsHello hello)
      (client : Waiting link.client.session) (unread : link.client.rxBufferLen = 0)
      (server : link.server.session.context.state = .expectClientHello)
      (stream : received link.server ++ link.toServer = hello)
      (cut : (received link.server).length < 168) (quiet : link.toClient = [])
  | answered (client : Waiting link.client.session)
      (short : link.client.rxBufferLen + link.toClient.length ≤ 16)
      (server : link.server.session.context.state = .expectFinished)
      (unread : link.server.rxBufferLen = 0) (quiet : link.toServer = [])

theorem sendHello_phase {link : Link} (phase : link.Phase) :
    (link.step host clientIp serverIp (.sendHello surroundings)).Phase := by
  rw [Link.step]
  split_ifs with fresh
  · cases phase with
    | silent client unread server unread' quiet quiet' =>
        let roomy : Surroundings := { surroundings.withoutTickets with capacity := 4096 }
        have branch := processHandshake_of_state host roomy .empty client
        have isHello := generateClientHello_written host roomy
          (link.client.session.updateTranscript View.empty.bytes) rfl rfl
        have nothing : received link.server = [] := by
          rw [received, unread']
          rfl
        refine .greeting _ isHello (Or.inl ?_) unread server ?_ ?_ quiet'
        · rw [branch]
          rfl
        · rw [branch, nothing, quiet]
          rfl
        · rw [nothing]
          decide
    | greeting hello isHello client => exact absurd fresh client.not_started
    | answered client => exact absurd fresh client.not_started
  · exact phase

theorem deliverToServer_phase {link : Link} (count : Nat) (surroundings : Nat → Surroundings)
    (phase : link.Phase) :
    (link.step host clientIp serverIp (.deliverToServer count surroundings)).Phase := by
  rw [Link.step]
  cases phase with
  | silent client unread server unread' quiet quiet' =>
      rw [quiet, List.take_nil, List.drop_nil]
      exact .silent client unread server unread' rfl (by rw [quiet']; rfl)
  | greeting hello isHello client unread server stream cut quiet =>
      have pieces : received link.server ++ link.toServer.take count ++
          link.toServer.drop count = hello := by
        rw [List.append_assoc, List.take_append_drop, stream]
      rcases on_hello host (fun call => (surroundings call).withoutTickets) clientIp isHello server
        pieces cut with ⟨same, nothing, kept, cut'⟩ | ⟨next, sixteen, empty, finished⟩
      · refine .greeting hello isHello client unread ?_ ?_ cut' ?_
        · exact (congrArg (·.context.state) same).trans server
        · exact (congrArg (· ++ link.toServer.drop count) kept).trans pieces
        · change link.toClient ++ _ = []
          rw [quiet, nothing, List.append_nil]
      · refine .answered client ?_ next empty finished
        change link.client.rxBufferLen + (link.toClient ++ _).length ≤ 16
        rw [unread, quiet, List.nil_append, sixteen]
  | answered client short server unread quiet =>
      rw [quiet, List.take_nil, List.drop_nil]
      refine .answered client ?_ server unread rfl
      change link.client.rxBufferLen + (link.toClient ++ []).length ≤ 16
      rw [List.append_nil]
      exact short

theorem deliverToClient_phase {link : Link} (count : Nat) (surroundings : Nat → Surroundings)
    (phase : link.Phase) :
    (link.step host clientIp serverIp (.deliverToClient count surroundings)).Phase := by
  rw [Link.step]
  cases phase with
  | silent client unread server unread' quiet quiet' =>
      rw [quiet', List.take_nil, List.drop_nil]
      exact .silent client unread server unread' (by rw [quiet]; rfl) rfl
  | greeting hello isHello client unread server stream cut quiet =>
      rw [quiet, List.take_nil, List.drop_nil]
      exact .greeting hello isHello client unread server
        (by rw [← stream]; exact congrArg _ (List.append_nil _)) cut rfl
  | answered client short server unread quiet =>
      have pieces : (link.toClient.take count).length + (link.toClient.drop count).length =
          link.toClient.length := by
        rw [← List.length_append, List.take_append_drop]
      obtain ⟨still, nothing, less⟩ := on_short host
        (fun call => (surroundings call).withoutTickets) serverIp client
        (show link.client.rxBufferLen + (link.toClient.take count).length ≤ 16 by omega)
      refine .answered still ?_ server unread ?_
      · change _ + (link.toClient.drop count).length ≤ 16
        exact Nat.le_trans (Nat.add_le_add_right less _) (by omega)
      · change link.toServer ++ _ = []
        rw [quiet, nothing, List.append_nil]

theorem step_phase (link : Link) (move : Move) (phase : link.Phase) :
    (link.step host clientIp serverIp move).Phase := by
  cases move with
  | sendHello surroundings => exact sendHello_phase host clientIp serverIp surroundings phase
  | deliverToServer count surroundings =>
      exact deliverToServer_phase host clientIp serverIp count surroundings phase
  | deliverToClient count surroundings =>
      exact deliverToClient_phase host clientIp serverIp count surroundings phase

/-- Whatever the primitives, the keys and the random numbers are and however the bytes are
delivered, an honest client and an honest server never agree. -/
theorem never_agreed (host : Host) (clientIp serverIp : BitVec 32)
    (clientKeys serverKeys : SessionKeys) (buffer buffer' : Memory) (moves : List Move) :
    ¬(execute (Link.step host clientIp serverIp)
      (.initial clientKeys serverKeys buffer buffer') moves).Agreed := by
  have initially : (Link.initial clientKeys serverKeys buffer buffer').Phase :=
    .silent rfl rfl rfl rfl rfl rfl
  have phase := execute_invariant (step_phase host clientIp serverIp) initially moves
  intro agreed
  cases phase with
  | silent client => exact absurd (agreed.client.symm.trans client) (by decide)
  | greeting hello isHello client => exact client.not_established agreed.client
  | answered client => exact client.not_established agreed.client

/-- A whole exchange: the server has answered the ClientHello, nothing is on the way any
more, and both sides wait. -/
theorem exchange_stalled :
    let surroundings := (callWith .empty).surroundings
    let link := execute (Link.step constantHost 1 2)
      (.initial blankKeys blankKeys (fun _ => 0) fun _ => 0)
      [.sendHello surroundings, .deliverToServer 168 fun _ => surroundings,
        .deliverToClient 16 fun _ => surroundings]
    link.toServer = [] ∧ link.toClient = [] ∧
      link.client.session.context.state = .expectServerHello ∧
      link.server.session.context.state = .expectFinished ∧ ¬link.Agreed := by
  intro surroundings link
  have client : link.client.session.context.state = .expectServerHello := by decide +kernel
  exact ⟨by decide +kernel, by decide +kernel, client, by decide +kernel,
    fun agreed => absurd (agreed.client.symm.trans client) (by decide)⟩

end SlabFlux.Security.Handshake
