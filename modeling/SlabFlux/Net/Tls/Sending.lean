import SlabFlux.Net.Tcp.Sending.Faithfulness
import SlabFlux.Net.Tls.Nonce

/-!
# Records on the TCP stream

`virtual_tls_socket::send` encrypts a record, which takes a record number, and gives the record
to `virtual_tcp_socket::send`, which takes as much of it as the windows and the pool allow.  The
record number is taken in any case.  So a call is all or nothing exactly if TCP takes the whole
record and has room for its segments in both rings.
-/

namespace SlabFlux.Net.Tcp

open Lib

variable {Mbuf : Type} {tcb : Tcb Mbuf}

/-- Bytes enter the stream: segments with these bytes follow one another from `snd_nxt` on. -/
def Enters (tcb after : Tcb Mbuf) (bytes : Bytes) : Prop :=
  ∃ waiting segments, tcb.txEgressConduit = some waiting ∧
    after.txEgressConduit = some (waiting ++ segments) ∧
    segments.flatMap Frame.payload = bytes ∧ Consecutive tcb.sndNxt segments ∧
    after.sndNxt = tcb.sndNxt + BitVec.ofNat 32 bytes.length

theorem Enters.refl (wired : tcb.txEgressConduit.isSome) : Enters tcb tcb [] := by
  obtain ⟨waiting, wired⟩ := Option.isSome_iff_exists.mp wired
  exact ⟨waiting, [], wired, by rw [wired, List.append_nil], rfl, trivial, (BitVec.add_zero _).symm⟩

theorem Enters.append {tcb middle after : Tcb Mbuf} {bytes more : Bytes}
    (first : Enters tcb middle bytes) (second : Enters middle after more) :
    Enters tcb after (bytes ++ more) := by
  obtain ⟨waiting, segments, wired, passed, rfl, consecutive, advanced⟩ := first
  obtain ⟨waiting', later, wired', passed', rfl, consecutive', advanced'⟩ := second
  obtain rfl := Option.some.inj (passed.symm.trans wired')
  refine ⟨waiting, segments ++ later, wired, by rw [passed', List.append_assoc],
    List.flatMap_append, consecutive_append consecutive (advanced ▸ consecutive'), ?_⟩
  rw [advanced', advanced, List.length_append, BitVec.ofNat_add, BitVec.add_assoc]

theorem enters_sendChunk (wired : tcb.txEgressConduit.isSome) (fresh : tcb.isProbe = false)
    {chunk : Bytes} (short : chunk.length ≤ 1460) :
    Enters tcb (tcb.sendChunk chunk) chunk := by
  obtain ⟨waiting, wired⟩ := Option.isSome_iff_exists.mp wired
  have seq : tcb.outboundSeq = tcb.sndNxt := by
    unfold Tcb.outboundSeq
    rw [fresh]
    rfl
  have advanced := sndNxt_sendChunk tcb short
  rw [fresh] at advanced
  refine ⟨waiting, [tcb.dataFrame chunk], wired, ?_, List.append_nil chunk, ⟨seq, trivial⟩,
    advanced⟩
  rw [(rings_sendChunk tcb short).2, wired]
  rfl

/-- How many bytes the loop of `send` takes. -/
theorem count_sendChunks (mss buffers : Nat) (bytes : Bytes) (tcb : Tcb Mbuf) :
    (Tcb.sendChunks mss buffers bytes tcb).2 = min bytes.length (buffers * mss) := by
  induction buffers generalizing bytes tcb with
  | zero => simp [Tcb.sendChunks]
  | succ buffers ih =>
      rw [Tcb.sendChunks]
      by_cases empty : bytes = []
      · simp [empty]
      · rw [if_neg empty]
        dsimp only
        rw [ih, List.length_take, List.length_drop, Nat.succ_mul]
        omega

/-- What the loop of `send` takes enters the stream, if no probe is pending. -/
theorem enters_sendChunks {mss : Nat} (short : mss ≤ 1460) (buffers : Nat) (bytes : Bytes)
    (wired : tcb.txEgressConduit.isSome) (fresh : tcb.isProbe = false) :
    Enters tcb (Tcb.sendChunks mss buffers bytes tcb).1
      (bytes.take (Tcb.sendChunks mss buffers bytes tcb).2) := by
  induction buffers generalizing bytes tcb with
  | zero => exact .refl wired
  | succ buffers ih =>
      rw [Tcb.sendChunks]
      by_cases empty : bytes = []
      · rw [if_pos empty]
        exact .refl wired
      · rw [if_neg empty]
        have within : (bytes.take mss).length ≤ 1460 := (List.length_take_le mss bytes).trans short
        have passed : (tcb.sendChunk (bytes.take mss)).txEgressConduit.isSome := by
          rw [(rings_sendChunk tcb within).2, Option.isSome_map]
          exact wired
        have whole := (enters_sendChunk wired fresh within).append
          (ih (bytes.drop mss) passed (isProbe_sendChunk tcb (bytes.take mss)))
        rw [← List.take_length_add_append, List.take_append_drop] at whole
        exact whole

/-- What `send` takes enters the stream, if no probe is pending. -/
theorem enters_send (platform : Platform) {buffer : Bytes}
    (busy : 0 < tcb.toSend buffer.length) (wired : tcb.txEgressConduit.isSome)
    (fresh : tcb.isProbe = false) :
    Enters tcb (tcb.send platform buffer).1
      (buffer.take (min (tcb.toSend buffer.length) (platform.buffers * tcb.effectiveMss))) := by
  have within := toSend_le tcb buffer.length
  have enters : Enters tcb.quiet _ _ := enters_sendChunks (effectiveMss_bounds tcb).2
    platform.buffers (buffer.take (tcb.toSend buffer.length)) wired
    ((isProbe_quiet tcb).trans fresh)
  rw [count_sendChunks, List.take_take, List.length_take, Nat.min_eq_left within,
    Nat.min_right_comm, Nat.min_self] at enters
  rw [(send_of_toSend platform busy).1]
  exact enters

theorem count_send (platform : Platform) {buffer : Bytes} (busy : 0 < tcb.toSend buffer.length) :
    (tcb.send platform buffer).2 =
      some (min (tcb.toSend buffer.length) (platform.buffers * tcb.effectiveMss)) := by
  rw [(send_of_toSend platform busy).1, count_sendChunks, List.length_take,
    Nat.min_eq_left (toSend_le tcb buffer.length)]

/-- The bytes that enter the stream are those of the segments. -/
theorem Enters.unique {tcb after : Tcb Mbuf} {bytes other : Bytes}
    (first : Enters tcb after bytes) (second : Enters tcb after other) : bytes = other := by
  obtain ⟨waiting, segments, wired, passed, rfl, -⟩ := first
  obtain ⟨waiting', segments', wired', passed', rfl, -⟩ := second
  obtain rfl := Option.some.inj (wired.symm.trans wired')
  rw [List.append_cancel_left (Option.some.inj (passed.symm.trans passed'))]

/-- A call that puts something into the stream has something to send, and does not number it
like a probe. -/
theorem Enters.fresh {platform : Platform} {buffer bytes : Bytes}
    (enters : Enters tcb (tcb.send platform buffer).1 bytes) (some : bytes ≠ []) :
    0 < tcb.toSend buffer.length ∧ tcb.isProbe = false := by
  obtain ⟨waiting, segments, wired, passed, rfl, consecutive, -⟩ := enters
  have unchanged (same : (tcb.send platform buffer).1.txEgressConduit = tcb.txEgressConduit) :
      False := by
    rw [same, wired] at passed
    rw [List.self_eq_append_right.mp (Option.some.inj passed)] at some
    exact some rfl
  have busy : 0 < tcb.toSend buffer.length := by
    by_contra idle
    exact unchanged (send_idle platform (Nat.eq_zero_of_not_pos idle)).2.2.2.1
  have result := (send_of_toSend platform busy).1
  refine ⟨busy, ?_⟩
  obtain ⟨positive, short⟩ := effectiveMss_bounds tcb
  cases more : platform.buffers with
  | zero =>
      rw [more] at result
      exact (unchanged (by rw [result]; rfl)).elim
  | succ buffers =>
      obtain ⟨-, later, sent⟩ := first_sendChunks positive short buffers (take_toSend_ne_nil busy)
        (show tcb.quiet.txEgressConduit = Option.some waiting from wired)
      rw [result, more, sent] at passed
      obtain rfl := List.append_cancel_left (Option.some.inj passed)
      rw [← isProbe_quiet]
      exact isProbe_of_outboundSeq consecutive.1

/-- A window that is large enough admits the whole buffer. -/
theorem toSend_of_window {length : Nat} (established : tcb.isEstablished = true)
    (window : length ≤ tcb.usableWindow.toNat) : tcb.toSend length = length := by
  have worth : tcb.avoidsSillyWindow length = false :=
    decide_eq_false fun silly => Nat.not_lt.mpr window silly.2.2
  rw [Tcb.toSend, if_neg (by simp [established, worth]), Nat.min_eq_left window]

/-- The whole buffer enters the stream exactly if the window and the pool admit it. -/
theorem enters_send_iff (platform : Platform) {buffer : Bytes}
    (established : tcb.isEstablished = true) (some : buffer ≠ []) :
    Enters tcb (tcb.send platform buffer).1 buffer ↔
      tcb.txEgressConduit.isSome ∧ tcb.isProbe = false ∧ buffer.length ≤ tcb.usableWindow.toNat ∧
        buffer.length ≤ platform.buffers * tcb.effectiveMss := by
  constructor
  · intro enters
    obtain ⟨busy, fresh⟩ := enters.fresh some
    have wired : tcb.txEgressConduit.isSome := by
      obtain ⟨waiting, -, wired, -⟩ := enters
      rw [wired]
      rfl
    have all := enters.unique (enters_send platform busy wired fresh)
    have count := congrArg List.length all
    rw [List.length_take] at count
    have window := (send_of_toSend platform busy).2
    exact ⟨wired, fresh, by omega, by omega⟩
  · rintro ⟨wired, fresh, window, pool⟩
    have whole := toSend_of_window established window
    have busy : 0 < tcb.toSend buffer.length := by
      rw [whole]
      exact List.length_pos_iff.mpr some
    have enters := enters_send platform busy wired fresh
    rwa [whole, Nat.min_eq_left pool, List.take_length] at enters

end SlabFlux.Net.Tcp

namespace SlabFlux.Net.Tls

open Lib Lib.Simd Lib.Reservation SlabFlux.Core.SpscRingConduit Net.Tcp VirtualTlsSocket

variable {Mbuf : Type} (aes : AesInstructions)

/-! ## The length of a record -/

namespace AesGcm128Engine

variable (engine : AesGcm128Engine)

theorem length_encryptChunk (nonce tmp : Bytes) (c32 : BitVec 32) {count : Nat}
    (within : count ≤ 16) (state : RecordState) :
    (encryptChunk aes engine nonce tmp c32 count state).ciphertext.length =
      state.ciphertext.length + count := by
  simp [encryptChunk, store, within]

theorem length_encryptPayload (nonce plaintext : Bytes) (innerType : BitVec 8)
    (state : RecordState) :
    (encryptPayload aes engine nonce plaintext innerType state).ciphertext.length =
      state.ciphertext.length + plaintext.length + 1 := by
  have whole (blocks : Nat) :
      ((List.range blocks).foldl
        (fun state index =>
          encryptChunk aes engine nonce (wholeBlock plaintext innerType index)
            (BitVec.ofNat 32 (index + 2)) 16 state) state).ciphertext.length =
        state.ciphertext.length + 16 * blocks := by
    induction blocks with
    | zero => rfl
    | succ blocks ih =>
        rw [List.range_succ, List.foldl_append, List.foldl_cons, List.foldl_nil,
          length_encryptChunk aes engine nonce _ _ (Nat.le_refl 16), ih]
        omega
  unfold encryptPayload
  dsimp only
  split
  · rw [length_encryptChunk aes engine nonce _ _ (by omega), whole]
    omega
  · rw [whole]
    omega

theorem length_ciphertext (plaintext : Bytes) (innerType : BitVec 8) :
    (engine.encryptRecord aes plaintext innerType).ciphertext.length = plaintext.length + 17 := by
  simp [encryptRecord, length_encryptPayload, store]

end AesGcm128Engine

/-! ## One call -/

namespace VirtualTlsSocket

/-- The record of a payload. -/
def record (engine : AesGcm128Engine) (buffer : Bytes) : Bytes :=
  recordHeader buffer.length ++ (engine.encryptRecord aes buffer 0x17).ciphertext

theorem length_record (engine : AesGcm128Engine) (buffer : Bytes) :
    (record aes engine buffer).length = buffer.length + 22 := by
  simp [record, recordHeader, AesGcm128Engine.length_ciphertext]

variable (platform : Platform)

/-- Either the record enters the stream as a whole and overwrites nothing that waits in a ring,
takes its number, and the caller is told a number that is not below the length of the payload; or
nothing enters the stream, and the next record has the number that the peer expects.  `egress` are
the cursors of the egress conduit. -/
def AllOrNothing (socket : VirtualTlsSocket Mbuf) (egress : Cursors) (buffer : Bytes) :
    Prop :=
  Enters socket.tcp (socket.send aes platform buffer).1.tcp
      (record aes socket.txEngine buffer) ∧
    (TransmitOperation.send (record aes socket.txEngine buffer)).SparesRings platform socket.tcp
      egress ∧
    (socket.send aes platform buffer).1.txEngine.sequenceNumber =
      socket.txEngine.sequenceNumber + 1 ∧
    (∃ count, (socket.send aes platform buffer).2 = some count ∧ buffer.length ≤ count) ∨
  (socket.send aes platform buffer).1.tcp.txEgressConduit = socket.tcp.txEgressConduit ∧
    (socket.send aes platform buffer).1.txEngine.sequenceNumber = socket.txEngine.sequenceNumber

/-- TCP takes the whole record: segments can be sent, no probe is pending, and neither the window
nor the pool is too small. -/
def Taken (socket : VirtualTlsSocket Mbuf) (buffer : Bytes) : Prop :=
  socket.tcp.txEgressConduit.isSome ∧ socket.tcp.isProbe = false ∧
    buffer.length + 22 ≤ socket.tcp.usableWindow.toNat ∧
    buffer.length + 22 ≤ platform.buffers * socket.tcp.effectiveMss

/-- The connection admits the record: TCP takes it, and both rings have room for its segments. -/
def Admits (socket : VirtualTlsSocket Mbuf) (egress : Cursors) (buffer : Bytes) : Prop :=
  socket.Taken platform buffer ∧
    (TransmitOperation.send (record aes socket.txEngine buffer)).HasRoom platform socket.tcp egress

instance (socket : VirtualTlsSocket Mbuf) (egress : Cursors) (buffer : Bytes) :
    Decidable (socket.Admits aes platform egress buffer) :=
  inferInstanceAs
    (Decidable ((_ ∧ _ ∧ _ ∧ _) ∧ _ ≤ capacity ∧ ∀ ring ∈ socket.tcp.txUnackedRing, _ ≤ capacity))

variable {aes platform} {socket : VirtualTlsSocket Mbuf} {egress : Cursors}
variable {buffer : Bytes}

section

variable (encrypts : socket.encrypts buffer = true)
include encrypts

theorem send_eq :
    socket.send aes platform buffer = ({ socket with
          tcp := (socket.tcp.send platform (record aes socket.txEngine buffer)).1
          txEngine := socket.txEngine.atSequence (socket.txEngine.sequenceNumber + 1) },
        (socket.tcp.send platform (record aes socket.txEngine buffer)).2) := by
  rw [send, if_pos encrypts]
  rfl

theorem enters_record_iff :
    Enters socket.tcp (socket.send aes platform buffer).1.tcp
        (record aes socket.txEngine buffer) ↔ socket.Taken platform buffer := by
  have some : record aes socket.txEngine buffer ≠ [] := by
    rw [← List.length_pos_iff, length_record]
    omega
  rw [send_eq encrypts, Taken, ← length_record aes socket.txEngine buffer]
  exact enters_send_iff platform (of_decide_eq_true encrypts).1 some

theorem allOrNothing_iff (egressFits : egress.Fits capacity)
    (unackedFits : ∀ ring ∈ socket.tcp.txUnackedRing, (cursorsOf ring).Fits capacity) :
    socket.AllOrNothing aes platform egress buffer ↔
      socket.Admits aes platform egress buffer := by
  rw [AllOrNothing, enters_record_iff encrypts,
    sparesRings_send_iff platform socket.tcp _ egressFits unackedFits]
  constructor
  · rintro (⟨taken, room, -⟩ | ⟨-, number⟩)
    · exact ⟨taken, room⟩
    · -- the number is taken before TCP decides
      rw [send_eq encrypts] at number
      have next := congrArg BitVec.toNat number
      change (socket.txEngine.sequenceNumber + 1).toNat = _ at next
      rw [BitVec.toNat_add] at next
      have one : (1 : BitVec 64).toNat = 1 := rfl
      omega
  · rintro ⟨taken, room⟩
    refine .inl ⟨taken, room, by rw [send_eq encrypts]; rfl, ?_⟩
    obtain ⟨-, -, window, pool⟩ := taken
    rw [← length_record aes socket.txEngine buffer] at window pool
    have whole := toSend_of_window (of_decide_eq_true encrypts).1 window
    have length := length_record aes socket.txEngine buffer
    refine ⟨(record aes socket.txEngine buffer).length, ?_, by omega⟩
    rw [send_eq encrypts]
    rw [count_send platform (by omega), whole, Nat.min_eq_left pool]

end

end VirtualTlsSocket

/-! ## The stream -/

/-- A socket, with the bytes that its calls have put into the stream. -/
structure SendingSide (Mbuf : Type) where
  socket : VirtualTlsSocket Mbuf
  stream : Bytes

/-- A call of `send`, with the block and the cursors of the egress conduit as it finds them:
acknowledgements, time and other calls have changed them since the last one. -/
structure SendCall (Mbuf : Type) where
  tcb : Tcb Mbuf
  egress : Cursors
  platform : Platform
  buffer : Bytes

/-- The payload of the segments that a call adds. -/
def entered (before after : Tcb Mbuf) : Bytes :=
  ((after.txEgressConduit.getD []).drop (before.txEgressConduit.getD []).length).flatMap
    Frame.payload

theorem entered_eq {before after : Tcb Mbuf} {bytes : Bytes}
    (enters : Enters before after bytes) : entered before after = bytes := by
  obtain ⟨waiting, segments, wired, passed, rfl, -⟩ := enters
  simp [entered, wired, passed]

namespace SendingSide

/-- The socket that a call finds. -/
def found (state : SendingSide Mbuf) (call : SendCall Mbuf) : VirtualTlsSocket Mbuf :=
  { state.socket with tcp := call.tcb }

def send (state : SendingSide Mbuf) (call : SendCall Mbuf) : SendingSide Mbuf :=
  let after := ((state.found call).send aes call.platform call.buffer).1
  { socket := after, stream := state.stream ++ entered call.tcb after.tcp }

/-- The connection is established, the payload is not too long, and the record is admitted. -/
def Admitted (state : SendingSide Mbuf) (call : SendCall Mbuf) : Prop :=
  (state.found call).encrypts call.buffer = true ∧
    (state.found call).Admits aes call.platform call.egress call.buffer

end SendingSide

/-- Records one after the other, with consecutive numbers. -/
def records : AesGcm128Engine → List Bytes → Bytes
  | _, [] => []
  | engine, buffer :: later =>
      record aes engine buffer ++ records (engine.atSequence (engine.sequenceNumber + 1)) later

theorem stream_execute (calls : List (SendCall Mbuf)) {state : SendingSide Mbuf}
    (admitted : Admissible (SendingSide.send aes) (SendingSide.Admitted aes) state calls) :
    (execute (SendingSide.send aes) state calls).stream =
      state.stream ++ records aes state.socket.txEngine (calls.map SendCall.buffer) := by
  induction calls generalizing state with
  | nil => simp [records]
  | cons call calls ih =>
      obtain ⟨⟨encrypts, taken, -⟩, later⟩ := admitted
      rw [execute_cons, ih later, List.map_cons, records, ← List.append_assoc]
      have enters : Enters call.tcb ((state.found call).send aes call.platform call.buffer).1.tcp
          (record aes state.socket.txEngine call.buffer) :=
        (enters_record_iff encrypts).mpr taken
      have engine : (SendingSide.send aes state call).socket.txEngine =
          state.socket.txEngine.atSequence (state.socket.txEngine.sequenceNumber + 1) := by
        unfold SendingSide.send
        rw [send_eq encrypts]
        rfl
      rw [engine, ← entered_eq enters]
      rfl

/-- A call of `send` is all or nothing exactly if TCP takes the whole record and the rings have
room for it, and where all calls are like that, the stream is made of whole records with
consecutive numbers. -/
theorem send_allOrNothing :
    (∀ (platform : Platform) (socket : VirtualTlsSocket Mbuf) (egress : Cursors)
        (buffer : Bytes), egress.Fits capacity →
      (∀ ring ∈ socket.tcp.txUnackedRing, (cursorsOf ring).Fits capacity) →
      socket.encrypts buffer = true →
        (socket.AllOrNothing aes platform egress buffer ↔
          socket.Admits aes platform egress buffer)) ∧
    ∀ (socket : VirtualTlsSocket Mbuf) (calls : List (SendCall Mbuf)),
      Admissible (SendingSide.send aes) (SendingSide.Admitted aes) ⟨socket, []⟩ calls →
        (execute (SendingSide.send aes) ⟨socket, []⟩ calls).stream =
          records aes socket.txEngine (calls.map SendCall.buffer) :=
  ⟨fun _ _ _ _ egressFits unackedFits encrypts => allOrNothing_iff encrypts egressFits unackedFits,
    fun _ calls => stream_execute aes calls⟩

/-- A connection with keys. -/
def keyedSocket (tcb : Tcb Unit) : VirtualTlsSocket Unit :=
  let engine := AesGcm128Engine.setKey .identity (.replicate 16 0) (.replicate 12 0)
  ⟨tcb, engine, engine⟩

/-- A call that finds two entries in the egress conduit. -/
def talkingCall (tcb : Tcb Unit) (buffer : Bytes) : SendCall Unit :=
  ⟨tcb, ⟨2, 0⟩, {}, buffer⟩

/-- Two records, the second of them after the first has been acknowledged. -/
theorem send_allOrNothing_talking :
    let calls := [talkingCall talking [0x41],
      talkingCall { talking with sndUna := 1023, sndNxt := 1023 } [0x42, 0x43]]
    Admissible (SendingSide.send .identity) (SendingSide.Admitted .identity)
        ⟨keyedSocket talking, []⟩ calls ∧
      (execute (SendingSide.send .identity) ⟨keyedSocket talking, []⟩ calls).stream =
        records .identity (keyedSocket talking).txEngine [[0x41], [0x42, 0x43]] := by
  intro calls
  have admitted : Admissible (SendingSide.send .identity) (SendingSide.Admitted .identity)
      ⟨keyedSocket talking, []⟩ calls :=
    ⟨⟨by decide, by decide +kernel⟩, ⟨by decide, by decide +kernel⟩, trivial⟩
  exact ⟨admitted, (send_allOrNothing .identity).2 _ calls admitted⟩

/-- A connection whose window has room for 30 bytes. -/
def narrowSocket : VirtualTlsSocket Unit := keyedSocket { talking with sndWnd := 30 }

/-- Of the record of ten bytes, 30 of 32 bytes enter the stream; the next call puts the start of
record number one behind them. -/
theorem not_allOrNothing_narrow :
    narrowSocket.encrypts (.replicate 10 0x41) = true ∧
      (narrowSocket.send .identity {} (.replicate 10 0x41)).2 = some 30 ∧
      ¬narrowSocket.AllOrNothing .identity {} ⟨0, 0⟩ (.replicate 10 0x41) := by
  have encrypts : narrowSocket.encrypts (.replicate 10 0x41) = true := by decide
  refine ⟨encrypts, by decide, ?_⟩
  rw [AllOrNothing, enters_record_iff encrypts]
  rintro (⟨⟨-, -, window, -⟩, -⟩ | ⟨-, number⟩)
  · exact absurd window (by decide)
  · exact absurd number (by decide)

end SlabFlux.Net.Tls
