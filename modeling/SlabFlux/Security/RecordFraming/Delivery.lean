import Mathlib.Data.List.GetD
import SlabFlux.Security.RecordFraming.Model

/-!
# When records come out as they were sent

While every frame fits behind the staged bytes, the buffer holds exactly what has been received
of the record in progress.  In any run, the records handed over and the bytes left in the buffer
make up what has been copied; so once bytes of a frame are lost, the records can no longer add
up to the stream.
-/

namespace SlabFlux.Security.RecordFraming

open Lib Memory Receiver

universe u

variable {σ : Type u} {record : Record} {rest : Bytes} {window : View}

/-! ## Extraction -/

theorem get_of_prefix {view : View} {bytes : Bytes} (begins : view.bytes <+: bytes)
    {index : Nat} (inside : index < view.length) : view.get index = bytes.getD index 0 := by
  obtain ⟨rest, rfl⟩ := begins
  have length : view.bytes.length = view.length := length_bytes _ _ _
  have found : (view.memory.bytes 0 view.length).getD index 0 = view.memory (0 + index) :=
    getD_bytes view.memory inside
  rw [Nat.zero_add] at found
  rw [List.getD_append _ _ _ _ (length ▸ inside), View.get, ← found]
  rfl

theorem word16_of_begins {view : View} (begins : view.bytes <+: record.bytes ++ rest)
    (header : 5 ≤ view.length) :
    view.word16 3 = record.body.length := by
  have admitted := record.admitted
  rw [View.word16, get_of_prefix begins (by omega), get_of_prefix begins (by omega)]
  change (BitVec.ofNat 8 (record.body.length / 2 ^ 8)).toNat * 2 ^ 8 +
    (BitVec.ofNat 8 record.body.length).toNat = _
  rw [BitVec.toNat_ofNat, BitVec.toNat_ofNat]
  omega

theorem parseRecord_of_complete (same : window.bytes = record.bytes ++ rest) :
    parseRecord window = .ok ⟨record.contentType, window.slice 5 record.body.length, record.size⟩ ∧
      (window.slice 5 record.body.length).bytes = record.body := by
  have admitted := record.admitted
  have length : window.length = record.size + rest.length := by
    rw [← record.length_bytes, ← List.length_append, ← same]
    exact (length_bytes _ _ _).symm
  have sized : record.size = 5 + record.body.length := rfl
  have begins : window.bytes <+: record.bytes ++ rest := same ▸ List.prefix_rfl
  have field := word16_of_begins begins (by omega)
  constructor
  · rw [parseRecord, if_neg (by omega)]
    rw [field, if_neg (by omega), if_neg (by omega), get_of_prefix begins (by omega)]
    rfl
  · have split : window.memory.bytes 0 5 ++ (window.memory.bytes 5 record.body.length ++
        window.memory.bytes (5 + record.body.length) rest.length) = record.bytes ++ rest := by
      rw [← same, View.bytes, View.window, length, sized, bytes_add, bytes_add,
        Nat.zero_add, Nat.zero_add, List.append_assoc]
    have behind := congrArg (List.drop 5) split
    rw [List.drop_left' (length_bytes _ _ _)] at behind
    have body := List.append_inj_left behind (length_bytes _ _ _)
    rw [View.bytes_slice]
    exact body

theorem parseRecord_of_short (begins : window.bytes <+: record.bytes ++ rest)
    (short : window.length < record.size) :
    parseRecord window = .incomplete := by
  rw [parseRecord]
  split
  · rfl
  · case isFalse header =>
    rw [word16_of_begins begins (Nat.le_of_not_lt header)]
    exact if_pos short

/-- The buffer is too small for a window that the extractor calls malformed. -/
theorem parseRecord_ne_error (small : window.length ≤ rxBufferSize) :
    parseRecord window ≠ .error := by
  intro malformed
  have size : rxBufferSize = 16384 + 256 := rfl
  rw [parseRecord] at malformed
  split at malformed
  · cases malformed
  · dsimp only at malformed
    split at malformed
    · cases malformed
    · split at malformed
      · omega
      · cases malformed

theorem parseRecord_ok {event : RecordEvent} (parsed : parseRecord window = .ok event) :
    event.totalBytesConsumed = 5 + event.ciphertext.bytes.length ∧
      event.totalBytesConsumed ≤ window.length := by
  rw [parseRecord] at parsed
  split at parsed
  · cases parsed
  · dsimp only at parsed
    split at parsed
    · cases parsed
    · case isFalse whole =>
      split at parsed
      · cases parsed
      · cases parsed
        exact ⟨congrArg (5 + ·) (length_bytes _ _ _).symm, Nat.le_of_not_lt whole⟩

theorem bytes_windowAt (receiver : Receiver σ) (offset : Nat) :
    (receiver.windowAt offset).bytes =
      receiver.rxBuffer.bytes offset (receiver.rxBufferLen - offset) :=
  View.bytes_slice _ _ _

/-! ## Streams -/

/-- The bytes end inside the first record, or there is no record and no byte. -/
def Partial (bytes : Bytes) : List Record → Prop
  | [] => bytes = []
  | record :: _ => bytes.length < record.size

/-- The beginning of a stream is some whole records and a part of the next one. -/
theorem split_stream {records : List Record} {front back : Bytes}
    (whole : front ++ back = stream records) :
    ∃ done left rest, records = done ++ left ∧ front = stream done ++ rest ∧
      rest ++ back = stream left ∧ Partial rest left := by
  induction records generalizing front with
  | nil =>
    obtain ⟨rfl, rfl⟩ := List.append_eq_nil_iff.mp whole
    exact ⟨[], [], [], rfl, rfl, rfl, rfl⟩
  | cons record records ih =>
    by_cases short : front.length < record.size
    · exact ⟨[], record :: records, front, rfl, rfl, whole, short⟩
    · have begins : record.bytes <+: front := by
        refine List.prefix_of_prefix_length_le ?_ (List.prefix_append front back) ?_
        · rw [whole]
          exact List.prefix_append _ _
        · rw [record.length_bytes]
          omega
      obtain ⟨more, rfl⟩ := begins
      rw [List.append_assoc] at whole
      obtain ⟨done, left, rest, rfl, rfl, remaining, ends⟩ := ih (List.append_cancel_left whole)
      exact ⟨record :: done, left, rest, rfl, (List.append_assoc _ _ _).symm, remaining, ends⟩

theorem partialLength_append (done left : List Record) (count : Nat) :
    partialLength (done ++ left) ((stream done).length + count) = partialLength left count := by
  induction done with
  | nil => rw [stream, List.flatMap_nil, List.length_nil, Nat.zero_add, List.nil_append]
  | cons record done ih =>
    have size : (stream (record :: done)).length = record.size + (stream done).length := by
      rw [stream, List.flatMap_cons, List.length_append, record.length_bytes]
      rfl
    rw [List.cons_append, partialLength, if_neg (by omega), ← ih]
    congr 1
    omega

theorem partialLength_of_partial {left : List Record} (ends : Partial rest left) :
    partialLength left rest.length = rest.length := by
  cases left with
  | nil => rfl
  | cons record left => exact if_pos ends

/-! ## The loop -/

namespace Receiver

variable (consumer : Consumer σ) {receiver : Receiver σ}

/-- The loop hands over the whole records and stops at the part of the next one. -/
theorem drain_of_stream {records left : List Record} {rest back : Bytes}
    (fuel offset : Nat) (processed : Bool) (inside : offset ≤ receiver.rxBufferLen)
    (enough : receiver.rxBufferLen - offset ≤ fuel)
    (staged : receiver.rxBuffer.bytes offset (receiver.rxBufferLen - offset) =
      stream records ++ rest)
    (continues : rest ++ back = stream left) (ends : Partial rest left) :
    ∃ processed' after, drain consumer fuel offset processed receiver =
        (receiver.rxBufferLen - rest.length, processed', false, after) ∧
      after.handed = receiver.handed ++ records.map Record.content ∧
      after.rxBufferLen = receiver.rxBufferLen ∧
      after.rxBuffer.bytes (receiver.rxBufferLen - rest.length) rest.length = rest := by
  induction records generalizing fuel offset processed receiver with
  | nil =>
    rw [stream, List.flatMap_nil, List.nil_append] at staged
    have length : receiver.rxBufferLen - offset = rest.length := by
      rw [← staged, length_bytes]
    have place : receiver.rxBufferLen - rest.length = offset := by omega
    rw [place]
    refine ⟨processed, receiver, ?_, by simp, rfl, by rw [← length, staged]⟩
    cases fuel with
    | zero => rfl
    | succ fuel =>
      rw [drain]
      split
      · case isTrue some =>
        cases left with
        | nil =>
          rw [show rest = [] from ends, List.length_nil] at length
          omega
        | cons record left =>
          have begins : (receiver.windowAt offset).bytes <+: record.bytes ++ stream left := by
            rw [bytes_windowAt, staged]
            exact ⟨back, continues⟩
          have short : receiver.rxBufferLen - offset < record.size := by
            rw [length]
            exact ends
          rw [parseRecord_of_short begins short]
      · rfl
  | cons record records ih =>
    have first : (receiver.windowAt offset).bytes = record.bytes ++ (stream records ++ rest) := by
      rw [bytes_windowAt, staged, stream, List.flatMap_cons, List.append_assoc]
      rfl
    obtain ⟨parsed, body⟩ := parseRecord_of_complete first
    have length : receiver.rxBufferLen - offset =
        record.size + (stream records ++ rest).length := by
      rw [← record.length_bytes, ← List.length_append, ← first, bytes_windowAt, length_bytes]
    have sized : record.size = 5 + record.body.length := rfl
    obtain ⟨fuel, rfl⟩ : ∃ fewer, fuel = fewer + 1 := ⟨fuel - 1, by omega⟩
    -- what follows the record is not touched by the consumer
    have behind : (receiver.process consumer offset
        ⟨record.contentType, (receiver.windowAt offset).slice 5 record.body.length,
          record.size⟩).rxBuffer.bytes (offset + record.size)
          (receiver.rxBufferLen - (offset + record.size)) = stream records ++ rest := by
      have count : receiver.rxBufferLen - (offset + record.size) =
          (stream records ++ rest).length := by omega
      have old : receiver.rxBuffer.bytes (offset + record.size) (stream records ++ rest).length =
          stream records ++ rest := by
        rw [bytes_windowAt, length, bytes_add] at first
        exact List.append_inj_right first (by rw [length_bytes, record.length_bytes])
      rw [count]
      refine Eq.trans (bytes_congr ?_) old
      intro index _
      exact copy_outside _ _ (.inr (by
        change offset + 5 + record.body.length ≤ _
        omega))
    obtain ⟨processed', after, run, handed, len, kept⟩ := ih fuel (offset + record.size)
      (processed || (consumer.consume ⟨record.contentType,
        (receiver.windowAt offset).slice 5 record.body.length, record.size⟩ receiver.consumer).2)
      (by change offset + record.size ≤ receiver.rxBufferLen; omega)
      (by change receiver.rxBufferLen - (offset + record.size) ≤ fuel; omega) behind
    refine ⟨processed', after, ?_, ?_, len, kept⟩
    · rw [drain, if_pos (by omega), parsed]
      exact run
    · rw [handed, List.map_cons, List.append_cons]
      change (receiver.handed ++ [(record.contentType, _)]) ++ _ = _
      rw [body]
      rfl

/-- How many bytes the records handed over had. -/
def handedSize (receiver : Receiver σ) : Nat :=
  (receiver.handed.map fun entry => 5 + entry.2.length).sum

theorem handedSize_process (receiver : Receiver σ) (offset : Nat) (event : RecordEvent) :
    (receiver.process consumer offset event).handedSize =
      receiver.handedSize + (5 + event.ciphertext.bytes.length) := by
  rw [process]
  simp [handedSize]

/-- Whatever is staged, the loop ends without an error, and the records it hands over are the
bytes it passes. -/
theorem drain_accounts (fuel offset : Nat) (processed : Bool)
    (inside : offset ≤ receiver.rxBufferLen) (small : receiver.rxBufferLen ≤ rxBufferSize) :
    ∃ offset' processed' after,
      drain consumer fuel offset processed receiver = (offset', processed', false, after) ∧
      offset' ≤ receiver.rxBufferLen ∧ after.rxBufferLen = receiver.rxBufferLen ∧
      after.handedSize + offset = receiver.handedSize + offset' := by
  induction fuel generalizing offset processed receiver with
  | zero => exact ⟨offset, processed, receiver, rfl, inside, rfl, rfl⟩
  | succ fuel ih =>
    rw [drain]
    split
    · cases parsed : parseRecord (receiver.windowAt offset) with
      | ok event =>
        obtain ⟨consumed, available⟩ := parseRecord_ok parsed
        change _ ≤ receiver.rxBufferLen - offset at available
        obtain ⟨offset', processed', after, run, inside', len, balance⟩ :=
          ih (offset + event.totalBytesConsumed)
            (processed || (consumer.consume event receiver.consumer).2)
            (show _ ≤ (receiver.process consumer offset event).rxBufferLen by
              change _ ≤ receiver.rxBufferLen
              omega) small
        refine ⟨offset', processed', after, run, inside', len, ?_⟩
        rw [handedSize_process] at balance
        omega
      | incomplete => exact ⟨offset, processed, receiver, rfl, inside, rfl, rfl⟩
      | error =>
        refine absurd parsed (parseRecord_ne_error ?_)
        change receiver.rxBufferLen - offset ≤ _
        omega
    · exact ⟨offset, processed, receiver, rfl, inside, rfl, rfl⟩

theorem rxBufferLen_compact (receiver : Receiver σ) (offset : Nat) :
    (receiver.compact offset).rxBufferLen = receiver.rxBufferLen - offset := by
  rw [compact]
  split
  · rfl
  · case isFalse start => rw [Nat.eq_zero_of_not_pos start, Nat.sub_zero]

theorem handed_compact (receiver : Receiver σ) (offset : Nat) :
    (receiver.compact offset).handed = receiver.handed := by
  rw [compact]
  split <;> rfl

theorem consumer_compact (receiver : Receiver σ) (offset : Nat) :
    (receiver.compact offset).consumer = receiver.consumer := by
  rw [compact]
  split <;> rfl

/-- What is left moves to the front. -/
theorem bytes_compact (receiver : Receiver σ) (offset : Nat) :
    (receiver.compact offset).rxBuffer.bytes 0 (receiver.rxBufferLen - offset) =
      receiver.rxBuffer.bytes offset (receiver.rxBufferLen - offset) := by
  rw [compact]
  split
  · exact bytes_copy _ _ _ _ _
  · case isFalse start => rw [Nat.eq_zero_of_not_pos start]

section Invariant

variable {motive : σ → List (BitVec 8 × Bytes) → Prop} {limit : Nat}
  (kept : ∀ event state handed, event.ciphertext.length ≤ limit → motive state handed →
    motive (consumer.consume event state).1
      (handed ++ [(event.contentType, event.ciphertext.bytes)]))
include kept

/-- What every record keeps of the consumer's state and of the records handed over, the loop
keeps. -/
theorem drain_invariant (fuel offset : Nat) (processed : Bool)
    (small : receiver.rxBufferLen ≤ limit) (holds : motive receiver.consumer receiver.handed) :
    motive (drain consumer fuel offset processed receiver).2.2.2.consumer
      (drain consumer fuel offset processed receiver).2.2.2.handed := by
  induction fuel generalizing offset processed receiver with
  | zero => exact holds
  | succ fuel ih =>
    rw [drain]
    split
    · cases parsed : parseRecord (receiver.windowAt offset) with
      | ok event =>
        obtain ⟨consumed, available⟩ := parseRecord_ok parsed
        change _ ≤ receiver.rxBufferLen - offset at available
        have size : event.ciphertext.bytes.length = event.ciphertext.length := length_bytes _ _ _
        exact ih _ _ small (kept event _ _ (by omega) holds)
      | incomplete => exact holds
      | error => exact holds
    · exact holds

theorem on_invariant {frame : Bytes} (small : receiver.rxBufferLen + frame.length ≤ limit)
    (holds : motive receiver.consumer receiver.handed) :
    motive (receiver.on consumer frame).1.consumer (receiver.on consumer frame).1.handed := by
  rw [on]
  dsimp only
  split
  · exact holds
  · generalize copied : min frame.length (rxBufferSize - receiver.rxBufferLen) = toCopy
    have loop := drain_invariant consumer kept (receiver.stage frame toCopy).rxBufferLen 0 false
      (show (receiver.stage frame toCopy).rxBufferLen ≤ limit by
        change receiver.rxBufferLen + toCopy ≤ limit
        omega) holds
    split
    · exact loop
    · rw [consumer_compact, handed_compact]
      exact loop

end Invariant

/-- In every step, what is handed over and what stays add up to what was copied. -/
theorem on_accounts (small : receiver.rxBufferLen ≤ rxBufferSize) (frame : Bytes) :
    (receiver.on consumer frame).1.rxBufferLen ≤ rxBufferSize ∧
      (receiver.on consumer frame).1.handedSize + (receiver.on consumer frame).1.rxBufferLen =
        receiver.handedSize + receiver.rxBufferLen +
          min frame.length (rxBufferSize - receiver.rxBufferLen) := by
  rw [on]
  dsimp only
  split
  · case isTrue nothing =>
    rw [nothing]
    exact ⟨small, rfl⟩
  · generalize copied : min frame.length (rxBufferSize - receiver.rxBufferLen) = toCopy
    have len : (receiver.stage frame toCopy).rxBufferLen = receiver.rxBufferLen + toCopy := rfl
    obtain ⟨offset, processed, after, run, inside, same, balance⟩ :=
      drain_accounts consumer (receiver.stage frame toCopy).rxBufferLen 0 false (Nat.zero_le _)
        (show (receiver.stage frame toCopy).rxBufferLen ≤ rxBufferSize by omega)
    rw [run]
    dsimp only
    rw [if_neg Bool.false_ne_true, rxBufferLen_compact, handedSize, handed_compact, ← handedSize]
    have kept : (receiver.stage frame toCopy).handedSize = receiver.handedSize := rfl
    omega

theorem receive_accounts (small : receiver.rxBufferLen ≤ rxBufferSize) (frames : List Bytes) :
    (receiver.receive consumer frames).handedSize + (receiver.receive consumer frames).rxBufferLen ≤
      receiver.handedSize + receiver.rxBufferLen + frames.flatten.length := by
  induction frames generalizing receiver with
  | nil => exact Nat.le_refl _
  | cons frame frames ih =>
    obtain ⟨small', balance⟩ := on_accounts consumer small frame
    have later := ih small'
    rw [List.flatten_cons, List.length_append]
    rw [receive, List.foldl_cons, ← receive]
    omega

end Receiver

/-! ## Runs -/

/-- The receiver has handed over some records and has staged a part of the next one. -/
def Tracks (records : List Record) (receiver : Receiver σ) (received : Nat)
    (upcoming : Bytes) : Prop :=
  ∃ done left rest, records = done ++ left ∧ receiver.handed = done.map Record.content ∧
    receiver.rxBufferLen = rest.length ∧ receiver.rxBuffer.bytes 0 rest.length = rest ∧
    rest ++ upcoming = stream left ∧ Partial rest left ∧
    received = (stream done).length + rest.length

variable {consumer : Consumer σ} {records : List Record} {receiver : Receiver σ} {received : Nat}
variable {frame upcoming : Bytes}

/-- What is staged is the part of the record in progress. -/
theorem Tracks.rxBufferLen_eq (tracks : Tracks records receiver received upcoming) :
    receiver.rxBufferLen = partialLength records received := by
  obtain ⟨done, left, rest, rfl, -, len, -, -, ends, rfl⟩ := tracks
  rw [partialLength_append, partialLength_of_partial ends, len]

theorem tracks_fresh (records : List Record) (rxBuffer : Memory) (state : σ) :
    Tracks records (fresh rxBuffer state) 0 (stream records) := by
  refine ⟨[], records, [], rfl, rfl, rfl, rfl, rfl, ?_, rfl⟩
  cases records with
  | nil => rfl
  | cons record records =>
    change 0 < 5 + record.body.length
    omega

/-- A frame that fits is received whole. -/
theorem Tracks.on (tracks : Tracks records receiver received (frame ++ upcoming))
    (fits : receiver.rxBufferLen + frame.length ≤ rxBufferSize) :
    Tracks records (receiver.on consumer frame).1 (received + frame.length) upcoming := by
  have copied : min frame.length (rxBufferSize - receiver.rxBufferLen) = frame.length := by omega
  rw [Receiver.on]
  dsimp only
  rw [copied]
  obtain ⟨done, left, rest, rfl, handed, len, staged, continues, ends, rfl⟩ := tracks
  split
  · case isTrue nothing =>
    obtain rfl := List.eq_nil_of_length_eq_zero nothing
    exact ⟨done, left, rest, rfl, handed, len, staged, continues, ends, rfl⟩
  · rw [← List.append_assoc] at continues
    obtain ⟨done', left', rest', rfl, front, continues', ends'⟩ := split_stream continues
    have whole : (receiver.stage frame frame.length).rxBuffer.bytes 0
        ((receiver.stage frame frame.length).rxBufferLen - 0) = stream done' ++ rest' := by
      rw [Nat.sub_zero, stage]
      rw [bytes_copy_append, ← front, len, staged]
    have length : receiver.rxBufferLen + frame.length = (stream done').length + rest'.length := by
      rw [len, ← List.length_append, ← List.length_append, front]
    obtain ⟨processed, after, run, handed', len', kept⟩ := drain_of_stream consumer
      (receiver.stage frame frame.length).rxBufferLen 0 false (Nat.zero_le _) (Nat.le_refl _) whole
      continues' ends'
    rw [run]
    change after.rxBufferLen = receiver.rxBufferLen + frame.length at len'
    change after.rxBuffer.bytes (receiver.rxBufferLen + frame.length - rest'.length) _ = _ at kept
    change Tracks _ (after.compact (receiver.rxBufferLen + frame.length - rest'.length)) _ _
    have remaining : after.rxBufferLen - (receiver.rxBufferLen + frame.length - rest'.length) =
        rest'.length := by omega
    refine ⟨done ++ done', left', rest', (List.append_assoc _ _ _).symm, ?_, ?_, ?_, continues',
      ends', ?_⟩
    · rw [handed_compact, handed', List.map_append, ← handed]
      rfl
    · rw [rxBufferLen_compact, remaining]
    · have moved := bytes_compact after
        (receiver.rxBufferLen + frame.length - rest'.length)
      rw [remaining, kept] at moved
      exact moved
    · have split : (stream (done ++ done')).length =
          (stream done).length + (stream done').length := by
        rw [stream, List.flatMap_append, List.length_append]
        rfl
      omega

variable {frames : List Bytes}

/-- When all frames fit, every record is handed over. -/
theorem handed_of_fits (tracks : Tracks records receiver received frames.flatten)
    (fits : FitsFrom records received frames) :
    (receiver.receive consumer frames).handed = records.map Record.content := by
  induction frames generalizing receiver received with
  | nil =>
    obtain ⟨done, left, rest, rfl, handed, -, -, continues, ends, -⟩ := tracks
    rw [List.flatten_nil, List.append_nil] at continues
    cases left with
    | nil => rw [List.append_nil]; exact handed
    | cons record left =>
      -- a part of a record is shorter than what is still to come
      have short : rest.length < record.size := ends
      rw [continues, stream, List.flatMap_cons, List.length_append, record.length_bytes] at short
      omega
  | cons frame frames ih =>
    obtain ⟨here, later⟩ := fits
    rw [← tracks.rxBufferLen_eq] at here
    exact ih (tracks.on here) later

/-- When no byte is lost, all frames fit. -/
theorem fits_of_accounts (tracks : Tracks records receiver received frames.flatten)
    (small : receiver.rxBufferLen ≤ rxBufferSize)
    (lossless : receiver.handedSize + receiver.rxBufferLen + frames.flatten.length ≤
      (receiver.receive consumer frames).handedSize +
        (receiver.receive consumer frames).rxBufferLen) :
    FitsFrom records received frames := by
  induction frames generalizing receiver received with
  | nil => exact trivial
  | cons frame frames ih =>
    obtain ⟨small', balance⟩ := on_accounts consumer small frame
    have bound := receive_accounts consumer small' frames
    rw [List.flatten_cons, List.length_append, receive, List.foldl_cons, ← receive] at lossless
    have here : receiver.rxBufferLen + frame.length ≤ rxBufferSize := by omega
    refine ⟨tracks.rxBufferLen_eq ▸ here, ih (tracks.on here) small' (by omega)⟩

theorem handedSize_of_records (handed : receiver.handed = records.map Record.content) :
    receiver.handedSize = (stream records).length := by
  rw [handedSize, handed, List.map_map, stream, List.length_flatMap]
  congr 1
  apply List.map_congr_left
  intro record _
  exact record.length_bytes.symm

theorem fits_of_handed (rxBuffer : Memory) (state : σ) (division : frames.flatten = stream records)
    (handed : ((fresh rxBuffer state).receive consumer frames).handed =
      records.map Record.content) : FitsFrom records 0 frames := by
  have tracks := tracks_fresh records rxBuffer state
  rw [← division] at tracks
  apply fits_of_accounts tracks (Nat.zero_le _)
  rw [handedSize_of_records handed, division]
  change 0 + 0 + _ ≤ _
  omega

/-- However the stream of any records is divided into frames, the records come out as they
were sent exactly when every frame fits behind what is staged of the record in progress. -/
theorem handed_eq_iff (consumer : Consumer σ) (rxBuffer : Memory) (state : σ)
    (records : List Record) (frames : List Bytes)
    (division : frames.flatten = stream records) :
    ((fresh rxBuffer state).receive consumer frames).handed = records.map Record.content ↔
      FitsFrom records 0 frames := by
  constructor
  · exact fits_of_handed rxBuffer state division
  · intro fits
    have tracks := tracks_fresh records rxBuffer state
    rw [← division] at tracks
    exact handed_of_fits tracks fits

/-- A consumer that leaves the records alone. -/
def idleConsumer : Consumer Unit where
  consume := fun _ _ => ((), false)
  overwrite := fun event _ => event.ciphertext.memory

/-- Two records in frames that end inside them. -/
def twoRecords : List Record :=
  [⟨22, (3, 1), [1, 2, 3], by decide⟩, ⟨23, (3, 3), [4], by decide⟩]

theorem handed_eq_iff_twoRecords :
    [[22, 3], [1, 0, 3, 1, 2], [3, 23, 3, 3, 0, 1, 4]].flatten = stream twoRecords ∧
      ((fresh (fun _ => 0) ()).receive idleConsumer
        [[22, 3], [1, 0, 3, 1, 2], [3, 23, 3, 3, 0, 1, 4]]).handed =
          [(22, [1, 2, 3]), (23, [4])] := by
  refine ⟨by decide, ?_⟩
  exact (handed_eq_iff idleConsumer (fun _ => 0) () twoRecords
    [[22, 3], [1, 0, 3, 1, 2], [3, 23, 3, 3, 0, 1, 4]] (by decide)).mpr
    ⟨by decide, by decide, by decide, trivial⟩

/-- A record of the largest size that the extractor admits. -/
def largestRecord : Record := ⟨23, (3, 3), List.replicate (16384 + 256) 0,
  Nat.le_of_eq List.length_replicate⟩

/-- The buffer has no room for the header of such a record: it never comes out. -/
theorem largestRecord_not_handed :
    ((fresh (fun _ => 0) ()).receive idleConsumer [largestRecord.bytes]).handed ≠
      [largestRecord].map Record.content := by
  intro handed
  have division : [largestRecord.bytes].flatten = stream [largestRecord] := by
    rw [stream, List.flatMap_singleton, List.flatten_singleton]
  have size : largestRecord.bytes.length = 5 + (16384 + 256) := by
    rw [Record.length_bytes, Record.size, largestRecord, List.length_replicate]
  have room : rxBufferSize = 16384 + 256 := rfl
  have fits := (fits_of_handed (fun _ => 0) () division handed).1
  omega

end SlabFlux.Security.RecordFraming
