import SlabFlux.Lib.View

/-!
# Records out of stream frames

`tls_record_extractor::parse`, and `tls_record_layer::on`, which stages the bytes of the
connection's stream frames in a buffer of 16640 bytes and hands every complete record to
`process_record`.  Here `process_record` is any consumer: it has a state of its own and may
overwrite the record's body, which it decrypts in place.

A frame that does not fit behind the bytes already staged is cut off, and the rest of it is
lost.  Records come out as they were sent exactly when that never happens.
-/

namespace SlabFlux.Security

open Lib

universe u

/-- `tls_record_event`. -/
structure RecordEvent where
  contentType : BitVec 8
  ciphertext : View
  totalBytesConsumed : Nat

/-- The outcomes of `parse`. -/
inductive ParserStatus where
  | ok (event : RecordEvent)
  | incomplete
  | error

/-- `tls_record_extractor::parse`. -/
def parseRecord (window : View) : ParserStatus :=
  if window.length < 5 then .incomplete
  else
    let length := window.word16 3
    if window.length < 5 + length then .incomplete
    else if 16384 + 256 < length then .error
    else .ok ⟨window.get 0, window.slice 5 length, 5 + length⟩

namespace RecordFraming

variable {σ : Type u}

/-- `process_record`: what it does to its own state, its result, and what it leaves in the
bytes of the record's body. -/
structure Consumer (σ : Type u) where
  consume : RecordEvent → σ → σ × Bool
  overwrite : RecordEvent → σ → Memory

/-- The receiving side of a `tls_session_block`, the consumer's state, and the content type and
body of every record handed to the consumer so far. -/
structure Receiver (σ : Type u) where
  rxBuffer : Memory
  rxBufferLen : Nat
  consumer : σ
  handed : List (BitVec 8 × Bytes)

variable (consumer : Consumer σ) (receiver : Receiver σ)

/-- `sizeof(session.rx_buffer)`. -/
def rxBufferSize : Nat := 16384 + 256

namespace Receiver

/-- The bytes from an offset to the end of what is staged. -/
def windowAt (offset : Nat) : View :=
  (View.mk receiver.rxBuffer receiver.rxBufferLen).slice offset (receiver.rxBufferLen - offset)

/-- Hand over the record at an offset. -/
def process (offset : Nat) (event : RecordEvent) : Receiver σ :=
  { receiver with
    rxBuffer := receiver.rxBuffer.copy (offset + 5) (consumer.overwrite event receiver.consumer) 0
      event.ciphertext.length
    consumer := (consumer.consume event receiver.consumer).1
    handed := receiver.handed ++ [(event.contentType, event.ciphertext.bytes)] }

/-- The loop over the staged records: the offset it ends at, whether a record was processed,
and whether it ended with an error. -/
def drain (consumer : Consumer σ) : Nat → Nat → Bool → Receiver σ → Nat × Bool × Bool × Receiver σ
  | 0, offset, processed, receiver => (offset, processed, false, receiver)
  | fuel + 1, offset, processed, receiver =>
      if offset < receiver.rxBufferLen then
        match parseRecord (receiver.windowAt offset) with
        | .ok event =>
            drain consumer fuel (offset + event.totalBytesConsumed)
              (processed || (consumer.consume event receiver.consumer).2)
              (receiver.process consumer offset event)
        | .incomplete => (offset, processed, false, receiver)
        | .error => (offset, processed, true, receiver)
      else (offset, processed, false, receiver)

/-- Copy a frame behind the staged bytes, as far as it fits. -/
def stage (frame : Bytes) (toCopy : Nat) : Receiver σ :=
  { receiver with
    rxBuffer := receiver.rxBuffer.copy receiver.rxBufferLen (fun index => frame.getD index 0) 0
      toCopy
    rxBufferLen := receiver.rxBufferLen + toCopy }

/-- Move what is left to the front of the buffer. -/
def compact (offset : Nat) : Receiver σ :=
  if 0 < offset then
    let remaining := receiver.rxBufferLen - offset
    { receiver with
      rxBuffer := receiver.rxBuffer.copy 0 receiver.rxBuffer offset remaining
      rxBufferLen := remaining }
  else receiver

def on (frame : Bytes) : Receiver σ × Bool :=
  let available := rxBufferSize - receiver.rxBufferLen
  let toCopy := min frame.length available
  if toCopy = 0 then (receiver, false)
  else
    let staged := receiver.stage frame toCopy
    let (offset, processed, error, drained) := drain consumer staged.rxBufferLen 0 false staged
    if error then (drained, false) else (drained.compact offset, processed)

/-- The frames of a connection, one after the other. -/
def receive (frames : List Bytes) : Receiver σ :=
  frames.foldl (fun receiver frame => (receiver.on consumer frame).1) receiver

/-- A new connection. -/
def fresh (rxBuffer : Memory) (state : σ) : Receiver σ := ⟨rxBuffer, 0, state, []⟩

end Receiver

/-! ## Records -/

/-- A record that the extractor admits. -/
structure Record where
  contentType : BitVec 8
  version : BitVec 8 × BitVec 8
  body : Bytes
  admitted : body.length ≤ 16384 + 256

namespace Record

/-- What the consumer is to see. -/
def content (record : Record) : BitVec 8 × Bytes := (record.contentType, record.body)

def bytes (record : Record) : Bytes :=
  record.contentType :: record.version.1 :: record.version.2 ::
    BitVec.ofNat 8 (record.body.length / 2 ^ 8) :: BitVec.ofNat 8 record.body.length :: record.body

def size (record : Record) : Nat := 5 + record.body.length

@[simp] theorem length_bytes (record : Record) : record.bytes.length = record.size := by
  rw [bytes, size]
  simp only [List.length_cons]
  omega

end Record

/-- The records as one byte stream. -/
def stream (records : List Record) : Bytes := records.flatMap Record.bytes

/-- How much of the record in progress is among the first `received` bytes of the stream. -/
def partialLength : List Record → Nat → Nat
  | [], received => received
  | record :: records, received =>
      if received < record.size then received else partialLength records (received - record.size)

/-- Every frame fits into the buffer behind what has been received of the record in
progress. -/
def FitsFrom (records : List Record) : Nat → List Bytes → Prop
  | _, [] => True
  | received, frame :: frames =>
      partialLength records received + frame.length ≤ rxBufferSize ∧
        FitsFrom records (received + frame.length) frames

end RecordFraming

end SlabFlux.Security
