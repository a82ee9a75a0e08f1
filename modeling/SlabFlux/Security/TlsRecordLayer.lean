import SlabFlux.Security.Handshake.Machine
import SlabFlux.Security.RecordFraming.Model

/-!
# The record layer

`tls_record_layer::process_record` and `on` of a layer that is bound to a socket.  What the
layer hands on to the application, whose answer is the result, and the closing of the socket are
left out.
-/

namespace SlabFlux.Security

open Lib Handshake RecordFraming

/-- `tls_session_block`. -/
structure SessionBlock where
  session : Session
  rxBuffer : Memory
  rxBufferLen : Nat

/-- Hand a record to the handshake machine with a buffer of 4096 bytes on the stack.  What it
writes is sent unless the handshake has failed. -/
def handshakeRecord (host : Host) (surroundings : Surroundings) (record : View)
    (session : Session) : Session × Bytes :=
  let answer := processHandshake host { surroundings with capacity := 4096 } record session
  (answer.session, if answer.session.context.state = .failed then [] else answer.written)

/-- `process_record`.  Records of application data are decrypted with the client's keys on
both sides. -/
def processRecord (host : Host) (surroundings : Surroundings) (remoteIpv4 : BitVec 32)
    (event : RecordEvent) (session : Session) : Session × Bytes :=
  if event.contentType = 22 then
    handshakeRecord host surroundings event.ciphertext
      { session with context := { session.context with remoteIpv4 := remoteIpv4 } }
  else if event.contentType ≠ 23 ∨ ¬session.keys.active then (session, [])
  else
    let (memory, plaintextLen) := decryptRecord host.crypto event.ciphertext session
    let session := { session with
      keys := { session.keys with clientSeq := session.keys.clientSeq + 1 } }
    if plaintextLen ≠ 0 ∧ memory (plaintextLen - 1) = 22 then
      handshakeRecord host surroundings ⟨memory, plaintextLen - 1⟩ session
    else (session, [])

/-- What `process_record` leaves in the body of a record. -/
def decryptedBody (host : Host) (event : RecordEvent) (session : Session) : Memory :=
  if event.contentType = 23 ∧ session.keys.active then
    (decryptRecord host.crypto event.ciphertext session).1
  else event.ciphertext.memory

/-- The session in a call of `on`, what has been sent, and how many records have been processed:
each has surroundings of its own. -/
structure Layer where
  session : Session
  sent : Bytes
  processed : Nat

def layerConsumer (host : Host) (surroundings : Nat → Surroundings) (remoteIpv4 : BitVec 32) :
    Consumer Layer where
  consume event layer :=
    let (session, written) :=
      processRecord host (surroundings layer.processed) remoteIpv4 event layer.session
    (⟨session, layer.sent ++ written, layer.processed + 1⟩, false)
  overwrite event layer := decryptedBody host event layer.session

def SessionBlock.receiver (block : SessionBlock) : Receiver Layer :=
  ⟨block.rxBuffer, block.rxBufferLen, ⟨block.session, [], 0⟩, []⟩

/-- `on`: the block afterwards and the bytes that were sent. -/
def SessionBlock.on (block : SessionBlock) (host : Host) (surroundings : Nat → Surroundings)
    (remoteIpv4 : BitVec 32) (frame : Bytes) : SessionBlock × Bytes :=
  let receiver := (block.receiver.on (layerConsumer host surroundings remoteIpv4) frame).1
  (⟨receiver.consumer.session, receiver.rxBuffer, receiver.rxBufferLen⟩, receiver.consumer.sent)

end SlabFlux.Security
