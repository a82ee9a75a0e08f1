import SlabFlux.Lib.Execution
import SlabFlux.Lib.Memory

/-!
# The stream defragmenter

`tcp_stream_defragmenter` cuts the byte stream of a connection into messages.  It appends
every incoming frame to the buffer of the session, runs the protocol's parser on what has
accumulated, and hands the protocol state on after every message the parser finds.

The parser and its state are parameters, as they are template parameters of the source.
What is handed on is recorded together with the bytes the parser has reported as consumed.
A call that never returns has no state after it; so has one whose parser reports more bytes
than it was shown, after which the source reads outside of its buffer.
-/

namespace SlabFlux.Transport.StreamDefragmenter

open Lib

universe u

/-- What a parser says about the bytes it was shown. -/
inductive ParserStatus where
  | ok
  | incomplete
  | error
  | chunkReady
  deriving DecidableEq

/-- A protocol's parser and the members of its state that the defragmenter uses. -/
structure Protocol (σ : Type u) where
  parse : Bytes → σ → ParserStatus × σ
  totalBytesConsumed : σ → Nat
  reset : σ → σ

/-- The buffer capacity of every session. -/
def bufferCapacity : Nat := 524288

/-- `session_context<ProtocolState, 524288>`. -/
structure SessionContext (σ : Type u) where
  buffer : Memory
  accumulatedBytes : Nat
  readOffset : Nat
  protocolState : σ

/-- A session and what the next layer was given for it so far. -/
structure Link (σ : Type u) extends SessionContext σ where
  handed : List (σ × Bytes)

variable {σ : Type u} (protocol : Protocol σ)

namespace SessionContext

variable (ctx : SessionContext σ)

def clear : SessionContext σ :=
  { ctx with
    accumulatedBytes := 0
    readOffset := 0
    protocolState := protocol.reset ctx.protocolState }

/-- The bytes that the parser is shown. -/
def streamWindow : Bytes :=
  ctx.buffer.bytes ctx.readOffset ctx.accumulatedBytes

/-- The frame does not fit behind what is in the buffer. -/
def overflows (incoming : Bytes) : Bool :=
  decide (bufferCapacity < ctx.readOffset + ctx.accumulatedBytes + incoming.length)

/-- The rotation that makes room for a frame.  The session is cleared after the bytes that
it holds were moved to the front. -/
def rotate : SessionContext σ :=
  let ctx :=
    if 0 < ctx.accumulatedBytes ∧ 0 < ctx.readOffset then
      { ctx with
        buffer := ctx.buffer.copy 0 ctx.buffer ctx.readOffset ctx.accumulatedBytes }
    else { ctx with accumulatedBytes := 0 }
  SessionContext.clear protocol { ctx with readOffset := 0 }

/-- The frame is copied to the write frontier. -/
def append (incoming : Bytes) : SessionContext σ :=
  { ctx with
    buffer := ctx.buffer.copy (ctx.readOffset + ctx.accumulatedBytes)
      (fun index => incoming.getD index 0) 0 incoming.length
    accumulatedBytes := ctx.accumulatedBytes + incoming.length }

end SessionContext

/-- A message is handed on, and the parser starts over behind it. -/
def Link.handOn (link : Link σ) (state : σ) : Link σ :=
  let consumed := protocol.totalBytesConsumed state
  { link with
    readOffset := link.readOffset + consumed
    accumulatedBytes := link.accumulatedBytes - consumed
    protocolState := protocol.reset state
    handed := link.handed ++ [(state, link.streamWindow.take consumed)] }

/-- The extraction loop, for at most `fuel` iterations. -/
def crawl : Nat → Link σ → Option (Link σ)
  | 0, _ => none
  | fuel + 1, link =>
      if link.accumulatedBytes = 0 then some link
      else
        let result := protocol.parse link.streamWindow link.protocolState
        let state := result.2
        match result.1 with
        | .ok =>
            if protocol.totalBytesConsumed state ≤ link.accumulatedBytes then
              crawl fuel (link.handOn protocol state)
            else none
        | .incomplete => some { link with protocolState := state }
        | .error =>
            some { link with
              toSessionContext :=
                SessionContext.clear protocol
                  { link.toSessionContext with protocolState := state } }
        -- No branch of the source matches this status: the loop parses the same window again.
        | .chunkReady => crawl fuel { link with protocolState := state }

/-- What is done after the loop. -/
def Link.settle (link : Link σ) : Link σ :=
  if link.accumulatedBytes = 0 then { link with readOffset := 0 } else link

/-- The frame is appended and the messages it completes are extracted. -/
def accept (fuel : Nat) (link : Link σ) (incoming : Bytes) : Option (Link σ) :=
  (crawl protocol fuel
    { link with toSessionContext := link.toSessionContext.append incoming }).map Link.settle

/-- `tcp_stream_defragmenter::on`, for a frame of the session. -/
def on (fuel : Nat) (link : Link σ) (incoming : Bytes) : Option (Link σ) :=
  if link.overflows incoming then
    let rotated := { link with toSessionContext := link.toSessionContext.rotate protocol }
    if bufferCapacity < rotated.accumulatedBytes + incoming.length then
      some { rotated with accumulatedBytes := 0 }
    else accept protocol fuel rotated incoming
  else accept protocol fuel link incoming

/-- A session of the registry before its first frame. -/
def fresh (state : σ) (buffer : Memory) : Link σ where
  toSessionContext := SessionContext.clear protocol ⟨buffer, 0, 0, state⟩
  handed := []

/-- One frame after the frames before it, if these have all been dealt with. -/
def step (fuel : Nat) (link : Option (Link σ)) (incoming : Bytes) : Option (Link σ) :=
  link.bind fun link => on protocol fuel link incoming

/-- The frame fits into the buffer behind what the session holds of it. -/
def Fits (link : Option (Link σ)) (incoming : Bytes) : Prop :=
  ∀ current ∈ link, current.overflows incoming = false

end SlabFlux.Transport.StreamDefragmenter
