import SlabFlux.Lib.Bytes

/-!
# The HTTP/2 parser

`http2_parser::parse` reads the frames of a connection and fills the event of a request from
them.  It returns after the frame that ends a stream, or when no whole frame is left.

The header decoder, `hpack_decoder` in `hpack.hpp`, is a parameter: a state and what a header
block decodes to in it, so that the results hold of any decoder.  Texts are modelled by the bytes
they show when they are decoded.  In the source the fields are views, and one that shows an entry
of the dynamic table dangles if a later field of the same block evicts the entry: the results are
about blocks that evict no entry they use.  An event has the members that every event type has;
its header array has `maxHeaders` entries, and writing behind it is undefined.
-/

namespace SlabFlux.Transport.Http2

open Lib

universe u

/-- The bytes of a text of ASCII characters. -/
def ascii (characters : String) : Bytes :=
  characters.toList.map fun character => BitVec.ofNat 8 character.toNat

def colon : BitVec 8 := 58

/-! ## Events -/

/-- `hpack_header`. -/
structure HpackHeader where
  name : Bytes
  value : Bytes
  deriving DecidableEq, Repr

/-- An entry of the header array of an event. -/
structure Header where
  key : Bytes
  value : Bytes
  deriving DecidableEq, Repr

structure Event where
  method : Bytes
  uri : Bytes
  headers : List Header
  body : Bytes
  contentLength : Nat
  deriving DecidableEq, Repr

namespace Event

/-- The event as it is reset for a new header block. -/
def reset : Event := ⟨[], [], [], [], 0⟩

/-- One more entry in the header array. -/
def addHeader (event : Event) (key value : Bytes) : Event :=
  { event with headers := event.headers ++ [⟨key, value⟩] }

/-- What a decoded field does to the event. -/
def store (event : Event) (field : HpackHeader) : Event :=
  if field.name = ascii ":method" then { event with method := field.value }
  else if field.name = ascii ":path" then { event with uri := field.value }
  else if field.name = ascii ":authority" then event.addHeader (ascii "Host") field.value
  else
    match field.name with
    | [] => event
    | first :: _ =>
        if first = colon then event else event.addHeader field.name field.value

/-- The loop over the decoded fields, undefined where it writes behind the header array. -/
def hydrate (maxHeaders : Nat) (event : Event) : List HpackHeader → Option Event
  | [] => some event
  | field :: fields =>
      let next := event.store field
      if next.headers.length ≤ maxHeaders then hydrate maxHeaders next fields else none

/-- The event of a stream that has ended. -/
def finish (event : Event) (body : Bytes) : Event :=
  { event with body := body, contentLength := body.length }

end Event

/-! ## Frames -/

structure Frame where
  type : BitVec 8
  flags : BitVec 8
  streamId : BitVec 32
  payload : Bytes
  deriving DecidableEq, Repr

namespace Frame

def endStream (frame : Frame) : Bool := frame.flags &&& 0x01 ≠ 0

def endHeaders (frame : Frame) : Bool := frame.flags &&& 0x04 ≠ 0

def padded (frame : Frame) : Bool := frame.flags &&& 0x08 ≠ 0

def hasPriority (frame : Frame) : Bool := frame.flags &&& 0x20 ≠ 0

/-- The payload without its padding, if the padding is not longer than the payload. -/
def unpadded (frame : Frame) : Option Bytes :=
  if frame.padded then
    match frame.payload with
    | [] => none
    | padLen :: content =>
        if content.length < padLen.toNat then none
        else some (content.take (content.length - padLen.toNat))
  else some frame.payload

/-- The part of a header block that a HEADERS frame has. -/
def hpackData (frame : Frame) : Option Bytes :=
  match frame.unpadded with
  | none => none
  | some content =>
      if frame.hasPriority then
        if content.length < 5 then none else some (content.drop 5)
      else some content

/-- The checks of a frame that is otherwise skipped. -/
def skippable (frame : Frame) : Bool :=
  if frame.type = 0x04 then frame.streamId = 0 ∧ frame.payload.length % 6 = 0
  else if frame.type = 0x06 then frame.streamId = 0 ∧ frame.payload.length = 8
  else if frame.type = 0x08 then frame.payload.length = 4
  else if frame.type = 0x02 then frame.streamId ≠ 0 ∧ frame.payload.length = 5
  else true

end Frame

/-- The first frame of the stream and what is behind it, once all of the frame is there. -/
def readFrame (stream : Bytes) : Option (Frame × Bytes) :=
  match stream with
  | l0 :: l1 :: l2 :: type :: flags :: s0 :: s1 :: s2 :: s3 :: rest =>
      let length := l0.toNat * 2 ^ 16 + l1.toNat * 2 ^ 8 + l2.toNat
      if rest.length < length then none
      else
        let streamId := (s0 &&& 0x7F) ++ s1 ++ s2 ++ s3
        some (⟨type, flags, streamId, rest.take length⟩, rest.drop length)
  | _ => none

/-! ## The parser -/

/-- What a header block decodes to in a state of the decoder, and the state after it. -/
abbrev Decoder (H : Type u) := H → Bytes → H × Option (List HpackHeader)

structure Parser (H : Type u) where
  hpack : H
  prefaceReceived : Bool
  bodyAccumulator : Bytes
  expectingContinuation : Bool
  continuationStreamId : BitVec 32
  endStreamPending : Bool
  headerAccumulator : Bytes

/-- A parser as it is constructed. -/
def Parser.fresh {H : Type u} (hpack : H) : Parser H := ⟨hpack, false, [], false, 0, false, []⟩

/-- How one iteration of the loop ends.  What a rejected stream leaves behind is left out. -/
inductive Outcome (H : Type u) where
  | next (parser : Parser H) (event : Event)
  | ok (parser : Parser H) (event : Event)
  | error
  | undefined

variable {H : Type u} (decoder : Decoder H) (maxHeaders : Nat)

/-- The event is filled from a whole header block.  A block whose stream has no data ends the
stream. -/
def completeBlock (parser : Parser H) (block : Bytes) : Outcome H :=
  let decoded := decoder parser.hpack block
  let parser := { parser with hpack := decoded.1, bodyAccumulator := [] }
  match decoded.2 with
  | none => .error
  | some fields =>
      match Event.reset.hydrate maxHeaders fields with
      | none => .undefined
      | some event =>
          if parser.endStreamPending then
            .ok { parser with endStreamPending := false } (event.finish [])
          else .next parser event

def onHeaders (frame : Frame) (parser : Parser H) (event : Event) : Outcome H :=
  if frame.streamId = 0 then .error
  else
    match frame.hpackData with
    | none => .error
    | some hpackData =>
        let parser :=
          { parser with endStreamPending := parser.endStreamPending || frame.endStream }
        if frame.endHeaders then completeBlock decoder maxHeaders parser hpackData
        else
          .next { parser with
            expectingContinuation := true
            continuationStreamId := frame.streamId
            headerAccumulator := hpackData } event

def onContinuation (frame : Frame) (parser : Parser H) (event : Event) : Outcome H :=
  if frame.streamId ≠ parser.continuationStreamId then .error
  else
    let block := parser.headerAccumulator ++ frame.payload
    if frame.endHeaders then
      completeBlock decoder maxHeaders
        { parser with expectingContinuation := false, headerAccumulator := [] } block
    else .next { parser with headerAccumulator := block } event

def onData (frame : Frame) (parser : Parser H) (event : Event) : Outcome H :=
  if frame.streamId = 0 then .error
  else
    match frame.unpadded with
    | none => .error
    | some data =>
        let parser := { parser with bodyAccumulator := parser.bodyAccumulator ++ data }
        if frame.endStream then
          .ok { parser with endStreamPending := false } (event.finish parser.bodyAccumulator)
        else .next parser event

/-- One iteration of the loop, for the frame at the front of the stream. -/
def onFrame (frame : Frame) (parser : Parser H) (event : Event) : Outcome H :=
  if parser.expectingContinuation ∧ frame.type ≠ 0x09 then .error
  else if frame.type = 0x01 then onHeaders decoder maxHeaders frame parser event
  else if frame.type = 0x09 then onContinuation decoder maxHeaders frame parser event
  else if frame.type = 0x00 then onData frame parser event
  else if frame.type = 0x03 ∨ frame.type = 0x07 then .error
  else if frame.skippable then .next parser event
  else .error

/-- What a call of `parse` returns, with what it leaves of the stream. -/
inductive Result (H : Type u) where
  | ok (parser : Parser H) (event : Event) (stream : Bytes)
  | incomplete (parser : Parser H) (event : Event) (stream : Bytes)
  | error
  | undefined

/-- The loop.  Every iteration takes a frame from the stream, so there are no more of them
than the stream has bytes. -/
def crawl : Nat → Parser H → Event → Bytes → Result H
  | 0, parser, event, stream => .incomplete parser event stream
  | fuel + 1, parser, event, stream =>
      match readFrame stream with
      | none => .incomplete parser event stream
      | some (frame, rest) =>
          match onFrame decoder maxHeaders frame parser event with
          | .next parser event => crawl fuel parser event rest
          | .ok parser event => .ok parser event rest
          | .error => .error
          | .undefined => .undefined

/-- The connection preface. -/
def preface : Bytes := ascii "PRI * HTTP/2.0\r\n\r\nSM\r\n\r\n"

def parse (parser : Parser H) (event : Event) (stream : Bytes) : Result H :=
  if parser.prefaceReceived then
    crawl decoder maxHeaders stream.length parser event stream
  else if stream.length < preface.length then .incomplete parser event stream
  else if stream.take preface.length ≠ preface then .error
  else
    let stream := stream.drop preface.length
    crawl decoder maxHeaders stream.length { parser with prefaceReceived := true } event stream

/-! ## A connection -/

/-- A connection between two calls: the bytes that are not consumed yet, the events that
were returned, and whether the last call found no whole frame. -/
structure Connection (H : Type u) where
  parser : Parser H
  event : Event
  pending : Bytes
  returned : List Event
  waiting : Bool

def Connection.fresh (hpack : H) (event : Event) : Connection H :=
  ⟨.fresh hpack, event, [], [], false⟩

/-- The connection after a call.  It does not go on after an error. -/
def Connection.after (returned : List Event) : Result H → Option (Connection H)
  | .ok parser event rest => some ⟨parser, event, rest, returned ++ [event], false⟩
  | .incomplete parser event rest => some ⟨parser, event, rest, returned, true⟩
  | .error => none
  | .undefined => none

/-- One call, after more bytes have been received. -/
def call (connection : Option (Connection H)) (received : Bytes) : Option (Connection H) :=
  connection.bind fun current =>
    Connection.after current.returned
      (parse decoder maxHeaders current.parser current.event (current.pending ++ received))

end SlabFlux.Transport.Http2
