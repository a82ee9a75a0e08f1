import SlabFlux.Lib.Execution
import SlabFlux.Transport.Http2.Model

/-!
# Requests of one stream

What the frames of a connection mean is said by a demultiplexer that keeps a record for every
open stream.  The parser keeps one event and one body for the whole connection.  It returns
the requests of the demultiplexer in every connection in which a stream is opened only when
no other one is open.
-/

namespace SlabFlux.Transport.Http2

open Lib

universe u

/-! ## The demultiplexer -/

/-- An open stream: its decoded header fields and the payloads of its DATA frames so far. -/
structure Stream where
  fields : List HpackHeader
  body : Bytes
  deriving DecidableEq

/-- A header block that is not complete yet. -/
structure Block where
  streamId : BitVec 32
  data : Bytes
  endStream : Bool
  deriving DecidableEq

structure Demux (H : Type u) where
  hpack : H
  block : Option Block
  opened : List (BitVec 32 × Stream)
  requests : List Event
  deriving DecidableEq

/-- The event with nothing but the given header fields. -/
def Event.ofFields (fields : List HpackHeader) : Event := fields.foldl Event.store Event.reset

/-- The request of a stream: method, path, headers and body of this stream alone. -/
def Stream.request (stream : Stream) : Event := (Event.ofFields stream.fields).finish stream.body

variable {H : Type u} (decoder : Decoder H) (maxHeaders : Nat)

namespace Demux

def fresh (hpack : H) : Demux H := ⟨hpack, none, [], []⟩

/-- A header block with the part that a HEADERS or CONTINUATION frame adds to it.  A block is
begun by a HEADERS frame of a stream that is not open. -/
def gather (demux : Demux H) (frame : Frame) : Option Block :=
  match demux.block with
  | some block =>
      if frame.type = 0x09 ∧ frame.streamId = block.streamId then
        some { block with data := block.data ++ frame.payload }
      else none
  | none =>
      if frame.type = 0x01 ∧ frame.streamId ≠ 0 ∧ demux.opened.lookup frame.streamId = none then
        frame.hpackData.map fun data => ⟨frame.streamId, data, frame.endStream⟩
      else none

/-- A whole header block opens its stream; a stream without data ends with it. -/
def openStream (demux : Demux H) (block : Block) : Option (Demux H) :=
  let decoded := decoder demux.hpack block.data
  decoded.2.map fun fields =>
    let demux := { demux with hpack := decoded.1, block := none }
    if block.endStream then
      { demux with requests := demux.requests ++ [Stream.request ⟨fields, []⟩] }
    else { demux with opened := (block.streamId, ⟨fields, []⟩) :: demux.opened }

/-- A DATA frame belongs to the stream it names. -/
def addData (demux : Demux H) (frame : Frame) : Option (Demux H) :=
  match demux.opened.lookup frame.streamId, frame.unpadded with
  | some stream, some data =>
      let stream := { stream with body := stream.body ++ data }
      let others := demux.opened.filter fun entry => entry.1 ≠ frame.streamId
      if frame.endStream then
        some { demux with opened := others, requests := demux.requests ++ [stream.request] }
      else some { demux with opened := (frame.streamId, stream) :: others }
  | _, _ => none

/-- One frame of a connection, if it may come next. -/
def step (demux : Demux H) (frame : Frame) : Option (Demux H) :=
  if frame.type = 0x01 ∨ frame.type = 0x09 then
    (demux.gather frame).bind fun block =>
      if frame.endHeaders then demux.openStream decoder block
      else some { demux with block := some block }
  else if demux.block.isSome then none
  else if frame.type = 0x00 then
    if frame.streamId = 0 then none else demux.addData frame
  else if frame.type = 0x03 ∨ frame.type = 0x07 then none
  else if frame.skippable then some demux
  else none

/-- One frame after the frames before it, if all of these may come. -/
def advance (demux : Option (Demux H)) (frame : Frame) : Option (Demux H) :=
  demux.bind fun current => current.step decoder frame

/-- A HEADERS frame comes only when no stream is open, and a header block has no more entries
than the header array of the event. -/
def Alone (demux : Option (Demux H)) (frame : Frame) : Prop :=
  ∀ current ∈ demux, (frame.type = 0x01 → current.opened = []) ∧
    ∀ block ∈ current.gather frame, frame.endHeaders = true →
      ∀ fields ∈ (decoder current.hpack block.data).2,
        (Event.ofFields fields).headers.length ≤ maxHeaders

instance (demux : Option (Demux H)) (frame : Frame) :
    Decidable (Alone decoder maxHeaders demux frame) :=
  inferInstanceAs (Decidable (∀ current ∈ demux, _ ∧ _))

end Demux

/-! ## Filling an event -/

theorem Event.length_headers_store (event : Event) (field : HpackHeader) :
    event.headers.length ≤ (event.store field).headers.length := by
  have added (key value : Bytes) :
      event.headers.length ≤ (event.addHeader key value).headers.length := by
    simp [Event.addHeader]
  unfold Event.store
  split
  next => exact le_rfl
  next =>
    split
    next => exact le_rfl
    next =>
      split
      next => exact added _ _
      next =>
        split
        next => exact le_rfl
        next =>
          split
          next => exact le_rfl
          next => exact added _ _

theorem Event.length_headers_foldl (event : Event) (fields : List HpackHeader) :
    event.headers.length ≤ (fields.foldl Event.store event).headers.length := by
  induction fields generalizing event with
  | nil => exact le_rfl
  | cons field fields ih => exact (event.length_headers_store field).trans (ih _)

/-- Fields that fit into the header array are all stored. -/
theorem Event.hydrate_eq {event : Event} {fields : List HpackHeader}
    (fits : (fields.foldl Event.store event).headers.length ≤ maxHeaders) :
    event.hydrate maxHeaders fields = some (fields.foldl Event.store event) := by
  induction fields generalizing event with
  | nil => rfl
  | cons field fields ih =>
      have first := (Event.length_headers_foldl (event.store field) fields).trans fits
      rw [Event.hydrate, if_pos first]
      exact ih fits

/-! ## One frame -/

/-- The parser between two frames of a connection with at most one open stream. -/
structure Mirrors (parser : Parser H) (event : Event) (demux : Demux H) : Prop where
  hpack : parser.hpack = demux.hpack
  prefaceReceived : parser.prefaceReceived = true
  outside : demux.block = none →
    parser.expectingContinuation = false ∧ parser.endStreamPending = false
  inside : ∀ block, demux.block = some block → parser.expectingContinuation = true ∧
    parser.continuationStreamId = block.streamId ∧ parser.headerAccumulator = block.data ∧
    parser.endStreamPending = block.endStream ∧ demux.opened = []
  stream : demux.opened = [] ∨ ∃ streamId stream, demux.opened = [(streamId, stream)] ∧
    event = Event.ofFields stream.fields ∧ parser.bodyAccumulator = stream.body

/-- The parser does what the demultiplexer does, and returns its new request, if any. -/
def Agrees (outcome : Outcome H) (before after : Demux H) : Prop :=
  (∃ parser event, outcome = .next parser event ∧ Mirrors parser event after ∧
      after.requests = before.requests) ∨
    ∃ parser event, outcome = .ok parser event ∧ Mirrors parser event after ∧
      after.requests = before.requests ++ [event]

variable {decoder maxHeaders} {parser : Parser H} {event : Event} {demux after : Demux H}
  {frame : Frame}

theorem Mirrors.ofOutside (hpack : parser.hpack = demux.hpack)
    (received : parser.prefaceReceived = true) (noBlock : demux.block = none)
    (outside : parser.expectingContinuation = false) (notPending : parser.endStreamPending = false)
    (stream : demux.opened = [] ∨ ∃ streamId stream, demux.opened = [(streamId, stream)] ∧
      event = Event.ofFields stream.fields ∧ parser.bodyAccumulator = stream.body) :
    Mirrors parser event demux where
  hpack := hpack
  prefaceReceived := received
  outside _ := ⟨outside, notPending⟩
  inside block blockEq := by
    rw [noBlock] at blockEq
    exact absurd blockEq.symm (Option.some_ne_none block)
  stream := stream

/-- A whole header block, when no other stream is open. -/
theorem completeBlock_agrees (block : Block) (hpack : parser.hpack = demux.hpack)
    (received : parser.prefaceReceived = true)
    (outside : parser.expectingContinuation = false)
    (pending : parser.endStreamPending = block.endStream) (alone : demux.opened = [])
    (opens : demux.openStream decoder block = some after)
    (fits : ∀ fields ∈ (decoder demux.hpack block.data).2,
      (Event.ofFields fields).headers.length ≤ maxHeaders) :
    Agrees (completeBlock decoder maxHeaders parser block.data) demux after := by
  obtain ⟨fields, decoded, rfl⟩ := Option.map_eq_some_iff.mp opens
  have hydrated : Event.reset.hydrate maxHeaders fields = some (Event.ofFields fields) :=
    Event.hydrate_eq maxHeaders (fits fields decoded)
  unfold completeBlock
  rw [hpack]
  dsimp only
  rw [decoded]
  dsimp only
  rw [hydrated]
  rw [pending]
  cases block.endStream with
  | true =>
      refine Or.inr ⟨_, _, if_pos rfl, ?_, rfl⟩
      exact .ofOutside rfl received rfl outside rfl (Or.inl alone)
  | false =>
      refine Or.inl ⟨_, _, if_neg Bool.false_ne_true, ?_, rfl⟩
      exact .ofOutside rfl received rfl outside rfl
        (Or.inr ⟨_, _, by rw [alone]; rfl, rfl, rfl⟩)

/-- The block that a frame adds to is complete or goes on. -/
theorem step_gather (isHeader : frame.type = 0x01 ∨ frame.type = 0x09)
    (steps : demux.step decoder frame = some after) :
    ∃ block, demux.gather frame = some block ∧
      (frame.endHeaders = true ∧ demux.openStream decoder block = some after ∨
        frame.endHeaders = false ∧ after = { demux with block := some block }) := by
  rw [Demux.step, if_pos isHeader] at steps
  obtain ⟨block, gathered, steps⟩ := Option.bind_eq_some_iff.mp steps
  refine ⟨block, gathered, ?_⟩
  cases whole : frame.endHeaders with
  | true =>
      rw [whole] at steps
      exact Or.inl ⟨rfl, steps⟩
  | false =>
      rw [whole] at steps
      exact Or.inr ⟨rfl, (Option.some.inj steps).symm⟩

section

variable (mirrors : Mirrors parser event demux)
include mirrors

theorem onHeaders_agrees (isHeaders : frame.type = 0x01)
    (steps : demux.step decoder frame = some after)
    (alone : Demux.Alone decoder maxHeaders (some demux) frame) :
    Agrees (onFrame decoder maxHeaders frame parser event) demux after := by
  obtain ⟨none, fits⟩ := alone demux rfl
  have noneOpen := none isHeaders
  obtain ⟨block, gathered, parts⟩ := step_gather (Or.inl isHeaders) steps
  have fits := fits block gathered
  cases blockEq : demux.block with
  | some _ => simp [Demux.gather, blockEq, isHeaders] at gathered
  | none =>
      obtain ⟨outside, notPending⟩ := mirrors.outside blockEq
      simp only [Demux.gather, blockEq] at gathered
      split at gathered
      next legal =>
        obtain ⟨data, dataEq, rfl⟩ := Option.map_eq_some_iff.mp gathered
        rw [onFrame, if_neg (by simp [outside]), if_pos isHeaders, onHeaders, if_neg legal.2.1,
          dataEq, notPending, Bool.false_or]
        dsimp only
        rcases parts with ⟨whole, opens⟩ | ⟨goesOn, rfl⟩
        · rw [if_pos whole]
          apply completeBlock_agrees ⟨frame.streamId, data, frame.endStream⟩
          · exact mirrors.hpack
          · exact mirrors.prefaceReceived
          · exact outside
          · rfl
          · exact noneOpen
          · exact opens
          · exact fits whole
        · rw [if_neg (by simp [goesOn])]
          refine Or.inl ⟨_, _, rfl, ?_, rfl⟩
          exact {
            hpack := mirrors.hpack
            prefaceReceived := mirrors.prefaceReceived
            outside := fun impossible => absurd impossible (Option.some_ne_none _)
            inside := by
              rintro block same
              obtain rfl := Option.some.inj same
              exact ⟨rfl, rfl, rfl, rfl, noneOpen⟩
            stream := Or.inl noneOpen }
      next => simp at gathered

/-- A CONTINUATION frame of the block that is being gathered. -/
theorem onContinuation_agrees (continues : frame.type = 0x09)
    (steps : demux.step decoder frame = some after)
    (alone : Demux.Alone decoder maxHeaders (some demux) frame) :
    Agrees (onFrame decoder maxHeaders frame parser event) demux after := by
  have fits := (alone demux rfl).2
  obtain ⟨block, gathered, parts⟩ := step_gather (Or.inr continues) steps
  have fits := fits block gathered
  cases blockEq : demux.block with
  | none => simp [Demux.gather, blockEq, continues] at gathered
  | some begun =>
      obtain ⟨inside, streamEq, dataEq, pendingEq, noneOpen⟩ := mirrors.inside begun blockEq
      simp only [Demux.gather, blockEq] at gathered
      split at gathered
      next legal =>
        obtain rfl := Option.some.inj gathered
        rw [onFrame, if_neg (by simp [continues]), if_neg (by simp [continues]),
          if_pos continues, onContinuation, if_neg (by simp [streamEq, legal.2]), dataEq]
        rcases parts with ⟨whole, opens⟩ | ⟨goesOn, rfl⟩
        · rw [if_pos whole]
          apply completeBlock_agrees { begun with data := begun.data ++ frame.payload }
          · exact mirrors.hpack
          · exact mirrors.prefaceReceived
          · rfl
          · exact pendingEq
          · exact noneOpen
          · exact opens
          · exact fits whole
        · rw [if_neg (by simp [goesOn])]
          refine Or.inl ⟨_, _, rfl, ?_, rfl⟩
          exact {
            hpack := mirrors.hpack
            prefaceReceived := mirrors.prefaceReceived
            outside := fun impossible => absurd impossible (Option.some_ne_none _)
            inside := by
              rintro block same
              obtain rfl := Option.some.inj same
              exact ⟨inside, streamEq, rfl, pendingEq, noneOpen⟩
            stream := Or.inl noneOpen }
      next => simp at gathered

theorem onData_agrees (noBlock : demux.block = none) (named : frame.streamId ≠ 0)
    (adds : demux.addData frame = some after) :
    Agrees (onData frame parser event) demux after := by
  obtain ⟨outside, notPending⟩ := mirrors.outside noBlock
  unfold Demux.addData at adds
  split at adds
  next stream data lookupEq dataEq =>
    rcases mirrors.stream with noneOpen | ⟨streamId, only, openedEq, eventEq, bodyEq⟩
    · simp [noneOpen] at lookupEq
    · rw [openedEq] at lookupEq adds
      by_cases same : frame.streamId = streamId
      · subst same
        obtain rfl : only = stream := by simpa using lookupEq
        have othersEq : [(frame.streamId, only)].filter
            (fun entry => decide (entry.1 ≠ frame.streamId)) = [] := by simp
        rw [othersEq] at adds
        rw [onData, if_neg named, dataEq]
        rw [bodyEq, eventEq]
        cases ends : frame.endStream with
        | true =>
            rw [ends] at adds
            obtain rfl := Option.some.inj adds
            refine Or.inr ⟨_, _, if_pos rfl, ?_, rfl⟩
            exact .ofOutside mirrors.hpack mirrors.prefaceReceived noBlock outside rfl (Or.inl rfl)
        | false =>
            rw [ends] at adds
            obtain rfl := Option.some.inj adds
            refine Or.inl ⟨_, _, if_neg Bool.false_ne_true, ?_, rfl⟩
            exact .ofOutside mirrors.hpack mirrors.prefaceReceived noBlock outside notPending
              (Or.inr ⟨_, _, rfl, rfl, rfl⟩)
      · have missing : [(streamId, only)].lookup frame.streamId = none := by
          rw [List.lookup_cons, beq_false_of_ne same]
          rfl
        rw [missing] at lookupEq
        exact absurd lookupEq.symm (Option.some_ne_none stream)
  next => simp at adds

/-- Every frame that may come next and comes alone. -/
theorem onFrame_agrees (steps : demux.step decoder frame = some after)
    (alone : Demux.Alone decoder maxHeaders (some demux) frame) :
    Agrees (onFrame decoder maxHeaders frame parser event) demux after := by
  by_cases isHeaders : frame.type = 0x01
  · exact onHeaders_agrees mirrors isHeaders steps alone
  by_cases continues : frame.type = 0x09
  · exact onContinuation_agrees mirrors continues steps alone
  rw [Demux.step, if_neg (not_or.mpr ⟨isHeaders, continues⟩)] at steps
  split at steps
  next => simp at steps
  next begun =>
    have noBlock : demux.block = none := Option.not_isSome_iff_eq_none.mp begun
    have outside := (mirrors.outside noBlock).1
    rw [onFrame, if_neg (by simp [outside]), if_neg isHeaders, if_neg continues]
    split at steps
    next isData =>
      rw [if_pos isData]
      split at steps
      next => simp at steps
      next named => exact onData_agrees mirrors noBlock named steps
    next notData =>
      rw [if_neg notData]
      split at steps
      next => simp at steps
      next kept =>
        rw [if_neg kept]
        split at steps
        next skipped =>
          obtain rfl := Option.some.inj steps
          rw [if_pos skipped]
          exact Or.inl ⟨parser, event, rfl, mirrors, rfl⟩
        next => simp at steps

end

/-! ## The frames of a stream -/

/-- The stream starts with the given frames, and the rest follows them. -/
inductive Reads : Bytes → List Frame → Bytes → Prop where
  | nil (stream : Bytes) : Reads stream [] stream
  | cons {stream stream' rest : Bytes} {frame : Frame} {frames : List Frame} :
      readFrame stream = some (frame, stream') → Reads stream' frames rest →
        Reads stream (frame :: frames) rest

/-- Bytes behind a whole frame do not change it. -/
theorem readFrame_append {stream rest : Bytes} (more : Bytes)
    (read : readFrame stream = some (frame, rest)) :
    readFrame (stream ++ more) = some (frame, rest ++ more) := by
  unfold readFrame at read
  split at read
  next l0 l1 l2 type flags s0 s1 s2 s3 behind =>
    dsimp only at read
    split at read
    next => simp at read
    next whole =>
      obtain ⟨rfl, rfl⟩ := read
      simp only [List.cons_append, readFrame]
      rw [if_neg (by rw [List.length_append]; omega),
        List.take_append_of_le_length (by omega), List.drop_append_of_le_length (by omega)]
  next => simp at read

theorem readFrame_shorter {stream rest : Bytes} (read : readFrame stream = some (frame, rest)) :
    rest.length < stream.length := by
  unfold readFrame at read
  split at read
  next =>
    dsimp only at read
    split at read
    next => simp at read
    next =>
      obtain ⟨-, rfl⟩ := read
      simp only [List.length_drop, List.length_cons]
      omega
  next => simp at read

/-- Where the parser stands in a connection: the stream behind what it has consumed starts
with the frames that are left, and these may come after the frames it has seen, alone. -/
structure Standing (decoder : Decoder H) (maxHeaders : Nat) (demux final : Demux H)
    (frames : List Frame) (stream rest : Bytes) : Prop where
  reads : Reads stream frames rest
  ends : readFrame rest = none
  legal : execute (Demux.advance decoder) (some demux) frames = some final
  alone : Admissible (Demux.advance decoder) (Demux.Alone decoder maxHeaders) (some demux) frames

variable {final : Demux H} {frames : List Frame} {stream rest future : Bytes}

/-- A whole frame is the next one of the connection. -/
theorem Standing.next (standing : Standing decoder maxHeaders demux final frames stream rest)
    {behind : Bytes} (read : readFrame stream = some (frame, behind)) :
    ∃ after frames', frames = frame :: frames' ∧ demux.step decoder frame = some after ∧
      Demux.Alone decoder maxHeaders (some demux) frame ∧
      Standing decoder maxHeaders after final frames' behind rest := by
  obtain ⟨reads, ends, legal, alone⟩ := standing
  cases reads with
  | nil =>
      rw [ends] at read
      exact absurd read.symm (Option.some_ne_none _)
  | cons first others =>
      obtain ⟨rfl, rfl⟩ := Prod.mk.inj (Option.some.inj (read.symm.trans first))
      obtain ⟨aloneFirst, aloneRest⟩ := alone
      rw [execute_cons] at legal
      cases stepped : demux.step decoder frame with
      | none =>
          have dead : Demux.advance decoder (some demux) frame = none := stepped
          rw [dead, execute_none fun _ => rfl] at legal
          exact absurd legal.symm (Option.some_ne_none final)
      | some after =>
          have advanced : Demux.advance decoder (some demux) frame = some after := stepped
          rw [advanced] at legal aloneRest
          exact ⟨after, _, rfl, rfl, aloneFirst, others, ends, legal, aloneRest⟩

/-- A parser that waits for more bytes or has returned a request, and the bytes it has left. -/
structure Reached (decoder : Decoder H) (maxHeaders : Nat) (final : Demux H) (rest future : Bytes)
    (parser : Parser H) (event : Event) (stream : Bytes) (requests : List Event) : Prop where
  standing : ∃ demux frames, Mirrors parser event demux ∧
    Standing decoder maxHeaders demux final frames (stream ++ future) rest ∧
    demux.requests = requests

/-- The loop goes on to the end of a stream, or to the end of the whole frames. -/
theorem crawl_agrees {fuel : Nat} (mirrors : Mirrors parser event demux)
    (standing : Standing decoder maxHeaders demux final frames (stream ++ future) rest)
    (enough : stream.length ≤ fuel) :
    ∃ parser' event' stream',
      crawl decoder maxHeaders fuel parser event stream = .incomplete parser' event' stream' ∧
          readFrame stream' = none ∧
          Reached decoder maxHeaders final rest future parser' event' stream' demux.requests ∨
        crawl decoder maxHeaders fuel parser event stream = .ok parser' event' stream' ∧
          Reached decoder maxHeaders final rest future parser' event' stream'
            (demux.requests ++ [event']) := by
  induction fuel generalizing parser event demux frames stream with
  | zero =>
      obtain rfl : stream = [] := List.eq_nil_of_length_eq_zero (by omega)
      exact ⟨parser, event, [], Or.inl ⟨rfl, rfl, ⟨demux, frames, mirrors, standing, rfl⟩⟩⟩
  | succ fuel ih =>
      rw [crawl]
      cases read : readFrame stream with
      | none =>
          exact ⟨parser, event, stream, Or.inl ⟨rfl, read, ⟨demux, frames, mirrors, standing, rfl⟩⟩⟩
      | some result =>
          obtain ⟨frame, behind⟩ := result
          have shorter := readFrame_shorter read
          obtain ⟨after, frames', -, stepped, alone, standing'⟩ :=
            standing.next (readFrame_append future read)
          dsimp only
          rcases onFrame_agrees mirrors stepped alone with
            ⟨parser', event', outcome, mirrors', same⟩ |
            ⟨parser', event', outcome, mirrors', added⟩
          · rw [outcome]
            have later := ih mirrors' standing' (by omega)
            rwa [same] at later
          · rw [outcome]
            exact ⟨parser', event', behind,
              Or.inr ⟨rfl, ⟨after, frames', mirrors', standing', added⟩⟩⟩

/-! ## Whole connections -/

/-- Where a connection stands that was given the bytes before `future`: it waits for the
preface, or it stands behind the frames it has consumed. -/
inductive Follows (decoder : Decoder H) (maxHeaders : Nat) (final : Demux H)
    (stream rest future : Bytes) (connection : Connection H) : Prop where
  | before (demux : Demux H) (frames : List Frame)
      (mirrors : Mirrors { connection.parser with prefaceReceived := true } connection.event demux)
      (standing : Standing decoder maxHeaders demux final frames stream rest)
      (notReceived : connection.parser.prefaceReceived = false)
      (received : connection.pending ++ future = preface ++ stream)
      (requests : demux.requests = connection.returned)
      (short : connection.waiting = true → connection.pending.length < preface.length)
  | behind
      (reached : Reached decoder maxHeaders final rest future connection.parser
        connection.event connection.pending connection.returned)
      (whole : connection.waiting = true → readFrame connection.pending = none)

/-- What a call does once the preface is consumed. -/
theorem crawl_follows {tail : Bytes} (mirrors : Mirrors parser event demux)
    (standing : Standing decoder maxHeaders demux final frames (tail ++ future) rest) :
    ∃ connection, Connection.after demux.requests
        (crawl decoder maxHeaders tail.length parser event tail) = some connection ∧
      Follows decoder maxHeaders final stream rest future connection := by
  obtain ⟨parser', event', tail', ⟨crawled, whole, reached⟩ | ⟨crawled, reached⟩⟩ :=
    crawl_agrees mirrors standing le_rfl
  · rw [crawled]
    exact ⟨_, rfl, .behind reached fun _ => whole⟩
  · rw [crawled]
    exact ⟨_, rfl, .behind reached fun waits => absurd waits Bool.false_ne_true⟩

theorem call_follows {connection : Connection H} {received : Bytes}
    (follows : Follows decoder maxHeaders final stream rest (received ++ future) connection) :
    ∃ next, call decoder maxHeaders (some connection) received = some next ∧
      Follows decoder maxHeaders final stream rest future next := by
  change ∃ next, Connection.after connection.returned (parse decoder maxHeaders
    connection.parser connection.event (connection.pending ++ received)) = some next ∧ _
  cases follows with
  | behind reached whole =>
      obtain ⟨demux, frames, mirrors, standing, same⟩ := reached.standing
      rw [← List.append_assoc] at standing
      rw [parse, if_pos mirrors.prefaceReceived, ← same]
      exact crawl_follows mirrors standing
  | before demux frames mirrors standing notReceived receivedEq same short =>
      rw [← List.append_assoc] at receivedEq
      rw [parse, if_neg (by rw [notReceived]; exact Bool.false_ne_true)]
      by_cases tooShort : (connection.pending ++ received).length < preface.length
      · rw [if_pos tooShort]
        exact ⟨_, rfl, .before demux frames mirrors standing notReceived receivedEq same
          fun _ => tooShort⟩
      · obtain ⟨tail, startEq⟩ : preface <+: connection.pending ++ received :=
          List.prefix_of_prefix_length_le (List.prefix_append preface stream)
            ⟨future, receivedEq⟩ (by omega)
        rw [← startEq, List.append_assoc] at receivedEq
        rw [← List.append_cancel_left receivedEq] at standing
        rw [if_neg tooShort, ← startEq, List.take_left, if_neg (not_not_intro rfl),
          List.drop_left, ← same]
        exact crawl_follows mirrors standing

theorem execute_call_follows {connection : Connection H} {calls : List Bytes}
    (follows : Follows decoder maxHeaders final stream rest (calls.flatten ++ future) connection) :
    ∃ last, execute (call decoder maxHeaders) (some connection) calls = some last ∧
      Follows decoder maxHeaders final stream rest future last := by
  induction calls generalizing connection with
  | nil => exact ⟨connection, rfl, follows⟩
  | cons received calls ih =>
      rw [List.flatten_cons, List.append_assoc] at follows
      obtain ⟨next, called, follows'⟩ := call_follows follows
      rw [execute_cons, called]
      exact ih follows'

/-- The requests that are still to come follow those that were returned. -/
theorem Standing.requests_prefix
    (standing : Standing decoder maxHeaders demux final frames stream rest)
    (mirrors : Mirrors parser event demux) : demux.requests <+: final.requests := by
  induction frames generalizing demux stream parser event with
  | nil =>
      obtain rfl := Option.some.inj standing.legal
      exact List.prefix_rfl
  | cons frame frames ih =>
      cases standing.reads with
      | cons read others =>
          obtain ⟨after, frames', framesEq, stepped, alone, standing'⟩ := standing.next read
          obtain ⟨-, rfl⟩ := List.cons.inj framesEq
          rcases onFrame_agrees mirrors stepped alone with
            ⟨_, _, -, mirrors', same⟩ | ⟨_, _, -, mirrors', added⟩
          · rw [← same]
            exact ih standing' mirrors'
          · apply List.IsPrefix.trans _ (ih standing' mirrors')
            rw [added]
            exact List.prefix_append _ _

/-- For every header decoder, every connection and every division of its bytes into calls: if
the frames of the connection may follow each other, a stream is opened only when no other
one is open, and no header block has more entries than the event has room for, then every
event returned is the request of one stream, in the order in which the streams end, and none
is missing once all bytes were received and no whole frame is left. -/
theorem returns_requests_of_streams (hpack : H) (event : Event)
    (reads : Reads stream frames rest) (ends : readFrame rest = none)
    (legal : execute (Demux.advance decoder) (some (Demux.fresh hpack)) frames = some final)
    (alone : Admissible (Demux.advance decoder) (Demux.Alone decoder maxHeaders)
      (some (Demux.fresh hpack)) frames)
    {calls : List Bytes} (received : calls.flatten ++ future = preface ++ stream) :
    ∃ last, execute (call decoder maxHeaders) (some (Connection.fresh hpack event)) calls =
        some last ∧
      last.returned <+: final.requests ∧
      (future = [] → last.waiting = true → last.returned = final.requests) := by
  have follows : Follows decoder maxHeaders final stream rest (calls.flatten ++ future)
      (Connection.fresh hpack event) :=
    .before (Demux.fresh hpack) frames (.ofOutside rfl rfl rfl rfl rfl (Or.inl rfl))
      ⟨reads, ends, legal, alone⟩ rfl received rfl
      (fun waits => absurd waits Bool.false_ne_true)
  obtain ⟨last, called, follows'⟩ := execute_call_follows follows
  refine ⟨last, called, ?_⟩
  cases follows' with
  | before demux frames mirrors standing notReceived receivedEq same short =>
      rw [← same]
      refine ⟨standing.requests_prefix mirrors, fun noMore waits => ?_⟩
      rw [noMore, List.append_nil] at receivedEq
      have lengthEq := congrArg List.length receivedEq
      rw [List.length_append] at lengthEq
      have tooShort := short waits
      omega
  | behind reached whole =>
      obtain ⟨demux, frames, mirrors, standing, same⟩ := reached.standing
      rw [← same]
      refine ⟨standing.requests_prefix mirrors, fun noMore waits => ?_⟩
      rw [noMore, List.append_nil] at standing
      have stopped := whole waits
      obtain ⟨reads, -, legal, -⟩ := standing
      cases reads with
      | nil => exact congrArg Demux.requests (Option.some.inj legal)
      | cons read others =>
          rw [stopped] at read
          exact absurd read.symm (Option.some_ne_none _)

/-! ## Two connections -/

/-- A decoder of header blocks that have only indexed fields, for the first entries of the
static table. -/
def indexedOnly : Decoder Unit := fun _ block =>
  ((), block.mapM fun byte =>
    if byte = 0x82 then some ⟨ascii ":method", ascii "GET"⟩
    else if byte = 0x83 then some ⟨ascii ":method", ascii "POST"⟩
    else if byte = 0x84 then some ⟨ascii ":path", ascii "/"⟩
    else if byte = 0x85 then some ⟨ascii ":path", ascii "/index.html"⟩
    else none)

/-- A HEADERS frame with two indexed fields that ends its block and not its stream. -/
def headersFrame (streamId method path : BitVec 8) : Bytes :=
  [0, 0, 2, 1, 4, 0, 0, 0, streamId, method, path]

/-- A DATA frame of one byte. -/
def dataFrame (streamId flags content : BitVec 8) : Bytes :=
  [0, 0, 1, 0, flags, 0, 0, 0, streamId, content]

/-- The bytes of two streams after each other. -/
def twoStreams : Bytes :=
  [headersFrame 1 0x83 0x84, dataFrame 1 0 97, dataFrame 1 1 98, headersFrame 3 0x83 0x85,
    dataFrame 3 1 99].flatten

/-- The frames of two streams after each other. -/
def twoStreamFrames : List Frame :=
  [⟨1, 4, 1, [0x83, 0x84]⟩, ⟨0, 0, 1, [97]⟩, ⟨0, 1, 1, [98]⟩, ⟨1, 4, 3, [0x83, 0x85]⟩,
    ⟨0, 1, 3, [99]⟩]

theorem reads_twoStreams : Reads twoStreams twoStreamFrames [] := by
  have cons {bytes stream rest : Bytes} {frame : Frame} {frames : List Frame}
      (whole : readFrame bytes = some (frame, [])) (others : Reads stream frames rest) :
      Reads (bytes ++ stream) (frame :: frames) rest :=
    .cons (readFrame_append stream whole) others
  exact cons (by decide) (cons (by decide) (cons (by decide) (cons (by decide)
    (cons (by decide) (Reads.nil [])))))

/-- Two streams after each other, received in two pieces and parsed in four calls. -/
theorem returns_requests_of_streams_inTurn :
    ∃ last, execute (call indexedOnly 16) (some (Connection.fresh () Event.reset))
        [preface ++ twoStreams.take 13, twoStreams.drop 13, [], []] = some last ∧
      last.returned <+: [⟨ascii "POST", ascii "/", [], [97, 98], 2⟩,
        ⟨ascii "POST", ascii "/index.html", [], [99], 1⟩] ∧
      ([] = ([] : Bytes) → last.waiting = true →
        last.returned = [⟨ascii "POST", ascii "/", [], [97, 98], 2⟩,
          ⟨ascii "POST", ascii "/index.html", [], [99], 1⟩]) := by
  have legal : execute (Demux.advance indexedOnly) (some (Demux.fresh ())) twoStreamFrames =
      some ⟨(), none, [], [⟨ascii "POST", ascii "/", [], [97, 98], 2⟩,
        ⟨ascii "POST", ascii "/index.html", [], [99], 1⟩]⟩ := by
    decide +kernel
  exact returns_requests_of_streams () Event.reset reads_twoStreams rfl legal
    (by decide +kernel) (by decide +kernel)

/-- The DATA frame that ends the first stream comes after the HEADERS frame of the second
one: the event that is returned has the path of the second stream and the body of the first. -/
theorem interleaved_streams_mix :
    (execute (Demux.advance indexedOnly) (some (Demux.fresh ()))
        [⟨1, 4, 1, [0x83, 0x84]⟩, ⟨1, 4, 3, [0x83, 0x85]⟩, ⟨0, 1, 1, [97]⟩]).map
          Demux.requests = some [⟨ascii "POST", ascii "/", [], [97], 1⟩] ∧
      (execute (call indexedOnly 16) (some (Connection.fresh () Event.reset))
        [preface ++ headersFrame 1 0x83 0x84 ++ headersFrame 3 0x83 0x85 ++
          dataFrame 1 1 97]).map Connection.returned =
        some [⟨ascii "POST", ascii "/index.html", [], [97], 1⟩] := by
  decide +kernel

end SlabFlux.Transport.Http2
