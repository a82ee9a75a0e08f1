import SlabFlux.Lib.Execution
import SlabFlux.Lib.Word
import SlabFlux.Lib.Ring

/-!
# The single-producer single-consumer conduit

`spsc_conduit<T, RequestedSize>` is a ring of `Size` slots.  Each side owns a
local cursor, publishes it through a gate, and keeps a shadow copy of the other
side's gate that it refreshes only when the shadow copy says full or empty.

The model runs one producer and one consumer under a scheduler.  One move is at
most one access to a gate or to a buffer slot; a batch copy therefore takes one
move per slot, which is finer than the granularity of the gates.
-/

namespace SlabFlux.Core.SpscConduit

open Lib

universe u

variable {α : Type u}

/-- A `std::size_t` cursor.  Cursors run freely and wrap modulo `2 ^ 64`. -/
abbrev Cursor := BitVec 64

/-- One instantiation of the template.  `Size` is a `constexpr`, so the compiler
rejects a request whose rounded size is not a `std::size_t`. -/
structure Instantiation where
  requestedSize : Nat
  representable : bitCeil (max requestedSize 2) < 2 ^ 64

namespace Instantiation

variable (inst : Instantiation)

/-- `std::bit_ceil(std::max<size_t>(RequestedSize, 2))`.  `spsc_ring_conduit` takes any size; here
it has at least two slots. -/
def size : Nat := bitCeil (max inst.requestedSize 2)

/-- `Size - 1`. -/
def mask : Cursor := BitVec.ofNat 64 (inst.size - 1)

theorem two_le_size : 2 ≤ inst.size :=
  (Nat.le_max_right _ _).trans (le_bitCeil _)

theorem size_lt : inst.size < 2 ^ 64 := inst.representable

/-- The slot a cursor addresses: `cursor & Mask`. -/
def slotAt (cursor : Cursor) : Nat :=
  (cursor &&& inst.mask).toNat

/-- A cursor that stores a position addresses the slot of that position. -/
@[simp] theorem slotAt_ofNat (position : Nat) :
    inst.slotAt (BitVec.ofNat 64 position) = position % inst.size := by
  have fits : Nat.clog 2 (max inst.requestedSize 2) ≤ 64 := by
    have bound := inst.size_lt
    exact (Nat.pow_lt_pow_iff_right (by decide)).mp bound |>.le
  exact Word.toNat_ofNat_and_mask fits position

end Instantiation

/-- Memory of the conduit object. -/
structure Conduit (α : Type u) where
  buffer : Nat → α
  localIngressCursor : Cursor
  physicalIngressGate : Cursor
  cachedEgressCursor : Cursor
  localEgressCursor : Cursor
  physicalEgressGate : Cursor
  cachedIngressCursor : Cursor

/-- Producer entry points.  `inBatch` is the array `in_batch[0 .. max_count)`. -/
inductive PushCall (α : Type u) where
  | tryPush (item : α)
  | pushBatch (inBatch : List α)

/-- Consumer entry points other than `consume`. -/
inductive PopCall where
  | tryPop
  | popBatch (maxCount : Nat)
  | peek

/-- Where the producer stands inside a call. -/
inductive Producer (α : Type u) where
  | idle
  | loadGate (call : PushCall α)
  | fill (pending : List (Nat × α)) (items : List α)

/-- Where the consumer stands inside a call.  After a successful `peek` it holds
a pointer to a slot until it calls `consume` or starts another call. -/
inductive Consumer (α : Type u) where
  | idle
  | loadGate (call : PopCall)
  | drain (pending : List Nat) (taken : List α)
  | peeked (slot : Nat)

/-- The conduit with its two parties, the items pushed successfully and the
items handed to the consumer so far. -/
structure State (α : Type u) extends Conduit α where
  producer : Producer α
  consumer : Consumer α
  pushed : List α
  delivered : List α

namespace Conduit

variable (inst : Instantiation) (conduit : Conduit α)

/-- `local_ingress_cursor_ - cached_egress_cursor_`. -/
def ingressDistance : Nat :=
  (conduit.localIngressCursor - conduit.cachedEgressCursor).toNat

/-- `cached_ingress_cursor_ - local_egress_cursor_`. -/
def egressDistance : Nat :=
  (conduit.cachedIngressCursor - conduit.localEgressCursor).toNat

/-- `local_ingress_cursor_ - cached_egress_cursor_ >= Size`. -/
def seemsFull : Bool := decide (inst.size ≤ conduit.ingressDistance)

/-- `local_egress_cursor_ == cached_ingress_cursor_`. -/
def seemsEmpty : Bool :=
  decide (conduit.localEgressCursor = conduit.cachedIngressCursor)

/-- The buffer writes of a push call that passed its capacity check. -/
def beginPush : PushCall α → Producer α
  | .tryPush item =>
      .fill [(inst.slotAt conduit.localIngressCursor, item)] [item]
  | .pushBatch inBatch =>
      let available := inst.size - conduit.ingressDistance
      let count := if available < inBatch.length then available else inBatch.length
      let items := inBatch.take count
      let slots := Ring.copySlots inst.size
        (inst.slotAt conduit.localIngressCursor) count
      .fill (slots.zip items) items

/-- The buffer reads of a pop call that passed its emptiness check. -/
def beginPop : PopCall → Consumer α
  | .tryPop => .drain [inst.slotAt conduit.localEgressCursor] []
  | .popBatch maxCount =>
      let available := conduit.egressDistance
      let count := if available < maxCount then available else maxCount
      .drain (Ring.copySlots inst.size (inst.slotAt conduit.localEgressCursor) count) []
  | .peek => .peeked (inst.slotAt conduit.localEgressCursor)

end Conduit

/-- One producer move.  `next` is the call the producer makes when it is idle. -/
def stepProducer (inst : Instantiation) (next : PushCall α) (s : State α) : State α :=
  match s.producer with
  | .idle =>
      if s.seemsFull inst then
        { s with producer := .loadGate next }
      else
        { s with producer := s.beginPush inst next }
  | .loadGate call =>
      let s := { s with cachedEgressCursor := s.physicalEgressGate }
      if s.seemsFull inst then
        { s with producer := .idle }
      else
        { s with producer := s.beginPush inst call }
  | .fill ((slot, item) :: pending) items =>
      { s with
        buffer := Function.update s.buffer slot item
        producer := .fill pending items }
  | .fill [] items =>
      let cursor := s.localIngressCursor + BitVec.ofNat 64 items.length
      { s with
        localIngressCursor := cursor
        physicalIngressGate := cursor
        producer := .idle
        pushed := s.pushed ++ items }

/-- The consumer enters a pop call. -/
def startPop (inst : Instantiation) (call : PopCall) (s : State α) : State α :=
  if s.seemsEmpty then
    { s with consumer := .loadGate call }
  else
    { s with consumer := s.beginPop inst call }

/-- What the consumer does next when it is between calls. -/
inductive ConsumerChoice where
  | call (call : PopCall)
  | consume

/-- One consumer move.  `next` is the call the consumer makes when it is between
calls; `consume` is only called on an item that was peeked at. -/
def stepConsumer (inst : Instantiation) (next : ConsumerChoice) (s : State α) : State α :=
  match s.consumer, next with
  | .idle, .call call => startPop inst call s
  | .idle, .consume => s
  | .peeked _, .call call => startPop inst call s
  | .peeked slot, .consume =>
      let cursor := s.localEgressCursor + 1
      { s with
        localEgressCursor := cursor
        physicalEgressGate := cursor
        consumer := .idle
        delivered := s.delivered ++ [s.buffer slot] }
  | .loadGate call, _ =>
      let s := { s with cachedIngressCursor := s.physicalIngressGate }
      if s.seemsEmpty then
        { s with consumer := .idle }
      else
        { s with consumer := s.beginPop inst call }
  | .drain (slot :: pending) taken, _ =>
      { s with consumer := .drain pending (taken ++ [s.buffer slot]) }
  | .drain [] taken, _ =>
      let cursor := s.localEgressCursor + BitVec.ofNat 64 taken.length
      { s with
        localEgressCursor := cursor
        physicalEgressGate := cursor
        consumer := .idle
        delivered := s.delivered ++ taken }

/-- The scheduler picks which side moves. -/
inductive Move (α : Type u) where
  | producer (next : PushCall α)
  | consumer (next : ConsumerChoice)

def step (inst : Instantiation) (s : State α) : Move α → State α
  | .producer next => stepProducer inst next s
  | .consumer next => stepConsumer inst next s

/-- An empty conduit whose cursors all start at `start`. -/
def initial (start : Cursor) (buffer : Nat → α) : State α where
  buffer := buffer
  localIngressCursor := start
  physicalIngressGate := start
  cachedEgressCursor := start
  localEgressCursor := start
  physicalEgressGate := start
  cachedIngressCursor := start
  producer := .idle
  consumer := .idle
  pushed := []
  delivered := []

end SlabFlux.Core.SpscConduit
