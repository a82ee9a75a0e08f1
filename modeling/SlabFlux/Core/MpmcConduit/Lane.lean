import SlabFlux.Lib.Execution
import SlabFlux.Lib.Word

/-!
# One lane of the multi-producer multi-consumer conduit

A lane is a ring of slots, each with a ticket (`sequences_[i]`) that is at once
lock, version and full/empty flag.  An operation claims a position by advancing
a gate with a compare-and-swap, copies the item, and publishes by storing the
slot's next ticket.

The model runs any number of threads under a scheduler.  One move is one atomic
load, compare-and-swap or store, or one copy of an item into or out of a slot.
A thread whose attempt is refused leaves the lane; in the conduit it goes on to
the next one.
-/

namespace SlabFlux.Core.MpmcConduit

open Lib

universe u v

variable {Thread : Type u} {α : Type v}

/-- A `std::size_t` ticket or gate value. -/
abbrev Ticket := BitVec 64

/-- A lane capacity: `LaneCapacity` is a power of two that fits `std::size_t`.
One-slot lanes are left out, their full and empty tickets coincide. -/
structure Capacity where
  exponent : Nat
  positive : 0 < exponent
  fits : exponent ≤ 63

variable (capacity : Capacity)

namespace Capacity

/-- `LaneCapacity`. -/
def size : Nat := 2 ^ capacity.exponent

def laneMask : Ticket := BitVec.ofNat 64 (capacity.size - 1)

/-- `pos & LaneMask`. -/
def slotAt (position : Ticket) : Nat :=
  (position &&& capacity.laneMask).toNat

theorem two_le_size : 2 ≤ capacity.size :=
  Nat.pow_le_pow_right (n := 2) (by decide) capacity.positive

theorem size_le : capacity.size ≤ 2 ^ 63 :=
  Nat.pow_le_pow_right (by decide) capacity.fits

@[simp] theorem slotAt_ofNat (position : Nat) :
    capacity.slotAt (BitVec.ofNat 64 position) = position % capacity.size :=
  Word.toNat_ofNat_and_mask (by have := capacity.fits; omega) position

end Capacity

/-- Shared memory of a lane. -/
structure Lane (α : Type v) where
  sequences : Nat → Ticket
  data : Nat → α
  physicalIngressGate : Ticket
  physicalEgressGate : Ticket

/-- Operations a thread can start. -/
inductive Call (α : Type v) where
  | tryPush (item : α)
  | tryPop

/-- Where a thread stands.  An idle thread remembers the result of its last
operation. -/
inductive Pc (α : Type v) where
  | idle (last : Option Bool)
  | pushLoadGate (item : α)
  | pushLoadTicket (item : α) (pos : Ticket)
  | pushClaim (item : α) (pos : Ticket)
  | pushWrite (item : α) (pos : Ticket)
  | pushPublish (pos : Ticket)
  | popLoadGate
  | popLoadTicket (pos : Ticket)
  | popClaim (pos : Ticket)
  | popRead (pos : Ticket)
  | popPublish (pos : Ticket) (item : α)

/-- The lane, its threads and the history: the item of every ingress ticket in
the order the tickets were claimed, and the egress ticket and item of every
completed pop in the order the pops completed. -/
structure State (Thread : Type u) (α : Type v) extends Lane α where
  pc : Thread → Pc α
  pushes : List α
  claimedPops : Nat
  pops : List (Nat × α)

variable [DecidableEq Thread]

/-- Move one thread to another program point. -/
def State.goto (s : State Thread α) (thread : Thread) (pc : Pc α) : State Thread α :=
  { s with pc := Function.update s.pc thread pc }

/-- One move of a thread; `next` is the operation it starts when it is idle. -/
def stepThread (capacity : Capacity) (s : State Thread α) (thread : Thread)
    (next : Call α) : State Thread α :=
  match s.pc thread with
  | .idle _ =>
      match next with
      | .tryPush item => s.goto thread (.pushLoadGate item)
      | .tryPop => s.goto thread .popLoadGate
  | .pushLoadGate item =>
      s.goto thread (.pushLoadTicket item s.physicalIngressGate)
  | .pushLoadTicket item pos =>
      let slotTicket := s.sequences (capacity.slotAt pos)
      if slotTicket = pos then
        s.goto thread (.pushClaim item pos)
      else if (slotTicket - pos).slt 0 then
        s.goto thread (.idle (some false))
      else
        s.goto thread (.pushLoadGate item)
  | .pushClaim item pos =>
      if s.physicalIngressGate = pos then
        { s.goto thread (.pushWrite item pos) with
          physicalIngressGate := pos + 1
          pushes := s.pushes ++ [item] }
      else
        -- a failed exchange leaves the observed gate value in `pos`
        s.goto thread (.pushLoadTicket item s.physicalIngressGate)
  | .pushWrite item pos =>
      { s.goto thread (.pushPublish pos) with
        data := Function.update s.data (capacity.slotAt pos) item }
  | .pushPublish pos =>
      { s.goto thread (.idle (some true)) with
        sequences := Function.update s.sequences (capacity.slotAt pos) (pos + 1) }
  | .popLoadGate => s.goto thread (.popLoadTicket s.physicalEgressGate)
  | .popLoadTicket pos =>
      let slotTicket := s.sequences (capacity.slotAt pos)
      if slotTicket = pos + 1 then
        s.goto thread (.popClaim pos)
      else if (slotTicket - (pos + 1)).slt 0 then
        s.goto thread (.idle (some false))
      else
        s.goto thread .popLoadGate
  | .popClaim pos =>
      if s.physicalEgressGate = pos then
        { s.goto thread (.popRead pos) with
          physicalEgressGate := pos + 1
          claimedPops := s.claimedPops + 1 }
      else
        s.goto thread (.popLoadTicket s.physicalEgressGate)
  | .popRead pos =>
      s.goto thread (.popPublish pos (s.data (capacity.slotAt pos)))
  | .popPublish pos item =>
      { s.goto thread (.idle (some true)) with
        sequences := Function.update s.sequences (capacity.slotAt pos)
          (pos + capacity.laneMask + 1)
        pops := s.pops ++ [(pos.toNat, item)] }

/-- The scheduler picks the thread that moves. -/
def step (capacity : Capacity) (s : State Thread α) (move : Thread × Call α) : State Thread α :=
  stepThread capacity s move.1 move.2

/-- A freshly constructed lane: slot `i` has ticket `i`. -/
def initial (data : Nat → α) : State Thread α where
  sequences := fun slot => BitVec.ofNat 64 slot
  data := data
  physicalIngressGate := 0
  physicalEgressGate := 0
  pc := fun _ => .idle none
  pushes := []
  claimedPops := 0
  pops := []

end SlabFlux.Core.MpmcConduit
