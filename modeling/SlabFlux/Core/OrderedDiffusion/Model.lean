import SlabFlux.Lib.Execution
import SlabFlux.Lib.Word

/-!
# The ordered diffusion conduit

Each slot of the ring has a one-byte state.  An operation reads 32 state bytes at a time,
beginning at a hint cursor, and tries to claim the slots it saw in the wanted state, the
lowest first.  There are no tickets: the compare-and-swap on the slot's state is the only
thing that makes a claim exclusive.

Any number of threads run under a scheduler.  One move of a thread is one atomic load,
compare-and-swap or store, one copy of an item, or the load of a single byte of a vector.
The bytes of a vector are loaded in any order, with moves of other threads between them.
-/

namespace SlabFlux.Core.OrderedDiffusion

open Lib

universe u v

variable {Thread : Type u} {α : Type v}

/-- A `std::size_t` sequence number. -/
abbrev Word := BitVec 64

/-- `RequestedSize`, whose `std::bit_ceil` has to be representable. -/
structure Size where
  requested : Nat
  representable : requested ≤ 2 ^ 63

namespace Size

def capacity (size : Size) : Nat :=
  if size.requested < 32 then 32 else bitCeil size.requested

def mask (size : Size) : Word := BitVec.ofNat 64 size.capacity - 1

/-- The slot of a sequence number. -/
def slotAt (size : Size) (logical : Word) : Nat := (logical &&& size.mask).toNat

end Size

/-- The states of a slot. -/
inductive SlotState where
  | empty | reserved | ready | claimed
  deriving DecidableEq, Repr

/-- `try_push` and `try_pop`.  They differ in the states they move a slot through, in the
cursor, and in the direction of the copy. -/
inductive Call (α : Type v) where
  | tryPush (item : α)
  | tryPop

namespace Call

/-- The state a slot has to be in. -/
def wanted : Call α → SlotState
  | .tryPush _ => .empty
  | .tryPop => .ready

/-- The state that marks a slot as claimed. -/
def marked : Call α → SlotState
  | .tryPush _ => .reserved
  | .tryPop => .claimed

/-- The state a slot is left in. -/
def released : Call α → SlotState
  | .tryPush _ => .ready
  | .tryPop => .empty

end Call

/-- The bytes of a vector loaded so far. -/
abbrev Loaded := Nat → Option SlotState

/-- Where a thread stands.  An idle thread remembers the result of its last operation. -/
inductive Pc (α : Type v) where
  | idle (last : Option Bool)
  | loadCursor (call : Call α)
  | loadStates (call : Call α) (start : Word) (offset : Nat) (states : Loaded)
  | claim (call : Call α) (start : Word) (offset : Nat) (mask : List Nat)
  | copy (call : Call α) (logical : Word) (target : Nat)
  | release (call : Call α) (logical : Word) (target : Nat)
  | advanceLoad (call : Call α) (newVal : Word)
  | advance (call : Call α) (newVal current : Word)

/-- The conduit, its threads and the history: the items in the order their slots became
ready, and the items in the order they were copied out. -/
structure State (Thread : Type u) (α : Type v) where
  slots : Nat → SlotState
  data : Nat → α
  ingressCursor : Word
  egressCursor : Word
  pc : Thread → Pc α
  pushed : List α
  popped : List α

/-- What the scheduler decides: the operation an idle thread starts, the value a load of a
cursor observes, the byte of the vector loaded next, and whether a weak exchange fails
although the cursor has the expected value. -/
structure Choice (α : Type v) where
  next : Call α
  observed : Word
  byte : Nat
  spurious : Bool

/-! ## The sweep -/

def logicalBase (start : Word) (offset : Nat) : Word :=
  (start + BitVec.ofNat 64 offset) &&& ~~~31#64

def physicalBase (size : Size) (start : Word) (offset : Nat) : Nat :=
  size.slotAt (logicalBase start offset)

/-- `bit_offset`: bits of the first block that fall behind the cursor are ignored. -/
def bitOffset (start : Word) (offset : Nat) : Nat :=
  if offset = 0 then ((start + BitVec.ofNat 64 offset) &&& 31#64).toNat else 0

/-- All bytes of the vector have been loaded. -/
def complete (states : Loaded) : Bool := (List.range 32).all fun bit => (states bit).isSome

/-- The set bits of `mask`, the lowest first.  `ctz` takes the first, `mask & (mask - 1)`
drops it. -/
def hits (call : Call α) (start : Word) (offset : Nat) (states : Loaded) : List Nat :=
  (List.range 32).filter fun bit =>
    bitOffset start offset ≤ bit ∧ states bit = some call.wanted

def logicalTarget (start : Word) (offset bit : Nat) : Word :=
  logicalBase start offset + BitVec.ofNat 64 bit

def physicalTarget (size : Size) (start : Word) (offset bit : Nat) : Nat :=
  size.slotAt (BitVec.ofNat 64 (physicalBase size start offset) + BitVec.ofNat 64 bit)

/-! ## Moves -/

/-- The cursor of an operation. -/
def State.cursor (s : State Thread α) : Call α → Word
  | .tryPush _ => s.ingressCursor
  | .tryPop => s.egressCursor

def State.setCursor (s : State Thread α) (newVal : Word) : Call α → State Thread α
  | .tryPush _ => { s with ingressCursor := newVal }
  | .tryPop => { s with egressCursor := newVal }

variable [DecidableEq Thread]

/-- Move one thread to another program point. -/
def State.goto (s : State Thread α) (thread : Thread) (pc : Pc α) : State Thread α :=
  { s with pc := Function.update s.pc thread pc }

/-- One move of a thread. -/
def stepThread (size : Size) (s : State Thread α) (thread : Thread) (choice : Choice α) :
    State Thread α :=
  match s.pc thread with
  | .idle _ => s.goto thread (.loadCursor choice.next)
  | .loadCursor call => s.goto thread (.loadStates call choice.observed 0 fun _ => none)
  | .loadStates call start offset states =>
      if complete states then
        s.goto thread (.claim call start offset (hits call start offset states))
      else if choice.byte < 32 ∧ states choice.byte = none then
        s.goto thread (.loadStates call start offset (Function.update states choice.byte
          (some (s.slots (physicalBase size start offset + choice.byte)))))
      else s
  | .claim call start offset [] =>
      if offset + 32 < size.capacity then
        s.goto thread (.loadStates call start (offset + 32) fun _ => none)
      else s.goto thread (.idle (some false))
  | .claim call start offset (bit :: mask) =>
      let target := physicalTarget size start offset bit
      if s.slots target = call.wanted then
        { s.goto thread (.copy call (logicalTarget start offset bit) target) with
          slots := Function.update s.slots target call.marked }
      else s.goto thread (.claim call start offset mask)
  | .copy (.tryPush item) logical target =>
      { s.goto thread (.release (.tryPush item) logical target) with
        data := Function.update s.data target item }
  | .copy .tryPop logical target =>
      { s.goto thread (.release .tryPop logical target) with
        popped := s.popped ++ [s.data target] }
  | .release (.tryPush item) logical target =>
      { s.goto thread (.advanceLoad (.tryPush item) (logical + 1)) with
        slots := Function.update s.slots target .ready
        pushed := s.pushed ++ [item] }
  | .release .tryPop logical target =>
      { s.goto thread (.advanceLoad .tryPop (logical + 1)) with
        slots := Function.update s.slots target .empty }
  | .advanceLoad call newVal => s.goto thread (.advance call newVal choice.observed)
  | .advance call newVal current =>
      if 0 < (newVal - current).toInt then
        if s.cursor call = current ∧ choice.spurious = false then
          (s.goto thread (.idle (some true))).setCursor newVal call
        else s.goto thread (.advance call newVal choice.observed)
      else s.goto thread (.idle (some true))

/-- The scheduler picks the thread that moves. -/
def step (size : Size) (s : State Thread α) (move : Thread × Choice α) : State Thread α :=
  stepThread size s move.1 move.2

/-- The conduit as the constructor leaves it. -/
def initial (data : Nat → α) : State Thread α where
  slots := fun _ => .empty
  data := data
  ingressCursor := 0
  egressCursor := 0
  pc := fun _ => .idle none
  pushed := []
  popped := []

end SlabFlux.Core.OrderedDiffusion
