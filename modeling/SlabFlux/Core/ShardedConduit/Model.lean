import SlabFlux.Core.MpmcConduit.Lane

/-!
# The sharded conduits, one call after the other

`mpmc_conduit` and `mpmc_sharded_conduit` divide their slots among lanes of tickets.  A call
probes the lanes in turn, beginning with the one of the core the calling thread first ran on.
Here the calls run one after the other: no call begins before the last one has returned.

Then a compare-and-swap never fails, and a call that finds a ticket ahead of the gate reads
the same gate again for ever.  Such a call has no result.
-/

namespace SlabFlux.Core.ShardedConduit

open Lib
open Core.MpmcConduit (Ticket Lane)

universe u

variable {α : Type u}

/-- The two conduits.  They differ in how the requested size becomes a total size. -/
inductive Variant where
  | mpmcConduit | mpmcShardedConduit
  deriving DecidableEq, Repr

/-- Template arguments: `RequestedSize`, whose `std::bit_ceil` has to be representable, and
`NumLanes`, a power of two. -/
structure Parameters where
  variant : Variant
  requestedSize : Nat
  lanesExponent : Nat
  positive : 1 ≤ requestedSize
  representable : requestedSize ≤ 2 ^ 63
  lanesFit : lanesExponent ≤ 63

variable (p : Parameters) (core : Ticket)

namespace Parameters

def numLanes : Nat := 2 ^ p.lanesExponent

def initialCeil : Nat :=
  if p.requestedSize < 2 then 2 else bitCeil p.requestedSize

/-- The advertised capacity.  Only `mpmc_conduit` rounds it up to one slot per lane. -/
def totalSize : Nat :=
  match p.variant with
  | .mpmcConduit => if p.initialCeil < p.numLanes then p.numLanes else p.initialCeil
  | .mpmcShardedConduit => p.initialCeil

def laneCapacity : Nat := p.totalSize / p.numLanes

def laneMask : Ticket := BitVec.ofNat 64 p.laneCapacity - 1

def lanesMask : Ticket := BitVec.ofNat 64 p.numLanes - 1

/-- `pos & LaneMask`. -/
def slotAt (pos : Ticket) : Nat := (pos &&& p.laneMask).toNat

/-- The lane a call probes at its `offset`-th attempt. -/
def laneAt (offset : Nat) : Nat :=
  ((core + BitVec.ofNat 64 offset) &&& p.lanesMask).toNat

end Parameters

/-- The lanes by their index. -/
abbrev Conduit (α : Type u) := Nat → Lane α

/-- The constructor.  With no slot in a lane it asks `mmap` for zero bytes, which fails every
time, and throws. -/
def construct (data : Nat → α) : Option (Conduit α) :=
  if p.laneCapacity = 0 then none
  else some fun _ =>
    { sequences := fun slot => BitVec.ofNat 64 slot
      data := data
      physicalIngressGate := 0
      physicalEgressGate := 0 }

/-- What probing a lane comes to. -/
inductive Attempt where
  | claimed | refused | spins
  deriving DecidableEq, Repr

variable (lane : Lane α)

/-- The ticket loop at a gate that expects `wanted` in the slot of `pos`. -/
def attempt (pos wanted : Ticket) : Attempt :=
  let slotTicket := lane.sequences (p.slotAt pos)
  if slotTicket = wanted then .claimed
  else if (slotTicket - wanted).slt 0 then .refused
  else .spins

def pushAttempt : Attempt :=
  attempt p lane lane.physicalIngressGate lane.physicalIngressGate

def popAttempt : Attempt :=
  attempt p lane lane.physicalEgressGate (lane.physicalEgressGate + 1)

/-- The lane after a claimed push. -/
def pushInto (item : α) : Lane α :=
  let pos := lane.physicalIngressGate
  { lane with
    physicalIngressGate := pos + 1
    data := Function.update lane.data (p.slotAt pos) item
    sequences := Function.update lane.sequences (p.slotAt pos) (pos + 1) }

/-- The lane after a claimed pop. -/
def popFrom : Lane α :=
  let pos := lane.physicalEgressGate
  { lane with
    physicalEgressGate := pos + 1
    sequences := Function.update lane.sequences (p.slotAt pos) (pos + p.laneMask + 1) }

/-- The item a claimed pop hands out. -/
def frontItem : α := lane.data (p.slotAt lane.physicalEgressGate)

/-- Probe lanes until one is claimed: its index, or `none` when all refuse.  There is no
result when the call spins in a lane. -/
def probe (probeLane : Lane α → Attempt) (conduit : Conduit α) : List Nat → Option (Option Nat)
  | [] => some none
  | lane :: lanes =>
      match probeLane (conduit lane) with
      | .claimed => some (some lane)
      | .refused => probe probeLane conduit lanes
      | .spins => none

/-- The lanes in the order a call from a core probes them. -/
def probeOrder : List Nat :=
  (List.range p.numLanes).map (p.laneAt core)

def tryPush (item : α) (conduit : Conduit α) : Option (Bool × Conduit α) :=
  match probe (pushAttempt p) conduit (probeOrder p core) with
  | none => none
  | some none => some (false, conduit)
  | some (some lane) =>
      some (true, Function.update conduit lane (pushInto p (conduit lane) item))

def tryPop (conduit : Conduit α) : Option (Option α × Conduit α) :=
  match probe (popAttempt p) conduit (probeOrder p core) with
  | none => none
  | some none => some (none, conduit)
  | some (some lane) =>
      some (some (frontItem p (conduit lane)),
        Function.update conduit lane (popFrom p (conduit lane)))

/-! ## Fill and drain -/

/-- Pushes in a row, each from some core. -/
def pushAll (p : Parameters) : List (Ticket × α) → Conduit α → Option (List Bool × Conduit α)
  | [], conduit => some ([], conduit)
  | (core, item) :: calls, conduit => do
      let (accepted, conduit) ← tryPush p core item conduit
      let (results, conduit) ← pushAll p calls conduit
      return (accepted :: results, conduit)

/-- Pops in a row, each from some core. -/
def popAll (p : Parameters) : List Ticket → Conduit α → Option (List (Option α) × Conduit α)
  | [], conduit => some ([], conduit)
  | core :: cores, conduit => do
      let (item, conduit) ← tryPop p core conduit
      let (results, conduit) ← popAll p cores conduit
      return (item :: results, conduit)

/-- The calls of one cycle: pushes that are to fill the conduit, one more push, pops that are
to drain it, one more pop. -/
structure Cycle (α : Type u) where
  pushes : List (Ticket × α)
  extraPush : Ticket × α
  pops : List Ticket
  extraPop : Ticket

/-- A cycle makes as many pushes and pops as the advertised capacity. -/
def Cycle.Sized (cycle : Cycle α) : Prop :=
  cycle.pushes.length = p.totalSize ∧ cycle.pops.length = p.totalSize

/-- The pushes succeed and the extra one is refused; the pops return the pushed items in some
order and the extra one reports empty. -/
def Cycle.Lawful (cycle : Cycle α) (before after : Conduit α) : Prop :=
  ∃ (full still drained : Conduit α) (items : List α),
    pushAll p cycle.pushes before = some (List.replicate p.totalSize true, full) ∧
      tryPush p cycle.extraPush.1 cycle.extraPush.2 full = some (false, still) ∧
      popAll p cycle.pops still = some (items.map some, drained) ∧
      items.Perm (cycle.pushes.map Prod.snd) ∧
      tryPop p cycle.extraPop drained = some (none, after)

/-- All cycles in a row are lawful. -/
def CyclesLawful (p : Parameters) : List (Cycle α) → Conduit α → Prop
  | [], _ => True
  | cycle :: cycles, conduit =>
      ∃ after, cycle.Lawful p conduit after ∧ CyclesLawful p cycles after

/-- The capacity law: there is an empty conduit, and every number of fill and drain cycles
from it is lawful. -/
def CapacityLaw (data : Nat → α) : Prop :=
  ∃ fresh, construct p data = some fresh ∧
    ∀ cycles : List (Cycle α), (∀ cycle ∈ cycles, cycle.Sized p) → CyclesLawful p cycles fresh

end SlabFlux.Core.ShardedConduit
