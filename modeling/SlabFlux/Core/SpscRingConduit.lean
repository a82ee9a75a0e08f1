import Mathlib.Data.List.Basic

/-!
# The ring conduit on one thread

`spsc_ring_conduit` as the TCP engine uses it for its unacknowledged segments: the same
thread fills and drains it, so each gate equals its local cursor between calls.  The
reserved slot is handed out without a capacity check, and the number of entries that can
be peeked at is a cached horizon that is refreshed only when it is used up.
-/

namespace SlabFlux.Core

/-- The memory of the conduit: `Capacity` slots, the two cursors, and the cached ingress
cursor.  Cursors count entries since construction. -/
structure SpscRingConduit (α : Type) where
  ring : Nat → α
  localIngressCursor : Nat
  localEgressCursor : Nat
  cachedIngressCursor : Nat

namespace SpscRingConduit

variable {α : Type}

/-- `Capacity` of the conduits of the TCP engine. -/
def capacity : Nat := 1024

variable (conduit : SpscRingConduit α)

/-- The effect of `available_to_peek` on the cached cursor. -/
def refresh : SpscRingConduit α :=
  if conduit.localEgressCursor = conduit.cachedIngressCursor then
    { conduit with cachedIngressCursor := conduit.localIngressCursor }
  else conduit

/-- What `available_to_peek` returns once the cached cursor is refreshed. -/
def available : Nat :=
  conduit.cachedIngressCursor - conduit.localEgressCursor

/-- `get_peek_slot`. -/
def peekSlot (offset : Nat) : α :=
  conduit.ring ((conduit.localEgressCursor + offset) % capacity)

/-- Write through the pointer `get_peek_slot` returns. -/
def modifyPeekSlot (offset : Nat) (change : α → α) :
    SpscRingConduit α :=
  let slot := (conduit.localEgressCursor + offset) % capacity
  { conduit with ring := Function.update conduit.ring slot (change (conduit.ring slot)) }

/-- Write the slot `get_reserved_slot(0)` returns and `commit_n(1)`. -/
def commit (change : α → α) : SpscRingConduit α :=
  let slot := conduit.localIngressCursor % capacity
  { conduit with
    ring := Function.update conduit.ring slot (change (conduit.ring slot))
    localIngressCursor := conduit.localIngressCursor + 1 }

/-- `consume_n(1)`. -/
def consume : SpscRingConduit α :=
  { conduit with localEgressCursor := conduit.localEgressCursor + 1 }

/-- The number of entries committed and not consumed. -/
def occupancy : Nat :=
  conduit.localIngressCursor - conduit.localEgressCursor

/-! ## Entries -/

/-- The cursors of a conduit that has not been overrun: the cached cursor lies between the
other two, and no more entries are committed than there are slots. -/
@[mk_iff] structure Bounded (conduit : SpscRingConduit α) : Prop where
  consumed : conduit.localEgressCursor ≤ conduit.cachedIngressCursor
  published : conduit.cachedIngressCursor ≤ conduit.localIngressCursor
  room : conduit.localIngressCursor ≤ conduit.localEgressCursor + capacity

instance (conduit : SpscRingConduit α) : Decidable conduit.Bounded :=
  decidable_of_iff _ (bounded_iff conduit).symm

/-- The entries that are committed and not consumed, from the oldest on. -/
def entries : List α :=
  (List.range conduit.occupancy).map fun offset => conduit.peekSlot offset

/-- Committing appends an entry. -/
theorem entries_commit {conduit : SpscRingConduit α} (change : α → α)
    (ordered : conduit.localEgressCursor ≤ conduit.localIngressCursor)
    (room : conduit.occupancy < capacity) :
    (conduit.commit change).entries = conduit.entries ++
        [change (conduit.ring (conduit.localIngressCursor % capacity))] := by
  have size : capacity = 1024 := rfl
  have grown : (conduit.commit change).occupancy = conduit.occupancy + 1 := by
    simp only [occupancy, commit]
    omega
  rw [entries, grown, List.range_succ, List.map_append, List.map_singleton]
  congr 1
  · apply List.map_congr_left
    intro offset inside
    rw [List.mem_range] at inside
    unfold occupancy at inside room
    have elsewhere : (conduit.localEgressCursor + offset) % capacity ≠
        conduit.localIngressCursor % capacity := by
      rw [size] at room ⊢
      omega
    exact Function.update_of_ne elsewhere ..
  · have last : conduit.localEgressCursor + conduit.occupancy = conduit.localIngressCursor := by
      unfold occupancy
      omega
    dsimp only [peekSlot, commit]
    rw [last, Function.update_self]

end SpscRingConduit

end SlabFlux.Core
