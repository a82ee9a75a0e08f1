import SlabFlux.Lib.Execution

/-!
# Epoch-based reclamation

`epoch_manager` lets readers announce the epoch in which they entered a critical section,
and `ebr_reclamation_queue` keeps unlinked nodes until no reader can still hold them.

Readers, the threads that advance the epoch and the writer run concurrently; one move is
one atomic load or store.  The queue and the result of `get_safe_epoch` belong to the
writer.  The shared data structure is a pointer that readers read inside their critical
sections and that the writer replaces.
-/

namespace SlabFlux.Core.EpochReclamation

universe u

/-- `deferred_node`. -/
structure DeferredNode (α : Type u) where
  ptr : α
  retirementEpoch : BitVec 64

/-- The graveyard's ring conduit as its only thread sees it.  Cursors count nodes since
construction. -/
structure Graveyard (α : Type u) where
  ring : Nat → Option (DeferredNode α)
  ingressCursor : Nat
  egressCursor : Nat
  cachedIngressCursor : Nat

namespace Graveyard

variable {α : Type u}

def initial : Graveyard α where
  ring := fun _ => none
  ingressCursor := 0
  egressCursor := 0
  cachedIngressCursor := 0

/-- The nodes retired and not released. -/
def pending (graveyard : Graveyard α) : Nat :=
  graveyard.ingressCursor - graveyard.egressCursor

/-- `get_peek_slot` with the position counted from the start. -/
def slot (capacity : Nat) (graveyard : Graveyard α) (position : Nat) : Option (DeferredNode α) :=
  graveyard.ring (position % capacity)

/-- `retire`: `get_reserved_slot(0)` does not check for room. -/
def retire (capacity : Nat) (graveyard : Graveyard α) (ptr : α) (currentEpoch : BitVec 64) :
    Graveyard α :=
  { graveyard with
    ring := Function.update graveyard.ring (graveyard.ingressCursor % capacity)
      (some ⟨ptr, currentEpoch⟩)
    ingressCursor := graveyard.ingressCursor + 1 }

/-- `available_to_peek`: the cached cursor is refreshed only when it is used up. -/
def refresh (graveyard : Graveyard α) : Graveyard α :=
  if graveyard.egressCursor = graveyard.cachedIngressCursor then
    { graveyard with cachedIngressCursor := graveyard.ingressCursor }
  else graveyard

def available (graveyard : Graveyard α) : Nat :=
  graveyard.cachedIngressCursor - graveyard.egressCursor

/-- The loop of `scavenge`: the nodes released from `position` on. -/
def reclaim (capacity : Nat) (graveyard : Graveyard α) (safeEpoch : BitVec 64) :
    (available position : Nat) → List α
  | 0, _ => []
  | available + 1, position =>
      match graveyard.slot capacity position with
      | none => []
      | some node =>
          if node.retirementEpoch < safeEpoch then
            node.ptr :: reclaim capacity graveyard safeEpoch available (position + 1)
          else []

/-- The nodes that `scavenge` hands to the pool. -/
def released (capacity : Nat) (graveyard : Graveyard α) (safeEpoch : BitVec 64) : List α :=
  let graveyard := graveyard.refresh
  graveyard.reclaim capacity safeEpoch graveyard.available graveyard.egressCursor

def scavenge (capacity : Nat) (graveyard : Graveyard α) (safeEpoch : BitVec 64) : Graveyard α :=
  let reclaimed := (graveyard.released capacity safeEpoch).length
  { graveyard.refresh with egressCursor := graveyard.egressCursor + reclaimed }

end Graveyard

/-- Where a reader thread is; inside, with the nodes it has obtained there. -/
inductive Reader (α : Type u)
  | outside
  | entering (current : BitVec 64)
  | inside (held : List α)

/-- The nodes a reader has obtained in the section it is in. -/
def Reader.held {α : Type u} : Reader α → List α
  | .inside held => held
  | _ => []

/-- A node the writer has unlinked and not yet retired, and the epoch read for it. -/
structure Retiring (α : Type u) where
  ptr : α
  currentEpoch : Option (BitVec 64)

/-- A run of `get_safe_epoch`: the threads read so far and the oldest epoch among them. -/
structure Scan where
  threadsRead : Nat
  oldestActive : BitVec 64

/-- Shared memory, the readers and the writer's own data. -/
structure State (α : Type u) (maxThreads : Nat) where
  globalEpoch : BitVec 64
  activeEpoch : Fin maxThreads → BitVec 64
  shared : Option α
  readers : Fin maxThreads → Reader α
  retiring : Option (Retiring α)
  scan : Option Scan
  graveyard : Graveyard α

/-- The atomic moves. -/
inductive Move (α : Type u) (maxThreads : Nat)
  /-- `advance`, by any thread. -/
  | advance
  /-- The load of `enter`. -/
  | loadGlobal (thread : Fin maxThreads)
  /-- The store of `enter`. -/
  | publish (thread : Fin maxThreads)
  /-- A read of the shared pointer. -/
  | read (thread : Fin maxThreads)
  /-- `leave`. -/
  | leave (thread : Fin maxThreads)
  /-- The writer replaces the shared node. -/
  | unlink (replacement : Option α)
  /-- `current_epoch`, for the unlinked node. -/
  | loadEpoch
  /-- `retire`. -/
  | retire
  /-- The first load of `get_safe_epoch`. -/
  | beginScan
  /-- One load of the loop of `get_safe_epoch`. -/
  | scanThread
  /-- `scavenge` with the result of the last complete `get_safe_epoch`. -/
  | scavenge

namespace State

variable {α : Type u} {maxThreads : Nat}

/-- The constructor's state, with a first node linked. -/
def initial (shared : Option α) : State α maxThreads where
  globalEpoch := 1
  activeEpoch := fun _ => 0
  shared := shared
  readers := fun _ => .outside
  retiring := none
  scan := none
  graveyard := .initial

/-- The node is free: not linked, not being retired and not in the graveyard. -/
def Free (capacity : Nat) (state : State α maxThreads) (node : α) : Prop :=
  state.shared ≠ some node ∧ (∀ retiring, state.retiring = some retiring → retiring.ptr ≠ node) ∧
    ∀ offset < state.graveyard.pending, ∀ deferred,
      state.graveyard.slot capacity (state.graveyard.egressCursor + offset) = some deferred →
        deferred.ptr ≠ node

/-- The result of the last complete `get_safe_epoch`. -/
def safeEpoch (state : State α maxThreads) : Option (BitVec 64) :=
  state.scan.bind fun scan =>
    if scan.threadsRead = maxThreads then some scan.oldestActive else none

/-- The nodes that a call of `scavenge` releases in this state. -/
def released (capacity : Nat) (state : State α maxThreads) : List α :=
  match state.safeEpoch with
  | none => []
  | some safeEpoch => state.graveyard.released capacity safeEpoch

/-- One load of the loop of `get_safe_epoch`. -/
def scanStep (state : State α maxThreads) (scan : Scan) : Scan :=
  if inBounds : scan.threadsRead < maxThreads then
    let active := state.activeEpoch ⟨scan.threadsRead, inBounds⟩
    { threadsRead := scan.threadsRead + 1
      oldestActive :=
        if active ≠ 0 ∧ active < scan.oldestActive then active else scan.oldestActive }
  else scan

/-- The effect of a move; a move whose party is not at that point does nothing. -/
def step (capacity : Nat) (state : State α maxThreads) : Move α maxThreads → State α maxThreads
  | .advance => { state with globalEpoch := state.globalEpoch + 1 }
  | .loadGlobal thread =>
      match state.readers thread with
      | .outside =>
          { state with
            readers := Function.update state.readers thread (.entering state.globalEpoch) }
      | _ => state
  | .publish thread =>
      match state.readers thread with
      | .entering current =>
          { state with
            activeEpoch := Function.update state.activeEpoch thread current
            readers := Function.update state.readers thread (.inside []) }
      | _ => state
  | .read thread =>
      match state.readers thread with
      | .inside held =>
          { state with
            readers := Function.update state.readers thread
              (.inside (state.shared.toList ++ held)) }
      | _ => state
  | .leave thread =>
      match state.readers thread with
      | .inside _ =>
          { state with
            activeEpoch := Function.update state.activeEpoch thread 0
            readers := Function.update state.readers thread .outside }
      | _ => state
  | .unlink replacement =>
      match state.shared, state.retiring with
      | some node, none =>
          { state with shared := replacement, retiring := some ⟨node, none⟩ }
      | none, _ => { state with shared := replacement }
      | _, _ => state
  | .loadEpoch =>
      match state.retiring with
      | some ⟨node, none⟩ => { state with retiring := some ⟨node, some state.globalEpoch⟩ }
      | _ => state
  | .retire =>
      match state.retiring with
      | some ⟨node, some epoch⟩ =>
          { state with
            retiring := none
            graveyard := state.graveyard.retire capacity node epoch }
      | _ => state
  | .beginScan => { state with scan := some ⟨0, state.globalEpoch⟩ }
  | .scanThread => { state with scan := state.scan.map state.scanStep }
  | .scavenge =>
      match state.safeEpoch with
      | none => state
      | some safeEpoch =>
          { state with graveyard := state.graveyard.scavenge capacity safeEpoch }

/-- What the writer keeps to: it links only free nodes, and it retires a node only while
fewer than `Capacity` nodes are pending. -/
def WriterAllows (capacity : Nat) (state : State α maxThreads) : Move α maxThreads → Prop
  | .unlink (some replacement) => state.Free capacity replacement
  | .retire => state.graveyard.pending < capacity
  | _ => True

/-- The number of calls of `advance` in a schedule. -/
def advances (schedule : List (Move α maxThreads)) : Nat :=
  schedule.countP fun move => match move with
    | .advance => true
    | _ => false

end State

end SlabFlux.Core.EpochReclamation
