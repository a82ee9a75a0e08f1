import SlabFlux.Lib.Execution
import Mathlib.Data.BitVec

/-!
# The io_uring journal

`io_uring_durable_journal` writes fixed-size slots to a file through an io_uring.  A commit
queues the write of one slot and moves the watermark; a flush waits until as many completions
have been counted as writes were submitted, and then for an `fsync`.

The caller is one thread; the kernel completes queued operations in any order and with any
result.  A refused submission is a move of the caller in which `get_sqe` returns no entry.
The journal and the pages it maps are taken to exist, and `reset` is not called.
-/

namespace SlabFlux.Io.DurableJournal

open Lib

/-- The template parameters: `sizeof(EventType)` and `JournalSizeBytes`.  The arena and one
more slot lie in the address space. -/
structure Instantiation where
  eventSize : Nat
  journalSizeBytes : Nat
  eventSize_pos : 0 < eventSize
  addressable : journalSizeBytes + (eventSize + 511) / 512 * 512 ≤ 2 ^ 64

/-- `STRIDE`: slots are aligned to sectors. -/
def Instantiation.stride (inst : Instantiation) : Nat := (inst.eventSize + 511) / 512 * 512

/-- A queued operation. -/
inductive Operation
  /-- `write_pulse`: `sizeof(EventType)` bytes at an offset. -/
  | write (offset : BitVec 64)
  /-- `sync_pulse`. -/
  | sync
  deriving DecidableEq

/-- A completion queue entry: what was completed, and `res`. -/
structure Completion where
  operation : Operation
  res : Int

/-- Where the caller stands in `force_flush`. -/
inductive FlushPhase
  | idle
  /-- The loop over `completion_pulse_ < submission_pulse_`. -/
  | draining
  /-- The loop over `get_sqe`. -/
  | acquiring
  /-- `io_uring_wait_cqe`. -/
  | awaiting
  /-- The call has returned normally, and nothing has been called since. -/
  | returned
  deriving DecidableEq

/-- The journal, the ring, and its history: the offsets handed out by `reserve_slot`, and
the offsets for which a completion has reported the whole slot. -/
structure State where
  writeCursor : BitVec 64
  persistentHorizon : BitVec 64
  submissionPulse : BitVec 64
  completionPulse : BitVec 64
  phase : FlushPhase
  inflight : List Operation
  completions : List Completion
  reserved : List (BitVec 64)
  written : List (BitVec 64)

inductive Move
  | reserveSlot
  /-- `commit_slot` with a pointer; `granted` says whether `get_sqe` returns an entry. -/
  | commitSlot (offset : BitVec 64) (granted : Bool)
  /-- `commit_slot` without one. -/
  | commitLast (granted : Bool)
  | pollCompletions
  /-- `force_flush` is called. -/
  | forceFlush
  /-- One round of its first loop. -/
  | drain
  /-- One round of its second loop. -/
  | acquire (granted : Bool)
  /-- `io_uring_wait_cqe` returns, with an entry or an error. -/
  | awaitSync (ok : Bool)
  /-- The kernel completes an operation. -/
  | complete (index : Nat) (res : Int)

namespace State

variable (inst : Instantiation)

def initial : State where
  writeCursor := 0
  persistentHorizon := 0
  submissionPulse := 0
  completionPulse := 0
  phase := .idle
  inflight := []
  completions := []
  reserved := []
  written := []

variable (state : State)

/-- No call is going on. -/
def isFree : Bool := state.phase = .idle || state.phase = .returned

def reserveSlot : State :=
  let offset := state.writeCursor
  let state := { state with
    writeCursor := state.writeCursor + BitVec.ofNat 64 inst.stride, phase := .idle }
  if inst.journalSizeBytes ≤ offset.toNat then state
  else { state with reserved := state.reserved ++ [offset] }

/-- `commit_slot`: the horizon moves whether or not the write could be queued. -/
def commitSlot (offset : BitVec 64) (granted : Bool) : State :=
  let state :=
    if granted then
      { state with
        inflight := state.inflight ++ [.write offset]
        submissionPulse := state.submissionPulse + 1 }
    else state
  { state with
    persistentHorizon := state.persistentHorizon + BitVec.ofNat 64 inst.stride, phase := .idle }

/-- `poll_completions`: up to 32 entries are counted, whatever they report. -/
def pollCompletions : State :=
  let count := min 32 state.completions.length
  { state with
    completions := state.completions.drop count
    completionPulse := state.completionPulse + BitVec.ofNat 64 count }

/-- One round of the first loop of `force_flush`. -/
def drain : State :=
  if state.completionPulse < state.submissionPulse then state.pollCompletions
  else { state with phase := .acquiring }

/-- One round of the second loop. -/
def acquire (granted : Bool) : State :=
  if granted then
    { state with inflight := state.inflight ++ [.sync], phase := .awaiting }
  else state.pollCompletions

/-- `io_uring_wait_cqe` and what follows: on an error the call throws and leaves the entry
in the queue. -/
def awaitSync (ok : Bool) : State :=
  if ok then
    match state.completions with
    | [] => state
    | cqe :: rest =>
        if cqe.res < 0 then { state with phase := .idle }
        else { state with completions := rest, phase := .returned }
  else { state with phase := .idle }

/-- The kernel completes an operation. -/
def complete (index : Nat) (res : Int) : State :=
  match state.inflight[index]? with
  | none => state
  | some operation =>
      { state with
        inflight := state.inflight.eraseIdx index
        completions := state.completions ++ [⟨operation, res⟩]
        written :=
          match operation with
          | .write offset =>
              if res = inst.eventSize then state.written ++ [offset] else state.written
          | .sync => state.written }

def step : Move → State
  | .reserveSlot => if state.isFree then state.reserveSlot inst else state
  | .commitSlot offset granted =>
      if state.isFree then state.commitSlot inst offset granted else state
  | .commitLast granted =>
      if state.isFree then
        state.commitSlot inst (state.writeCursor - BitVec.ofNat 64 inst.stride) granted
      else state
  | .pollCompletions =>
      if state.isFree then { state.pollCompletions with phase := .idle } else state
  | .forceFlush => if state.isFree then { state with phase := .draining } else state
  | .drain => if state.phase = .draining then state.drain else state
  | .acquire granted => if state.phase = .acquiring then state.acquire granted else state
  | .awaitSync ok => if state.phase = .awaiting then state.awaitSync ok else state
  | .complete index res => state.complete inst index res

end State

end SlabFlux.Io.DurableJournal
