import SlabFlux.Lib.Execution
import SlabFlux.Net.OooMatrix.Mask

/-!
# The out-of-order matrix

`tcp_spatial_ooo_matrix` keeps the segments that arrive ahead of `rcv_nxt`: a presence
mask over a window of `65536` sequence numbers that starts at `base_seq`, and a table of
`128` slots that hold the buffers themselves.  The buffers are of an arbitrary type; a
null pointer is `none`.

Two details are abstracted.  The two words of `active_slots_` are a table of booleans,
read in the ascending order in which the source's `ctz` loops visit their set bits.
`rte_pktmbuf_free` is a call outside the repository, and the matrix records its
arguments in `freed`.  The mask is a function on all word indices; the source indexes
beyond its `1024` words when a segment reaches more than a whole window past the
window's end, which is undefined behaviour there.  Lengths of 16 bits, which are all
that the gateways pass, never do (`trim_inside`).
-/

namespace SlabFlux.Net.OooMatrix

def maxMbufs : Nat := 128

/-- The FIN flag of a TCP header. -/
def finFlag : BitVec 8 := 0x01

/-- `mbuf_slot`.  The arguments of `insert_mbuf` that describe a segment have the same
shape. -/
structure MbufSlot (Mbuf : Type) where
  seq : BitVec 32
  len : BitVec 32
  mbuf : Option Mbuf
  payloadOffset : BitVec 16
  flags : BitVec 8
deriving DecidableEq

namespace MbufSlot

variable {Mbuf : Type}

/-- Whether the FIN flag is set. -/
def fin (slot : MbufSlot Mbuf) : Bool := slot.flags &&& finFlag ≠ 0

/-- `logical_len`: a bare FIN takes one sequence number. -/
def logicalLen (slot : MbufSlot Mbuf) : Nat :=
  if slot.len = 0 ∧ slot.fin then 1 else slot.len.toNat

/-- The zero-filled slot. -/
def empty : MbufSlot Mbuf :=
  { seq := 0, len := 0, mbuf := none, payloadOffset := 0, flags := 0 }

end MbufSlot

/-- `tcp_spatial_ooo_matrix`, with the buffers it has given to `rte_pktmbuf_free`. -/
structure Matrix (Mbuf : Type) where
  presenceMask : Mask
  slots : Fin maxMbufs → MbufSlot Mbuf
  active : Fin maxMbufs → Bool
  baseSeq : BitVec 32
  freed : List Mbuf

variable {Mbuf : Type}

/-- The constructed matrix. -/
def fresh : Matrix Mbuf where
  presenceMask := fun _ => 0
  slots := fun _ => .empty
  active := fun _ => false
  baseSeq := 0
  freed := []

/-- The local variables of `insert_mbuf` that trimming changes, apart from
`safe_len`. -/
structure Cut where
  offset : Nat
  logicalLen : Nat
  len : Nat
  payloadOffset : BitVec 16
  seq : BitVec 32
deriving DecidableEq

namespace Cut

/-- The variables before trimming. -/
def start (offset : Nat) (segment : MbufSlot Mbuf) : Cut where
  offset := offset
  logicalLen := segment.logicalLen
  len := segment.len.toNat
  payloadOffset := segment.payloadOffset
  seq := segment.seq

/-- Drop the first byte. -/
def dropFirst (cut : Cut) : Cut where
  offset := cut.offset + 1
  logicalLen := cut.logicalLen - 1
  len := cut.len - 1
  payloadOffset := cut.payloadOffset + 1
  seq := cut.seq + 1

/-- Drop the last byte. -/
def dropLast (cut : Cut) : Cut :=
  { cut with logicalLen := cut.logicalLen - 1, len := cut.len - 1 }

/-- The loop that trims bytes already present from the front; its first argument and
first result are `safe_len`. -/
def trimHead (mask : Mask) : Nat → Cut → Nat × Cut
  | 0, cut => (0, cut)
  | safeLen + 1, cut =>
      if mask.test cut.offset then trimHead mask safeLen cut.dropFirst
      else (safeLen + 1, cut)

/-- The loop that trims bytes already present from the back. -/
def trimTail (mask : Mask) : Nat → Cut → Nat × Cut
  | 0, cut => (0, cut)
  | safeLen + 1, cut =>
      if mask.test (cut.offset + safeLen) then trimTail mask safeLen cut.dropLast
      else (safeLen + 1, cut)

end Cut

namespace Matrix

variable (matrix : Matrix Mbuf)

/-- The buffers `reset` frees, in the order of its loops. -/
def heldMbufs : List Mbuf :=
  (List.finRange maxMbufs).filterMap fun index =>
    if matrix.active index then (matrix.slots index).mbuf else none

def reset (expectedNextSeq : BitVec 32) : Matrix Mbuf where
  presenceMask := fun word => if word < maskLongs then 0 else matrix.presenceMask word
  slots := fun index =>
    if matrix.active index then { matrix.slots index with mbuf := none }
    else matrix.slots index
  active := fun _ => false
  baseSeq := expectedNextSeq
  freed := matrix.freed ++ matrix.heldMbufs

variable (currentRcvNxt : BitVec 32)

def slideWindow : Matrix Mbuf :=
  if currentRcvNxt = matrix.baseSeq then matrix
  else if (currentRcvNxt - matrix.baseSeq).toInt ≤ 0 then matrix
  else
    let shiftBytes := (currentRcvNxt - matrix.baseSeq).toNat
    if windowSize ≤ shiftBytes then matrix.reset currentRcvNxt
    else
      { matrix with
        presenceMask := matrix.presenceMask.slide shiftBytes
        baseSeq := currentRcvNxt }

/-- The search for a free slot. -/
def freeSlot : Option (Fin maxMbufs) :=
  (List.finRange maxMbufs).find? fun index => !matrix.active index

/-- Both trimming loops of `insert_mbuf`. -/
def trim (offset : Nat) (segment : MbufSlot Mbuf) : Nat × Cut :=
  let head := Cut.trimHead matrix.presenceMask
    (min segment.logicalLen (windowSize - offset)) (.start offset segment)
  Cut.trimTail matrix.presenceMask head.1 head.2

/-- The slot `insert_mbuf` fills: what lies beyond the window's end is cut off, and the
FIN with it. -/
def trimmedSlot (segment : MbufSlot Mbuf) (safeLen : Nat) (cut : Cut) : MbufSlot Mbuf where
  seq := cut.seq
  len := BitVec.ofNat 32 (if safeLen < cut.logicalLen then safeLen else cut.len)
  mbuf := segment.mbuf
  payloadOffset := cut.payloadOffset
  flags := if safeLen < cut.logicalLen then segment.flags &&& ~~~finFlag
    else segment.flags

/-- Fill a free slot and mark its bytes, those beyond the window's end at the window's
start. -/
def store (index : Fin maxMbufs) (segment : MbufSlot Mbuf)
    (safeLen : Nat) (cut : Cut) : Matrix Mbuf :=
  let marked := matrix.presenceMask.mark cut.offset safeLen
  { matrix with
    active := Function.update matrix.active index true
    slots := Function.update matrix.slots index (trimmedSlot segment safeLen cut)
    presenceMask :=
      if safeLen < cut.logicalLen then marked.markFront (cut.logicalLen - safeLen)
      else marked }

/-- `insert_mbuf` from the trimming of the segment on. -/
def place (offset : Nat) (segment : MbufSlot Mbuf) : Matrix Mbuf × Bool :=
  let (safeLen, cut) := matrix.trim offset segment
  if safeLen = 0 then (matrix, false)
  else if matrix.presenceMask.overlaps cut.offset safeLen then (matrix, false)
  else if safeLen < cut.logicalLen ∧
      matrix.presenceMask.overlapsFront (cut.logicalLen - safeLen) then (matrix, false)
  else
    match matrix.freeSlot with
    | none => (matrix.reset matrix.baseSeq, false)
    | some index => (matrix.store index segment safeLen cut, true)

/-- The first step of `insert_mbuf`: slide the window if the segment starts outside. -/
def approach (segment : MbufSlot Mbuf) : Matrix Mbuf :=
  if windowSize ≤ (segment.seq - matrix.baseSeq).toNat then
    matrix.slideWindow currentRcvNxt
  else matrix

def insertMbuf (segment : MbufSlot Mbuf) : Matrix Mbuf × Bool :=
  if segment.logicalLen = 0 ∨ segment.mbuf = none then (matrix, false)
  else
    let matrix := matrix.approach currentRcvNxt segment
    let offset := (segment.seq - matrix.baseSeq).toNat
    if windowSize ≤ offset then (matrix, false)
    else matrix.place offset segment

/-- The search for the slot that starts at `rcv_nxt`. -/
def slotAt : Option (Fin maxMbufs) :=
  (List.finRange maxMbufs).find? fun index =>
    matrix.active index && (matrix.slots index).seq == currentRcvNxt

/-- Release a slot and clear its bytes. -/
def release (index : Fin maxMbufs) (offset : Nat) : Matrix Mbuf :=
  let logicalLen := (matrix.slots index).logicalLen
  let safeLen := min logicalLen (windowSize - offset)
  let cleared := matrix.presenceMask.clear offset safeLen
  { matrix with
    active := Function.update matrix.active index false
    slots := Function.update matrix.slots index { matrix.slots index with mbuf := none }
    presenceMask :=
      if safeLen < logicalLen then cleared.clearFront (logicalLen - safeLen) else cleared }

/-- The rebase after a release: to the end of the released slot if no slot is left, and
by a slide if that slot reached the window's end. -/
def rebase (offset logicalLen : Nat) :
    Matrix Mbuf :=
  let next := currentRcvNxt + BitVec.ofNat 32 logicalLen
  if ∀ index, matrix.active index = false then { matrix with baseSeq := next }
  else if windowSize ≤ offset + min logicalLen (windowSize - offset) then
    matrix.slideWindow next
  else matrix

/-- `extract_contiguous_mbuf`.  The result is the slot as it was: its buffer is the
returned pointer, its length, offset and flags are the output parameters. -/
def extractContiguousMbuf :
    Matrix Mbuf × Option (MbufSlot Mbuf) :=
  let offset := (currentRcvNxt - matrix.baseSeq).toNat
  if windowSize ≤ offset then (matrix, none)
  else if matrix.presenceMask.test offset = false then (matrix, none)
  else
    match matrix.slotAt currentRcvNxt with
    | none => (matrix, none)
    | some index =>
        let slot := matrix.slots index
        ((matrix.release index offset).rebase currentRcvNxt offset slot.logicalLen, some slot)

/-- The public operations with their arguments. -/
inductive Operation (Mbuf : Type) where
  | reset (expectedNextSeq : BitVec 32)
  | slideWindow (currentRcvNxt : BitVec 32)
  | insertMbuf (currentRcvNxt : BitVec 32) (segment : MbufSlot Mbuf)
  | extractContiguousMbuf (currentRcvNxt : BitVec 32)

/-- The matrix after one call. -/
def step : Operation Mbuf → Matrix Mbuf
  | .reset expectedNextSeq => matrix.reset expectedNextSeq
  | .slideWindow currentRcvNxt => matrix.slideWindow currentRcvNxt
  | .insertMbuf currentRcvNxt segment => (matrix.insertMbuf currentRcvNxt segment).1
  | .extractContiguousMbuf currentRcvNxt => (matrix.extractContiguousMbuf currentRcvNxt).1

end Matrix

end SlabFlux.Net.OooMatrix
