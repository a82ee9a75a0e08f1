import SlabFlux.Lib.Word
import SlabFlux.Net.OooMatrix.Model

/-!
# Reassembly

The part of the receive path that decides what happens to a segment's bytes: the
three-way split of `process_inbound` on where a segment starts relative to `rcv_nxt`,
and one turn of the loop of `tcp_gateway` that takes segments out of the matrix.  The
receiver keeps the history of what it handed to the defragmenter.
-/

namespace SlabFlux.Net

open Lib.Sequence Net.OooMatrix

/-- Where a segment lies relative to `rcv_nxt`. -/
inductive Placement where
  | inOrder
  | outOfOrder
  | leap
  | tail (overlap : Nat)
  | duplicate
deriving DecidableEq

/-- The split of `process_inbound`. -/
def placement (rcvNxt payloadSeq : BitVec 32) (payloadLen : Nat) : Placement :=
  if payloadSeq = rcvNxt then .inOrder
  else if (payloadSeq - rcvNxt).toNat ≤ 0x7FFFFFFF then .outOfOrder
  else if (rcvNxt - payloadSeq).toInt < 0 then .leap
  else if (rcvNxt - payloadSeq).toNat < payloadLen then .tail (rcvNxt - payloadSeq).toNat
  else .duplicate

theorem placement_eq_inOrder {rcvNxt payloadSeq : BitVec 32} {payloadLen : Nat}
    (place : placement rcvNxt payloadSeq payloadLen = .inOrder) : rcvNxt = payloadSeq := by
  unfold placement at place
  split_ifs at place with same
  exact same.symm

/-- A segment whose tail is new holds `rcv_nxt`. -/
theorem placement_eq_tail {rcvNxt payloadSeq : BitVec 32} {payloadLen overlap : Nat}
    (place : placement rcvNxt payloadSeq payloadLen = .tail overlap) :
    rcvNxt = payloadSeq + BitVec.ofNat 32 overlap ∧ overlap < payloadLen := by
  unfold placement at place
  split_ifs at place with same ahead negative covered
  obtain rfl : (rcvNxt - payloadSeq).toNat = overlap := by injection place
  exact ⟨(add_ofNat_toNat_sub _ _).symm, covered⟩

namespace Reassembly

variable {Mbuf : Type}

/-- What the layer above sees, in order: bytes of a buffer, or the peer's FIN. -/
inductive Event (Mbuf : Type) where
  | bytes (mbuf : Mbuf) (offset length : Nat)
  | fin

/-- A piece taken out of the matrix, with `rcv_nxt` at that moment. -/
structure Extracted (Mbuf : Type) where
  rcvNxt : BitVec 32
  mbuf : Mbuf
  outOffset : BitVec 16
  outLen : BitVec 32

/-- `rcv_nxt` and the matrix of one connection, with the history of the pieces taken out
of the matrix and of everything delivered. -/
structure Receiver (Mbuf : Type) where
  rcvNxt : BitVec 32
  matrix : Matrix Mbuf
  extracted : List (Extracted Mbuf)
  delivered : List (Event Mbuf)

/-- A connection that expects `rcvNxt`, with a matrix that is empty at `base`. -/
def Receiver.start (rcvNxt base : BitVec 32) : Receiver Mbuf where
  rcvNxt := rcvNxt
  matrix := (fresh : Matrix Mbuf).reset base
  extracted := []
  delivered := []

/-- A data segment as the flow engine sees it. -/
structure Segment (Mbuf : Type) where
  seq : BitVec 32
  len : BitVec 32
  mbuf : Mbuf
  payloadOffset : BitVec 16
  flags : BitVec 8

namespace Segment

/-- The arguments of `insert_mbuf`. -/
def toSlot (segment : Segment Mbuf) : MbufSlot Mbuf where
  seq := segment.seq
  len := segment.len
  mbuf := some segment.mbuf
  payloadOffset := segment.payloadOffset
  flags := segment.flags

/-- Whether the FIN flag is set. -/
def fin (segment : Segment Mbuf) : Bool := segment.toSlot.fin

end Segment

namespace Receiver

variable (receiver : Receiver Mbuf)

/-- Feed a segment to `insert_mbuf` with the current `rcv_nxt`. -/
def insert (segment : Segment Mbuf) : Receiver Mbuf :=
  { receiver with
    matrix := (receiver.matrix.insertMbuf receiver.rcvNxt segment.toSlot).1 }

/-- Deliver the bytes of a segment from `skip` on and advance `rcv_nxt` past them. -/
def deliver (segment : Segment Mbuf) (skip : Nat) : Receiver Mbuf :=
  { receiver with
    rcvNxt := receiver.rcvNxt + BitVec.ofNat 32 (segment.len.toNat - skip)
    delivered := receiver.delivered ++
      [.bytes segment.mbuf (segment.payloadOffset.toNat + skip) (segment.len.toNat - skip)] }

/-- The FIN takes one sequence number. -/
def finish : Receiver Mbuf :=
  { receiver with
    rcvNxt := receiver.rcvNxt + 1
    delivered := receiver.delivered ++ [.fin] }

/-- The FIN part of `process_inbound`: it counts only in order. -/
def acceptFin (segment : Segment Mbuf) : Receiver Mbuf :=
  if segment.fin ∧ segment.seq + segment.len = receiver.rcvNxt then receiver.finish
  else receiver

/-- The payload and FIN parts of `process_inbound`.  A segment with neither is skipped,
and one that is rejected returns before its FIN is looked at. -/
def accept (segment : Segment Mbuf) : Receiver Mbuf :=
  if segment.len = 0 ∧ segment.fin = false then receiver
  else
    match placement receiver.rcvNxt segment.seq segment.len.toNat with
    | .inOrder => (receiver.deliver segment 0).acceptFin segment
    | .outOfOrder => (receiver.insert segment).acceptFin segment
    | .leap => receiver
    | .tail overlap => (receiver.deliver segment overlap).acceptFin segment
    | .duplicate => receiver.acceptFin segment

/-- One turn of the gateway's loop. -/
def extract : Receiver Mbuf :=
  match receiver.matrix.extractContiguousMbuf receiver.rcvNxt with
  | (matrix, none) => { receiver with matrix := matrix }
  | (matrix, some slot) =>
      match slot.mbuf with
      | none => { receiver with matrix := matrix }
      | some mbuf =>
          let after : Receiver Mbuf :=
            { rcvNxt := receiver.rcvNxt + slot.len
              matrix := matrix
              extracted := receiver.extracted ++
                [⟨receiver.rcvNxt, mbuf, slot.payloadOffset, slot.len⟩]
              delivered := receiver.delivered ++
                [.bytes mbuf slot.payloadOffset.toNat slot.len.toNat] }
          if slot.fin then after.finish else after

end Receiver

end Reassembly

end SlabFlux.Net
