import SlabFlux.Io.ShmDuplex.Model
import SlabFlux.Lib.Ring
import SlabFlux.Lib.Word

/-!
# One direction of the shared memory duplex

A sender, the receiver at the other end and the ring of slots between them.  As long as the
sender only reuses slots whose frames the receiving application has finished with, and the
receiver only hands out what has been published, the frames handed out are the first ones
sent, and each stays in its slot until it is finished.
-/

namespace SlabFlux.Io.ShmDuplex

open Lib

variable {inst : Instantiation}

namespace EgressPhase

/-- The frames of the burst that are in their slots already. -/
def written : EgressPhase → List RawTcpFrame
  | .idle => []
  | .writing written _ => written

/-- The frames of the burst that are not. -/
def todo : EgressPhase → List RawTcpFrame
  | .idle => []
  | .writing _ todo => todo

end EgressPhase

/-- Pointers that are about to be handed over. -/
def IngressPhase.burst : IngressPhase → Nat
  | .pushing burstCount => burstCount
  | _ => 0

/-- The number of frames put into slots since the start. -/
def Egress.position (egress : Egress) : Nat :=
  egress.sent.length + egress.phase.written.length

/-- What holds between a sender, the receiver at the other end and the slots between them. -/
structure Stream (inst : Instantiation) (egress : Egress) (ingress : Ingress)
    (slots : Nat → Memory) : Prop where
  tail : egress.localTxTail = BitVec.ofNat 64 egress.sent.length
  head : ingress.localRxHead = BitVec.ofNat 64 ingress.taken.length
  available : ingress.taken.length + ingress.phase.burst ≤ egress.sent.length
  handedOut : ∀ position, ingress.finished position = true → position < ingress.taken.length
  symmetric : ∀ frame ∈ egress.phase.todo, frame.Symmetric
  -- a slot is used again only for a frame whose predecessor in it is finished
  reuse : ∀ position, position + inst.capacity < egress.position + egress.phase.todo.length →
    ingress.finished position = true
  holds : ∀ position frame, (egress.sent ++ egress.phase.written)[position]? = some frame →
    egress.position ≤ position + inst.capacity →
      readFrame (slots (position % inst.capacity)) = frame.view
  delivered : ingress.taken <+: egress.sent.map RawTcpFrame.view

namespace Instantiation

theorem slotAt_ofNat (inst : Instantiation) (position : Nat) :
    inst.slotAt (BitVec.ofNat 64 position) = position % inst.capacity :=
  Word.toNat_ofNat_and_mask (Nat.le_of_lt inst.representable) position

end Instantiation

namespace Stream

variable {egress : Egress} {ingress : Ingress} {slots : Nat → Memory}

theorem initial (inst : Instantiation) :
    Stream inst (State.initial.egress .primary) (State.initial.ingress .primary)
      (State.initial.slots .txSlots) where
  tail := rfl
  head := rfl
  available := Nat.le_refl 0
  handedOut := by
    intro position finished
    cases finished
  symmetric := by
    intro frame member
    cases member
  reuse := by
    intro position bound
    exact absurd bound (Nat.not_lt_zero _)
  holds := by
    intro position frame present
    cases present
  delivered := List.nil_prefix

/-- A frame that was sent and is not finished is still in its slot. -/
theorem intact (stream : Stream inst egress ingress slots) {position : Nat}
    {frame : RawTcpFrame} (sent : egress.sent[position]? = some frame)
    (unfinished : ingress.finished position = false) :
    egress.position ≤ position + inst.capacity ∧
      readFrame (slots (position % inst.capacity)) = frame.view := by
  have kept : egress.position ≤ position + inst.capacity := by
    by_contra overwritten
    have finished := stream.reuse position (by omega)
    rw [unfinished] at finished
    cases finished
  refine ⟨kept, stream.holds position frame ?_ kept⟩
  rw [List.getElem?_append_left (List.getElem?_eq_some_iff.mp sent).1]
  exact sent

/-! ### The sender -/

section

variable (stream : Stream inst egress ingress slots)
include stream

theorem setHead (localTxHead : BitVec 64) :
    Stream inst { egress with localTxHead := localTxHead } ingress slots :=
  { stream with }

/-- A burst is started with frames whose slots are free. -/
theorem beginBurst (localTxHead : BitVec 64) (idle : egress.phase = .idle)
    {popped : List RawTcpFrame} (symmetric : ∀ frame ∈ popped, frame.Symmetric)
    (reuse : ∀ position < egress.sent.length + popped.length - inst.capacity,
      ingress.finished position = true) :
    Stream inst { egress with localTxHead := localTxHead, phase := .writing [] popped } ingress
      slots := by
  refine { stream with symmetric := symmetric, reuse := ?_, holds := ?_ }
  · intro position bound
    exact reuse position (Nat.lt_sub_of_add_lt bound)
  · have holds := stream.holds
    rw [Egress.position, idle] at holds
    exact holds

theorem writeNext {written todo : List RawTcpFrame} {frame : RawTcpFrame}
    (writing : egress.phase = .writing written (frame :: todo)) :
    Stream inst { egress with phase := .writing (written ++ [frame]) todo } ingress
      (Function.update slots (inst.slotAt (egress.localTxTail + BitVec.ofNat 64 written.length))
        (writeFrame (slots
          (inst.slotAt (egress.localTxTail + BitVec.ofNat 64 written.length))) frame)) := by
  have position : egress.position = egress.sent.length + written.length := by
    rw [Egress.position, writing]
    rfl
  have slot : inst.slotAt (egress.localTxTail + BitVec.ofNat 64 written.length) =
      egress.position % inst.capacity := by
    rw [stream.tail, ← BitVec.ofNat_add, inst.slotAt_ofNat, position]
  have symmetric := stream.symmetric
  have reuse := stream.reuse
  have holds := stream.holds
  rw [writing] at symmetric reuse holds
  have next : ({ egress with phase := .writing (written ++ [frame]) todo } : Egress).position =
      egress.position + 1 := by
    rw [position, Egress.position]
    simp [EgressPhase.written, Nat.add_assoc]
  rw [slot]
  refine { stream with symmetric := ?_, reuse := ?_, holds := ?_ }
  · intro other member
    exact symmetric other (List.mem_cons_of_mem _ member)
  · intro index bound
    apply reuse index
    simp only [EgressPhase.todo, List.length_cons] at bound ⊢
    omega
  · intro index other present kept
    have spread : egress.sent ++ (written ++ [frame]) = egress.sent ++ written ++ [frame] :=
      (List.append_assoc _ _ _).symm
    simp only [EgressPhase.written, spread] at present
    by_cases last : index = egress.position
    · subst last
      rw [position, ← List.length_append, List.getElem?_concat_length] at present
      cases present
      rw [Function.update_self]
      exact readFrame_writeFrame _ (symmetric frame List.mem_cons_self)
    · have inside : index < egress.position := by
        have bound := (List.getElem?_eq_some_iff.mp present).1
        simp only [List.length_append, List.length_singleton] at bound
        omega
      rw [List.getElem?_append_left (by
        rw [List.length_append, ← position]
        exact inside)] at present
      rw [Function.update_of_ne (Ring.slot_ne inside (by omega))]
      exact holds index other present (by omega)

theorem publish {written : List RawTcpFrame} (writing : egress.phase = .writing written []) :
    Stream inst { egress with
      localTxTail := egress.localTxTail + BitVec.ofNat 64 written.length
      phase := .idle, sent := egress.sent ++ written } ingress slots := by
  have available := stream.available
  have reuse := stream.reuse
  have holds := stream.holds
  rw [Egress.position, writing] at reuse holds
  refine { stream with
    tail := ?_, available := ?_, symmetric := ?_, reuse := ?_, holds := ?_, delivered := ?_ }
  · rw [stream.tail, ← BitVec.ofNat_add, List.length_append]
  · rw [List.length_append]
    omega
  · intro frame member
    cases member
  · intro position bound
    apply reuse position
    simpa [Egress.position, EgressPhase.written, EgressPhase.todo] using bound
  · intro position frame present kept
    apply holds position frame
    · simpa [EgressPhase.written] using present
    · simpa [Egress.position, EgressPhase.written] using kept
  · rw [List.map_append]
    exact stream.delivered.trans (List.prefix_append _ _)

end

/-! ### The receiver -/

section

variable (stream : Stream inst egress ingress slots)
include stream

theorem setTail (localRxTail : BitVec 64) {phase : IngressPhase}
    (available : ingress.taken.length + phase.burst ≤ egress.sent.length) :
    Stream inst egress { ingress with localRxTail := localRxTail, phase := phase } slots :=
  { stream with available := available }

/-- The slots from the head on hold the frames to be handed out. -/
theorem read_eq (count : Nat) (available : ingress.taken.length + count ≤ egress.sent.length) :
    ((List.range count).map fun i =>
        readFrame (slots (inst.slotAt (ingress.localRxHead + BitVec.ofNat 64 i)))) =
      ((egress.sent.map RawTcpFrame.view).drop ingress.taken.length).take count := by
  apply List.ext_getElem
  · simp only [List.length_map, List.length_range, List.length_take, List.length_drop]
    omega
  · intro i inside inside'
    rw [List.length_map, List.length_range] at inside
    have position : ingress.taken.length + i < egress.sent.length := by omega
    have unfinished : ingress.finished (ingress.taken.length + i) = false := by
      by_contra finished
      have handed := stream.handedOut _ (Bool.eq_true_of_not_eq_false finished)
      omega
    have kept := (stream.intact (List.getElem?_eq_getElem position) unfinished).2
    rw [List.getElem_map, List.getElem_range, stream.head, ← BitVec.ofNat_add,
      inst.slotAt_ofNat, kept]
    simp

theorem handOver {burstCount count : Nat} (pushing : ingress.phase = .pushing burstCount)
    (few : count ≤ burstCount) :
    Stream inst egress { ingress with
      localRxHead := ingress.localRxHead + BitVec.ofNat 64 count
      phase := .storing
      taken := ingress.taken ++ (List.range count).map fun i =>
        readFrame (slots (inst.slotAt (ingress.localRxHead + BitVec.ofNat 64 i))) } slots := by
  have available := stream.available
  rw [pushing, IngressPhase.burst] at available
  have frames := stream.read_eq count (by omega)
  rw [frames]
  have length : (ingress.taken ++ ((egress.sent.map RawTcpFrame.view).drop
      ingress.taken.length).take count).length = ingress.taken.length + count := by
    simp only [List.length_append, List.length_take, List.length_drop, List.length_map]
    omega
  refine { stream with
    head := ?_, available := ?_, handedOut := ?_, delivered := ?_ }
  · rw [length, stream.head, ← BitVec.ofNat_add]
  · rw [length]
    exact (Nat.add_le_add_left few _).trans available
  · intro position finished
    rw [length]
    exact Nat.lt_add_right count (stream.handedOut position finished)
  · nth_rewrite 1 [List.prefix_iff_eq_take.mp stream.delivered]
    rw [← List.take_add]
    exact List.take_prefix _ _

theorem endBurst : Stream inst egress { ingress with phase := .idle } slots :=
  { stream with available := (Nat.le_add_right _ _).trans stream.available }

/-- The application finishes with a frame that was handed to it. -/
theorem finish {position : Nat} (handed : position < ingress.taken.length) :
    Stream inst egress { ingress with
      finished := Function.update ingress.finished position true } slots := by
  refine { stream with handedOut := ?_, reuse := ?_ }
  · intro other finished
    by_cases same : other = position
    · exact same ▸ handed
    · dsimp only at finished
      rw [Function.update_of_ne same] at finished
      exact stream.handedOut other finished
  · intro other bound
    dsimp only
    by_cases same : other = position
    · rw [same, Function.update_self]
    · rw [Function.update_of_ne same]
      exact stream.reuse other bound

end

end Stream

end SlabFlux.Io.ShmDuplex
