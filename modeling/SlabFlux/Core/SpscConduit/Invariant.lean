import SlabFlux.Core.SpscConduit.Model

/-!
# The conduit is a bounded FIFO

Positions count items since the start: the item pushed as number `n` has
position `base + n`, where `base` is the start value of the cursors.  The
invariant ties each of the six cursors to a position and orders them:

* a shadow copy is a position that the other side's gate had before, and
* whatever a half-finished call has claimed still lies between the shadow copy
  and one full turn beyond it.

Every buffer access of either side is then separated from the other side's
positions by less than one turn of the ring.

Observable consequences of the interleaving invariant, stated on the gates and
on the buffer accesses the two sides are about to make.
-/

namespace SlabFlux.Core.SpscConduit

open Lib Ring Conduit

universe u

variable {α : Type u} {inst : Instantiation} {base : Nat} {s : State α}

/-- Items the producer has claimed room for but not yet published. -/
def Producer.claimed : Producer α → Nat
  | .fill _ items => items.length
  | _ => 0

/-- Items the consumer is taking or pointing at but has not yet consumed. -/
def Consumer.claimed : Consumer α → Nat
  | .drain pending taken => taken.length + pending.length
  | .peeked _ => 1
  | _ => 0

/-- The writes a producer still has to do continue, position by position, the
writes it has done from position `first` on. -/
def Producer.Consistent (inst : Instantiation) (buffer : Nat → α) (first : Nat) :
    Producer α → Prop
  | .fill pending items =>
      ∃ written, items = written ++ pending.map Prod.snd ∧ pending.map Prod.fst =
          slots inst.size (first + written.length) pending.length ∧
        Holds inst.size buffer first written
  | _ => True

/-- The reads a consumer still has to do continue, position by position, the
items it has taken; what it has taken is next in the pushed sequence. -/
def Consumer.Consistent (inst : Instantiation) (base : Nat)
    (pushed delivered : List α) : Consumer α → Prop
  | .drain pending taken =>
      delivered ++ taken <+: pushed ∧ pending = slots inst.size
          (base + delivered.length + taken.length) pending.length
  | .peeked slot => slot = (base + delivered.length) % inst.size
  | _ => True

/-- The relation of gates, local cursors, shadow copies, buffer contents and
half-finished calls that every move preserves. -/
structure Invariant (inst : Instantiation) (base : Nat) (s : State α) : Prop where
  localIngress : s.localIngressCursor = BitVec.ofNat 64 (base + s.pushed.length)
  ingressGate : s.physicalIngressGate = BitVec.ofNat 64 (base + s.pushed.length)
  localEgress : s.localEgressCursor = BitVec.ofNat 64 (base + s.delivered.length)
  egressGate : s.physicalEgressGate = BitVec.ofNat 64 (base + s.delivered.length)
  shadowEgress : ∃ seen ≤ s.delivered.length, s.cachedEgressCursor = BitVec.ofNat 64 (base + seen) ∧
      s.pushed.length + s.producer.claimed ≤ seen + inst.size
  shadowIngress : ∃ seen ≤ s.pushed.length, s.cachedIngressCursor = BitVec.ofNat 64 (base + seen) ∧
      s.delivered.length + s.consumer.claimed ≤ seen
  fifo : s.delivered <+: s.pushed
  stored : Holds inst.size s.buffer (base + s.delivered.length)
    (s.pushed.drop s.delivered.length)
  producing : s.producer.Consistent inst s.buffer (base + s.pushed.length)
  consuming : s.consumer.Consistent inst base s.pushed s.delivered

namespace Invariant

section

variable (invariant : Invariant inst base s)
include invariant

theorem delivered_le : s.delivered.length ≤ s.pushed.length :=
  invariant.fifo.length_le

/-- Published and claimed items together never exceed the ring. -/
theorem occupied_le : s.pushed.length + s.producer.claimed ≤ s.delivered.length + inst.size := by
  obtain ⟨seen, seenLe, _, room⟩ := invariant.shadowEgress
  omega

theorem taking_le : s.delivered.length + s.consumer.claimed ≤ s.pushed.length := by
  obtain ⟨seen, seenLe, _, available⟩ := invariant.shadowIngress
  omega

/-- A published item that has not been consumed is still in its slot. -/
theorem read (offset : Nat) (inBounds : s.delivered.length + offset < s.pushed.length) :
    s.buffer ((base + s.delivered.length + offset) % inst.size) =
      s.pushed[s.delivered.length + offset] := by
  have held := invariant.stored offset (by rw [List.length_drop]; omega)
  rw [held, List.getElem_drop]

end

end Invariant

/-- Appending the next element of a list to a prefix gives a longer prefix. -/
theorem concat_prefix_of_prefix {front whole : List α} (isPrefix : front <+: whole)
    (inBounds : front.length < whole.length) :
    front ++ [whole[front.length]] <+: whole := by
  obtain ⟨rest, rfl⟩ := isPrefix
  cases rest with
  | nil => simp at inBounds
  | cons item rest => simp

theorem initial_invariant (inst : Instantiation) (start : Cursor) (buffer : Nat → α) :
    Invariant inst start.toNat (initial start buffer) where
  localIngress := by simp [initial]
  ingressGate := by simp [initial]
  localEgress := by simp [initial]
  egressGate := by simp [initial]
  shadowEgress := ⟨0, by simp [initial, Producer.claimed]⟩
  shadowIngress := ⟨0, by simp [initial, Consumer.claimed]⟩
  fifo := List.prefix_refl _
  stored := by simp [initial]
  producing := True.intro
  consuming := True.intro

/-! ## Producer moves -/

/-- A push call that passed its capacity check claims at most the room the
shadow copy shows, and plans its writes in position order. -/
theorem beginPush_spec {conduit : Conduit α} {position seen : Nat}
    (localIngress : conduit.localIngressCursor = BitVec.ofNat 64 position)
    (cachedEgress : conduit.cachedEgressCursor = BitVec.ofNat 64 seen)
    (ordered : seen ≤ position) (near : position ≤ seen + inst.size)
    (room : conduit.seemsFull inst = false) (call : PushCall α) :
    position + (conduit.beginPush inst call).claimed ≤ seen + inst.size ∧
      (conduit.beginPush inst call).Consistent inst conduit.buffer position := by
  have sizeLt := inst.size_lt
  have distance : conduit.ingressDistance = position - seen := by
    unfold ingressDistance
    rw [localIngress, cachedEgress, Word.toNat_sub_ofNat ordered (by omega)]
  have notFull : position - seen < inst.size := by
    simpa [seemsFull, distance] using room
  cases call with
  | tryPush item =>
      refine ⟨by simp only [beginPush, Producer.claimed, List.length_singleton]; omega, [], ?_⟩
      simp [localIngress]
  | pushBatch inBatch =>
      simp only [beginPush, Producer.claimed, Producer.Consistent,
        distance, localIngress, Instantiation.slotAt_ofNat]
      generalize countEq : (if inst.size - (position - seen) < inBatch.length then
        inst.size - (position - seen) else inBatch.length) = count
      have countLe : count ≤ inst.size - (position - seen) ∧ count ≤ inBatch.length := by
        rw [← countEq]
        split <;> omega
      have slotsLength : (copySlots inst.size (position % inst.size)
          count).length = (inBatch.take count).length := by
        rw [copySlots_eq_slots (by omega) _ (by omega), length_slots, List.length_take]
        omega
      refine ⟨by rw [List.length_take]; omega, [], ?_, ?_, Holds.nil _ _ _⟩
      · rw [List.nil_append, List.map_snd_zip (by omega)]
      · rw [List.map_fst_zip (by omega), List.length_zip, slotsLength,
          Nat.min_self, copySlots_eq_slots (by omega) _ (by omega),
          List.length_take, Nat.min_eq_left countLe.2, List.length_nil,
          Nat.add_zero]

section

variable (invariant : Invariant inst base s)
include invariant

/-- Entering a push call without touching the other side's gate. -/
theorem Invariant.startPush (idle : s.producer.claimed = 0) (room : s.seemsFull inst = false)
    (call : PushCall α) :
    Invariant inst base { s with producer := s.beginPush inst call } := by
  obtain ⟨seen, seenLe, cached, fits⟩ := invariant.shadowEgress
  have ordered := invariant.delivered_le
  obtain ⟨claims, consistent⟩ := beginPush_spec invariant.localIngress cached
    (by omega) (by omega) room call
  exact { invariant with
    shadowEgress := ⟨seen, seenLe, cached, by
      change s.pushed.length + (s.beginPush inst call).claimed ≤ _
      omega⟩
    producing := consistent }

/-- A producer that gives up, or that goes on to load the gate, claims nothing. -/
theorem Invariant.setProducer {producer : Producer α} (claims : producer.claimed = 0)
    (consistent : ∀ first, producer.Consistent inst s.buffer first) :
    Invariant inst base { s with producer := producer } := by
  obtain ⟨seen, seenLe, cached, fits⟩ := invariant.shadowEgress
  exact { invariant with
    shadowEgress := ⟨seen, seenLe, cached, by
      change s.pushed.length + producer.claimed ≤ _
      omega⟩
    producing := consistent _ }

theorem Invariant.loadEgressGate :
    Invariant inst base { s with cachedEgressCursor := s.physicalEgressGate } :=
  { invariant with
    shadowEgress := ⟨s.delivered.length, Nat.le_refl _, invariant.egressGate,
      invariant.occupied_le⟩ }

theorem Invariant.fillSlot {slot : Nat} {item : α} {pending : List (Nat × α)} {items : List α}
    (filling : s.producer = .fill ((slot, item) :: pending) items) :
    Invariant inst base { s with
      buffer := Function.update s.buffer slot item
      producer := .fill pending items } := by
  have claims : s.producer.claimed = items.length := by rw [filling]; rfl
  have occupied := invariant.occupied_le
  have ordered := invariant.delivered_le
  obtain ⟨written, itemsEq, slotsEq, held⟩ :=
    (filling ▸ invariant.producing :
      (Producer.fill ((slot, item) :: pending) items).Consistent inst s.buffer
        (base + s.pushed.length))
  simp only [List.map_cons, List.length_cons, slots_succ, List.cons.injEq] at itemsEq slotsEq
  obtain ⟨slotEq, slotsEq⟩ := slotsEq
  have itemsLength : items.length = written.length + pending.length + 1 := by
    simp [itemsEq, Nat.add_assoc]
  subst slotEq
  exact { invariant with
    shadowEgress := by simpa [filling, Producer.claimed] using invariant.shadowEgress
    stored := by
      apply invariant.stored.write
      · rw [List.length_drop]
        omega
      · omega
    producing := by
      refine ⟨written ++ [item], by simp [itemsEq], ?_, held.snoc (by omega) item⟩
      simpa [Nat.add_assoc] using slotsEq }

theorem Invariant.publish {items : List α} (filled : s.producer = .fill [] items) :
    Invariant inst base { s with
      localIngressCursor := s.localIngressCursor + BitVec.ofNat 64 items.length
      physicalIngressGate := s.localIngressCursor + BitVec.ofNat 64 items.length
      producer := .idle
      pushed := s.pushed ++ items } := by
  have ordered := invariant.delivered_le
  obtain ⟨written, itemsEq, -, held⟩ :=
    (filled ▸ invariant.producing :
      (Producer.fill [] items).Consistent inst s.buffer (base + s.pushed.length))
  obtain rfl : items = written := by simpa using itemsEq
  have cursorEq : s.localIngressCursor + BitVec.ofNat 64 items.length =
      BitVec.ofNat 64 (base + (s.pushed ++ items).length) := by
    rw [invariant.localIngress, ← BitVec.ofNat_add, List.length_append, Nat.add_assoc]
  exact {
    localIngress := cursorEq
    ingressGate := cursorEq
    localEgress := invariant.localEgress
    egressGate := invariant.egressGate
    shadowEgress := by
      obtain ⟨seen, seenLe, cached, fits⟩ := invariant.shadowEgress
      refine ⟨seen, seenLe, cached, ?_⟩
      simpa [filled, Producer.claimed] using fits
    shadowIngress := by
      obtain ⟨seen, seenLe, cached, available⟩ := invariant.shadowIngress
      refine ⟨seen, ?_, cached, available⟩
      rw [List.length_append]
      omega
    fifo := invariant.fifo.trans (List.prefix_append _ _)
    stored := by
      rw [List.drop_append_of_le_length ordered]
      apply invariant.stored.append
      rw [List.length_drop]
      convert held using 1
      omega
    producing := True.intro
    consuming := by
      have consuming := invariant.consuming
      cases consumerEq : s.consumer with
      | idle => exact True.intro
      | loadGate call => exact True.intro
      | peeked slot => simpa [consumerEq, Consumer.Consistent] using consuming
      | drain pending taken =>
          rw [consumerEq] at consuming
          exact ⟨consuming.1.trans (List.prefix_append _ _), consuming.2⟩ }

theorem stepProducer_invariant (next : PushCall α) :
    Invariant inst base (stepProducer inst next s) := by
  unfold stepProducer
  split
  next idle =>
    split
    · exact invariant.setProducer rfl fun _ => True.intro
    next room =>
      exact invariant.startPush (by rw [idle]; rfl) (by simpa using room) next
  next call loading =>
    have refreshed := invariant.loadEgressGate
    dsimp only
    split
    · exact refreshed.setProducer rfl fun _ => True.intro
    next room =>
      exact refreshed.startPush (by change s.producer.claimed = 0; rw [loading]; rfl)
        (by simpa using room) call
  next slot item pending items filling => exact invariant.fillSlot filling
  next items filled => exact invariant.publish filled

end

/-! ## Consumer moves -/

/-- A pop call that passed its emptiness check takes at most the items the
shadow copy shows, and plans its reads in position order. -/
theorem beginPop_spec {conduit : Conduit α} {pushed delivered : List α} {seen : Nat}
    (localEgress : conduit.localEgressCursor = BitVec.ofNat 64 (base + delivered.length))
    (cachedIngress : conduit.cachedIngressCursor = BitVec.ofNat 64 (base + seen))
    (ordered : delivered.length ≤ seen) (near : seen ≤ delivered.length + inst.size)
    (fifo : delivered <+: pushed) (nonempty : conduit.seemsEmpty = false)
    (call : PopCall) :
    delivered.length + (conduit.beginPop inst call).claimed ≤ seen ∧
      (conduit.beginPop inst call).Consistent inst base pushed delivered := by
  have sizeLt := inst.size_lt
  have distance : conduit.egressDistance = seen - delivered.length := by
    unfold egressDistance
    rw [localEgress, cachedIngress, Word.toNat_sub_ofNat (by omega) (by omega)]
    omega
  have notEmpty : delivered.length < seen := by
    rw [seemsEmpty, localEgress, cachedIngress, decide_eq_false_iff_not,
      Word.ofNat_inj_of_near (by omega) (by omega)] at nonempty
    omega
  cases call with
  | tryPop =>
      simp only [beginPop, Consumer.claimed, Consumer.Consistent,
        localEgress, Instantiation.slotAt_ofNat]
      refine ⟨?_, by simpa using fifo, by simp⟩
      simp only [List.length_nil, List.length_singleton]
      omega
  | popBatch maxCount =>
      simp only [beginPop, Consumer.claimed, Consumer.Consistent,
        distance, localEgress, Instantiation.slotAt_ofNat]
      generalize countEq : (if seen - delivered.length < maxCount then
        seen - delivered.length else maxCount) = count
      have countLe : count ≤ seen - delivered.length := by
        rw [← countEq]
        split <;> omega
      rw [copySlots_eq_slots (by omega) _ (by omega)]
      refine ⟨?_, by simpa using fifo, by simp⟩
      simp only [List.length_nil, length_slots]
      omega
  | peek =>
      simp only [beginPop, Consumer.claimed, Consumer.Consistent,
        localEgress, Instantiation.slotAt_ofNat]
      exact ⟨notEmpty, True.intro⟩

section

variable (invariant : Invariant inst base s)
include invariant

/-- Entering a pop call without touching the other side's gate. -/
theorem Invariant.beginPop (nonempty : s.seemsEmpty = false) (call : PopCall) :
    Invariant inst base { s with consumer := s.beginPop inst call } := by
  obtain ⟨seen, seenLe, cached, available⟩ := invariant.shadowIngress
  have occupied := invariant.occupied_le
  have near : seen ≤ s.delivered.length + inst.size := by omega
  obtain ⟨claims, consistent⟩ := beginPop_spec invariant.localEgress cached
    (by omega) near invariant.fifo nonempty call
  exact { invariant with
    shadowIngress := ⟨seen, seenLe, cached, claims⟩
    consuming := consistent }

/-- A consumer that gives up, or that goes on to load the gate, claims nothing. -/
theorem Invariant.setConsumer {consumer : Consumer α} (claims : consumer.claimed = 0)
    (consistent : consumer.Consistent inst base s.pushed s.delivered) :
    Invariant inst base { s with consumer := consumer } := by
  obtain ⟨seen, seenLe, cached, available⟩ := invariant.shadowIngress
  exact { invariant with
    shadowIngress := ⟨seen, seenLe, cached, by
      change s.delivered.length + consumer.claimed ≤ _
      omega⟩
    consuming := consistent }

theorem Invariant.loadIngressGate :
    Invariant inst base { s with cachedIngressCursor := s.physicalIngressGate } :=
  { invariant with
    shadowIngress := ⟨s.pushed.length, Nat.le_refl _, invariant.ingressGate, invariant.taking_le⟩ }

theorem startPop_invariant (call : PopCall) : Invariant inst base (startPop inst call s) := by
  unfold startPop
  split
  · exact invariant.setConsumer rfl True.intro
  next nonempty => exact invariant.beginPop (by simpa using nonempty) call

/-- One buffer read of a pop call takes the next pushed item. -/
theorem Invariant.drainSlot {slot : Nat} {pending : List Nat} {taken : List α}
    (draining : s.consumer = .drain (slot :: pending) taken) :
    Invariant inst base { s with
      consumer := .drain pending (taken ++ [s.buffer slot]) } := by
  have taking := invariant.taking_le
  obtain ⟨isPrefix, slotsEq⟩ :=
    (draining ▸ invariant.consuming :
      (Consumer.drain (slot :: pending) taken).Consistent inst base s.pushed
        s.delivered)
  rw [draining, Consumer.claimed, List.length_cons] at taking
  rw [List.length_cons, slots_succ, List.cons.injEq] at slotsEq
  obtain ⟨slotEq, slotsEq⟩ := slotsEq
  have valueEq : s.buffer slot = s.pushed[s.delivered.length + taken.length] := by
    rw [slotEq]
    exact invariant.read _ (by omega)
  exact { invariant with
    shadowIngress := by
      obtain ⟨seen, seenLe, cached, available⟩ := invariant.shadowIngress
      refine ⟨seen, seenLe, cached, ?_⟩
      rw [draining, Consumer.claimed, List.length_cons] at available
      simp only [Consumer.claimed, List.length_append, List.length_singleton]
      omega
    consuming := by
      constructor
      · have longer := concat_prefix_of_prefix isPrefix (by
          rw [List.length_append]
          omega)
        simpa [valueEq, List.append_assoc] using longer
      · simpa [Nat.add_assoc] using slotsEq }

theorem Invariant.consumeItems (items : List α) (isPrefix : s.delivered ++ items <+: s.pushed)
    (claims : items.length ≤ s.consumer.claimed) :
    Invariant inst base { s with
      localEgressCursor := s.localEgressCursor + BitVec.ofNat 64 items.length
      physicalEgressGate := s.localEgressCursor + BitVec.ofNat 64 items.length
      consumer := .idle
      delivered := s.delivered ++ items } := by
  have cursorEq : s.localEgressCursor + BitVec.ofNat 64 items.length =
      BitVec.ofNat 64 (base + (s.delivered ++ items).length) := by
    rw [invariant.localEgress, ← BitVec.ofNat_add, List.length_append, Nat.add_assoc]
  exact {
    localIngress := invariant.localIngress
    ingressGate := invariant.ingressGate
    localEgress := cursorEq
    egressGate := cursorEq
    shadowEgress := by
      obtain ⟨seen, seenLe, cached, fits⟩ := invariant.shadowEgress
      refine ⟨seen, ?_, cached, fits⟩
      rw [List.length_append]
      omega
    shadowIngress := by
      obtain ⟨seen, seenLe, cached, available⟩ := invariant.shadowIngress
      refine ⟨seen, seenLe, cached, ?_⟩
      change (s.delivered ++ items).length + 0 ≤ seen
      rw [List.length_append]
      omega
    fifo := isPrefix
    stored := by
      have rest := invariant.stored.drop items.length
      simpa [Nat.add_assoc] using rest
    producing := invariant.producing
    consuming := True.intro }

/-- The pointer returned by `peek` points at the next undelivered item for as
long as the consumer holds it. -/
theorem Invariant.peeked_value {slot : Nat} (peeked : s.consumer = .peeked slot) :
    s.delivered ++ [s.buffer slot] <+: s.pushed := by
  have taking := invariant.taking_le
  rw [peeked, Consumer.claimed] at taking
  have slotEq : slot = (base + s.delivered.length) % inst.size := by
    simpa [peeked, Consumer.Consistent] using invariant.consuming
  have valueEq := invariant.read 0 (by omega)
  rw [Nat.add_zero, ← slotEq] at valueEq
  rw [valueEq]
  exact concat_prefix_of_prefix invariant.fifo (by omega)

theorem stepConsumer_invariant (next : ConsumerChoice) :
    Invariant inst base (stepConsumer inst next s) := by
  unfold stepConsumer
  split
  next call idle => exact startPop_invariant invariant call
  next idle => exact invariant
  next slot call peeked => exact startPop_invariant invariant call
  next slot peeked =>
    exact invariant.consumeItems [s.buffer slot]
      (invariant.peeked_value peeked) (by rw [peeked]; exact Nat.le_refl 1)
  next call loading =>
    have refreshed := invariant.loadIngressGate
    dsimp only
    split
    · exact refreshed.setConsumer rfl True.intro
    next nonempty => exact refreshed.beginPop (by simpa using nonempty) call
  next slot pending taken draining => exact invariant.drainSlot draining
  next taken drained =>
    have consuming := invariant.consuming
    rw [drained] at consuming
    exact invariant.consumeItems taken consuming.1 (by rw [drained]; exact Nat.le_refl _)

end

/-! ## Whole runs -/

theorem step_invariant (invariant : Invariant inst base s) (move : Move α) :
    Invariant inst base (step inst s move) := by
  cases move with
  | producer next => exact stepProducer_invariant invariant next
  | consumer next => exact stepConsumer_invariant invariant next

/-- The invariant holds after every interleaving of the two sides. -/
theorem execute_step_invariant (inst : Instantiation) (start : Cursor)
    (buffer : Nat → α) (schedule : List (Move α)) :
    Invariant inst start.toNat
      (execute (step inst) (initial start buffer) schedule) := by
  apply execute_invariant
  · intro s move invariant
    exact step_invariant invariant move
  · exact initial_invariant inst start buffer

/-! ## What can be observed -/

/-- `occupancy()`: published minus consumed, computed on the two gates. -/
def Conduit.occupancy (conduit : Conduit α) : Nat :=
  (conduit.physicalIngressGate - conduit.physicalEgressGate).toNat

/-- The slots between the egress gate and the ingress gate. -/
def Conduit.liveSlots (inst : Instantiation) (conduit : Conduit α) : List Nat :=
  (List.range conduit.occupancy).map fun offset =>
    inst.slotAt (conduit.physicalEgressGate + BitVec.ofNat 64 offset)

/-- The slot the producer is about to write, if any. -/
def State.nextWrite (s : State α) : Option Nat :=
  match s.producer with
  | .fill ((slot, _) :: _) _ => some slot
  | _ => none

/-- The slot the consumer is about to read or may read through a pointer. -/
def State.nextRead (s : State α) : Option Nat :=
  match s.consumer with
  | .drain (slot :: _) _ => some slot
  | .peeked slot => some slot
  | _ => none

/-- Everything the consumer has been handed: consumed items, items already
copied out by an unfinished call, and the item a pointer from `peek` shows. -/
def State.handed (s : State α) : List α :=
  match s.consumer with
  | .drain _ taken => s.delivered ++ taken
  | .peeked slot => s.delivered ++ [s.buffer slot]
  | _ => s.delivered

namespace Invariant

section

variable (invariant : Invariant inst base s)
include invariant

theorem occupancy_eq : s.occupancy = s.pushed.length - s.delivered.length := by
  have ordered := invariant.delivered_le
  have occupied := invariant.occupied_le
  have sizeLt := inst.size_lt
  unfold Conduit.occupancy
  rw [invariant.ingressGate, invariant.egressGate, Word.toNat_sub_ofNat (by omega) (by omega)]
  omega

theorem occupancy_le : s.occupancy ≤ inst.size := by
  have occupied := invariant.occupied_le
  rw [invariant.occupancy_eq]
  omega

theorem liveSlots_eq :
    s.liveSlots inst = Ring.slots inst.size (base + s.delivered.length)
      (s.pushed.length - s.delivered.length) := by
  unfold Conduit.liveSlots Ring.slots
  rw [invariant.occupancy_eq]
  apply List.map_congr_left
  intro offset _
  rw [invariant.egressGate, ← BitVec.ofNat_add, Instantiation.slotAt_ofNat]

theorem handed_isPrefix_sent : s.handed <+: s.pushed := by
  unfold State.handed
  split
  next pending taken draining =>
    have consuming := invariant.consuming
    rw [draining] at consuming
    exact consuming.1
  next slot peeked => exact invariant.peeked_value peeked
  next => exact invariant.fifo

/-- The producer writes a slot of the ring that holds no published item that
still has to be consumed. -/
theorem nextWrite_free {slot : Nat} (writing : s.nextWrite = some slot) :
    slot < inst.size ∧ slot ∉ s.liveSlots inst := by
  have occupied := invariant.occupied_le
  have sizePos := inst.two_le_size
  unfold State.nextWrite at writing
  split at writing
  next target item pending items filling =>
    obtain rfl : target = slot := by simpa using writing
    obtain ⟨written, itemsEq, slotsEq, _⟩ :=
      (filling ▸ invariant.producing :
        (Producer.fill ((target, item) :: pending) items).Consistent inst s.buffer
          (base + s.pushed.length))
    rw [List.map_cons, List.length_cons, Ring.slots_succ, List.cons.injEq] at slotsEq
    have itemsLength : items.length = written.length + (pending.length + 1) := by
      simp [itemsEq]
    rw [filling, Producer.claimed] at occupied
    obtain ⟨slotEq, _⟩ := slotsEq
    subst slotEq
    refine ⟨Nat.mod_lt _ (by omega), ?_⟩
    rw [invariant.liveSlots_eq]
    intro member
    simp only [Ring.slots, List.mem_map, List.mem_range] at member
    obtain ⟨offset, offsetLt, equal⟩ := member
    exact Ring.slot_ne (by omega) (by omega) equal
  next => simp at writing

/-- The consumer reads a slot that holds a published item. -/
theorem nextRead_live {slot : Nat} (reading : s.nextRead = some slot) :
    slot ∈ s.liveSlots inst := by
  have taking := invariant.taking_le
  have consuming := invariant.consuming
  rw [invariant.liveSlots_eq]
  simp only [Ring.slots, List.mem_map, List.mem_range]
  unfold State.nextRead at reading
  split at reading
  next target pending taken draining =>
    obtain rfl : target = slot := by simpa using reading
    rw [draining, Consumer.claimed, List.length_cons] at taking
    rw [draining, Consumer.Consistent, List.length_cons, Ring.slots_succ,
      List.cons.injEq] at consuming
    exact ⟨taken.length, by omega, consuming.2.1.symm⟩
  next target peeked =>
    obtain rfl : target = slot := by simpa using reading
    rw [peeked, Consumer.claimed] at taking
    rw [peeked] at consuming
    exact ⟨0, by omega, by rw [consuming, Nat.add_zero]⟩
  next => simp at reading

end

end Invariant

/-- Under every interleaving, for every size and every start value of the
cursors: the consumer is handed a prefix of what was pushed, no slot is
overwritten before its item was consumed, no slot is read before its item was
published, and the gates are never more than `Size` apart. -/
theorem conduit_boundedFifo (inst : Instantiation) (start : Cursor)
    (buffer : Nat → α) (schedule : List (Move α)) :
    let s := execute (step inst) (initial start buffer) schedule
    s.handed <+: s.pushed ∧ (∀ slot, s.nextWrite = some slot →
        slot < inst.size ∧ slot ∉ s.liveSlots inst) ∧
      (∀ slot, s.nextRead = some slot → slot ∈ s.liveSlots inst) ∧
      s.delivered.length ≤ s.pushed.length ∧
      s.occupancy = s.pushed.length - s.delivered.length ∧
      s.occupancy ≤ inst.size := by
  intro s
  have invariant := execute_step_invariant inst start buffer schedule
  exact ⟨invariant.handed_isPrefix_sent, fun _ => invariant.nextWrite_free,
    fun _ => invariant.nextRead_live, invariant.delivered_le,
    invariant.occupancy_eq, invariant.occupancy_le⟩

end SlabFlux.Core.SpscConduit
