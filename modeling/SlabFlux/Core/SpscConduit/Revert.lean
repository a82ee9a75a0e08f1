import SlabFlux.Core.SpscConduit.Invariant

/-!
# Putting popped items back

`revert_batch` is the back-pressure path of the egress engines: the consumer
hands a suffix of the items it just popped back to the conduit.  The slots of
these items were published as free by the pop, so the loop that rewinds the
egress cursor and rewrites them runs against a producer that may have seen the
freed slots.

A consumer in the middle of `revert_batch` is compared with the conduit as it
will be once the rewound cursor is published (`Session.rewound`).  A producer
that does not reload the egress gate cannot tell the two apart, so the
interleaving invariant of the plain conduit carries over.
-/

namespace SlabFlux.Core.SpscConduit

open Lib

universe u

variable {α : Type u} {inst : Instantiation} {base : Nat}

/-- The consumer inside `revert_batch(batch, count)`: the items the loop has
still to write, from the last on, and the items it has written, in array order. -/
structure Rewind (α : Type u) where
  pending : List α
  returned : List α

/-- The conduit with a consumer that keeps the array its last call filled. -/
structure Session (α : Type u) extends State α where
  batch : List α
  rewind : Option (Rewind α)

/-- What the consumer does next when it is between calls. -/
inductive SessionChoice where
  | pop (next : ConsumerChoice)
  | revert (count : Nat)

inductive SessionMove (α : Type u) where
  | producer (next : PushCall α)
  | consumer (next : SessionChoice)

/-- The array a consumer holds after a move of a pop call. -/
def Consumer.batch : Consumer α → List α
  | .drain [] taken => taken
  | _ => []

/-- One move of `revert_batch`: an iteration of the loop writes one slot, and the
end of the loop publishes the rewound cursor. -/
def stepRewind (inst : Instantiation) (s : Session α) : Rewind α → Session α
  | ⟨item :: pending, returned⟩ =>
      let cursor := s.localEgressCursor - 1
      { s with
        localEgressCursor := cursor
        buffer := Function.update s.buffer (inst.slotAt cursor) item
        rewind := some ⟨pending, item :: returned⟩ }
  | ⟨[], returned⟩ =>
      { s with
        physicalEgressGate := s.localEgressCursor
        delivered := s.delivered.take (s.delivered.length - returned.length)
        batch := s.batch.take (s.batch.length - returned.length)
        rewind := none }

/-- The consumer enters `revert_batch` on the last `count` items of its array. -/
def startRevert (count : Nat) (s : Session α) : Session α :=
  match s.consumer, (s.batch.drop (s.batch.length - count)).reverse with
  | .idle, item :: pending => { s with rewind := some ⟨item :: pending, []⟩ }
  | _, _ => s

def stepSession (inst : Instantiation) (s : Session α) : SessionMove α → Session α
  | .producer next => { s with toState := stepProducer inst next s.toState }
  | .consumer next =>
      match s.rewind, next with
      | some rewind, _ => stepRewind inst s rewind
      | none, .revert count => startRevert count s
      | none, .pop next =>
          { toState := stepConsumer inst next s.toState
            batch := s.consumer.batch
            rewind := none }

/-- The items between the two gates, in the order in which they will be popped. -/
def Conduit.outstanding (inst : Instantiation) (conduit : Conduit α) : List α :=
  (conduit.liveSlots inst).map conduit.buffer

def Producer.reloads : Producer α → Bool
  | .loadGate _ => true
  | _ => false

/-- The next consumer move is an iteration of the loop in `revert_batch`. -/
def Session.givesBack (s : Session α) : Bool :=
  match s.rewind with
  | some ⟨_ :: _, _⟩ => true
  | _ => false

/-- The move does not leave the consumer's cursor behind the producer's shadow
copy of it: `revert_batch` gives no slot back that the producer has seen free, and
the producer does not reload the egress gate while the cursor is being rewound. -/
def Unseen (s : Session α) : SessionMove α → Prop
  | .producer _ =>
      s.producer.reloads = true → s.localEgressCursor = s.physicalEgressGate
  | .consumer _ => s.givesBack = true → s.localEgressCursor ≠ s.cachedEgressCursor

instance (s : Session α) (move : SessionMove α) : Decidable (Unseen s move) := by
  cases move <;> unfold Unseen <;> infer_instance

/-! ## The state a rewinding consumer is about to publish -/

/-- The conduit after the rewound cursor is published and the last `count` items
count as not delivered. -/
def State.rewindBy (count : Nat) (s : State α) : State α :=
  { s with
    physicalEgressGate := s.localEgressCursor
    delivered := s.delivered.take (s.delivered.length - count) }

/-- The conduit after the store that ends the current `revert_batch`, if it ended
with the items written so far. -/
def Session.rewound (s : Session α) : State α :=
  match s.rewind with
  | none => s.toState
  | some rewind => s.toState.rewindBy rewind.returned.length

/-- What the array of the consumer and the progress of `revert_batch` say about
the items handed out last. -/
def Session.Rewinding (s : Session α) : Prop :=
  match s.rewind with
  | none => True
  | some rewind =>
      s.consumer = .idle ∧ rewind.pending.reverse ++ rewind.returned <:+ s.batch

structure SessionInvariant (inst : Instantiation) (base : Nat) (s : Session α) :
    Prop where
  conduit : Invariant inst base s.rewound
  egressGate : s.physicalEgressGate = BitVec.ofNat 64 (base + s.delivered.length)
  fifo : s.delivered <+: s.pushed
  batch : s.batch <:+ s.delivered
  rewinding : s.Rewinding

/-- A producer move is the same move on the conduit as it is about to be
published, unless it reloads a gate that is about to be moved back. -/
theorem stepProducer_rewindBy (count : Nat) (s : State α) (next : PushCall α)
    (unseen : s.producer.reloads = true → s.localEgressCursor = s.physicalEgressGate) :
    (stepProducer inst next s).rewindBy count = stepProducer inst next (s.rewindBy count) := by
  have producerEq : (s.rewindBy count).producer = s.producer := rfl
  unfold stepProducer
  rw [producerEq]
  cases producing : s.producer with
  | idle => exact apply_ite (State.rewindBy count) (s.seemsFull inst = true) _ _
  | fill pending items =>
      cases pending with
      | nil => rfl
      | cons first pending => rfl
  | loadGate call =>
      have same : s.localEgressCursor = s.physicalEgressGate :=
        unseen (by rw [producing]; rfl)
      rw [← same]
      let refreshed : Conduit α :=
        { s.toConduit with cachedEgressCursor := s.localEgressCursor }
      exact apply_ite (State.rewindBy count) (refreshed.seemsFull inst = true) _ _

theorem rewound_producer (s : Session α) (next : PushCall α) (unseen : Unseen s (.producer next)) :
    (stepSession inst s (.producer next)).rewound = stepProducer inst next s.rewound := by
  cases rewinding : s.rewind with
  | none => simp only [stepSession, Session.rewound, rewinding]
  | some rewind =>
      simp only [stepSession, Session.rewound, rewinding]
      exact stepProducer_rewindBy _ _ next unseen

/-- A producer move leaves the consumer's side alone and only appends to what was
pushed. -/
theorem stepProducer_frame (inst : Instantiation) (next : PushCall α) (s : State α) :
    (stepProducer inst next s).physicalEgressGate = s.physicalEgressGate ∧
      (stepProducer inst next s).delivered = s.delivered ∧
      (stepProducer inst next s).consumer = s.consumer ∧
      s.pushed <+: (stepProducer inst next s).pushed := by
  unfold stepProducer
  split
  next => split <;> exact ⟨rfl, rfl, rfl, List.prefix_rfl⟩
  next => dsimp only; split <;> exact ⟨rfl, rfl, rfl, List.prefix_rfl⟩
  next => exact ⟨rfl, rfl, rfl, List.prefix_rfl⟩
  next => exact ⟨rfl, rfl, rfl, List.prefix_append _ _⟩

variable {s : Session α}

theorem SessionInvariant.toConduit (invariant : SessionInvariant inst base s)
    (outside : s.rewind = none) : Invariant inst base s.toState := by
  have conduit := invariant.conduit
  rwa [Session.rewound, outside] at conduit

theorem SessionInvariant.stepProducer (invariant : SessionInvariant inst base s)
    (next : PushCall α) (unseen : Unseen s (.producer next)) :
    SessionInvariant inst base (stepSession inst s (.producer next)) := by
  obtain ⟨gateEq, deliveredEq, consumerEq, isPrefix⟩ :=
    stepProducer_frame inst next s.toState
  exact {
    conduit := by
      rw [rewound_producer s next unseen]
      exact stepProducer_invariant invariant.conduit next
    egressGate := by
      change (SpscConduit.stepProducer inst next s.toState).physicalEgressGate = _
      rw [gateEq, invariant.egressGate, ← deliveredEq]
      rfl
    fifo := by
      change (SpscConduit.stepProducer inst next s.toState).delivered <+: _
      rw [deliveredEq]
      exact invariant.fifo.trans isPrefix
    batch := by
      change s.batch <:+ (SpscConduit.stepProducer inst next s.toState).delivered
      rw [deliveredEq]
      exact invariant.batch
    rewinding := by
      have rewinding := invariant.rewinding
      cases rewindEq : s.rewind with
      | none => simp only [stepSession, Session.Rewinding, rewindEq]
      | some rewind =>
          simp only [stepSession, Session.Rewinding, rewindEq] at rewinding ⊢
          rwa [consumerEq] }

section

variable (invariant : SessionInvariant inst base s)
include invariant

theorem SessionInvariant.startRevert (outside : s.rewind = none) (count : Nat) :
    SessionInvariant inst base (startRevert count s) := by
  have conduit := invariant.toConduit outside
  unfold SpscConduit.startRevert
  split
  next item pending idle reversed =>
    exact {
      conduit := by
        change Invariant inst base (s.toState.rewindBy 0)
        rw [State.rewindBy, Nat.sub_zero, List.take_length]
        exact { conduit with egressGate := conduit.localEgress }
      egressGate := invariant.egressGate
      fifo := invariant.fifo
      batch := invariant.batch
      rewinding := by
        refine ⟨idle, ?_⟩
        change (item :: pending).reverse ++ [] <:+ s.batch
        rw [← reversed, List.reverse_reverse, List.append_nil]
        exact List.drop_suffix _ _ }
  next => exact invariant

end

/-! ## What a session sees -/

/-- Every session has the ingress side of the conduit it is about to publish. -/
theorem Session.rewound_frame (s : Session α) :
    s.rewound.physicalIngressGate = s.physicalIngressGate ∧
      s.rewound.buffer = s.buffer ∧ s.rewound.pushed = s.pushed ∧
      s.rewound.delivered <+: s.delivered := by
  cases rewindEq : s.rewind with
  | none =>
      rw [Session.rewound, rewindEq]
      exact ⟨rfl, rfl, rfl, List.prefix_rfl⟩
  | some rewind =>
      rw [Session.rewound, rewindEq]
      exact ⟨rfl, rfl, rfl, List.take_prefix _ _⟩

namespace SessionInvariant

section

variable (invariant : SessionInvariant inst base s)
include invariant

theorem occupancy_eq : s.occupancy = s.pushed.length - s.delivered.length := by
  obtain ⟨gateEq, -, pushedEq, shorter⟩ := s.rewound_frame
  have occupied := invariant.conduit.occupied_le
  have ordered := invariant.fifo.length_le
  have keptLe := shorter.length_le
  have sizeLt := inst.size_lt
  rw [pushedEq] at occupied
  unfold Conduit.occupancy
  rw [← gateEq, invariant.conduit.ingressGate, invariant.egressGate, pushedEq,
    Word.toNat_sub_ofNat (by omega) (by omega)]
  omega

theorem occupancy_le : s.occupancy ≤ inst.size := by
  obtain ⟨-, -, pushedEq, shorter⟩ := s.rewound_frame
  have occupied := invariant.conduit.occupied_le
  have keptLe := shorter.length_le
  rw [pushedEq] at occupied
  rw [invariant.occupancy_eq]
  omega

/-- What a consumer was handed so far, unfinished pop calls included. -/
theorem handed_isPrefix_sent : s.handed <+: s.pushed := by
  cases rewindEq : s.rewind with
  | none => exact (invariant.toConduit rewindEq).handed_isPrefix_sent
  | some rewind =>
      have rewinding := invariant.rewinding
      rw [Session.Rewinding, rewindEq] at rewinding
      rw [State.handed, rewinding.1]
      exact invariant.fifo

end

end SessionInvariant

/-- A ring of two slots. -/
def twoSlots : Instantiation := ⟨2, by decide⟩

end SlabFlux.Core.SpscConduit
