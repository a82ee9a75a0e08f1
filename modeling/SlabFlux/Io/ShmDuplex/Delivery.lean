import SlabFlux.Io.ShmDuplex.Stream

/-!
# Delivery over the shared memory duplex

The counters are wired to the wrong ends: the primary takes its own tail for the tail of the
secondary, the secondary takes the primary's head for the primary's tail, and both senders
look at how much their own side has received.  What follows is what the duplex delivers as
long as these counters happen not to mislead it.
-/

namespace SlabFlux.Io.ShmDuplex

open Lib Function State

variable (role : Role)

/-! ## The counters -/

namespace Role

theorem other_ne : role.other ≠ role := by
  cases role <;> decide

theorem other_other : role.other.other = role := by
  cases role <;> rfl

theorem eq_other {role side : Role} (different : side ≠ role) : side = role.other := by
  cases role <;> cases side <;> first | rfl | exact absurd rfl different

/-- The slots one side writes are those the other side reads. -/
theorem localRxSlots_eq : role.localRxSlots = role.other.localTxSlots := by
  cases role <;> rfl

theorem localTxSlots_other_ne : role.other.localTxSlots ≠ role.localTxSlots := by
  cases role <;> decide

theorem localTxTailPtr_other_ne : role.other.localTxTailPtr ≠ role.localTxTailPtr := by
  cases role <;> decide

theorem localRxHeadPtr_other_ne : role.other.localRxHeadPtr ≠ role.localRxHeadPtr := by
  cases role <;> decide

theorem localRxHeadPtr_ne_localTxTailPtr (role side : Role) :
    role.localRxHeadPtr ≠ side.localTxTailPtr := by
  cases role <;> cases side <;> decide

end Role

/-- What the counters say.  `stored` are the heads published, `seen` the tails last loaded. -/
structure Counted (state : State) (stored seen : Role → Nat) : Prop where
  publishedTail : ∀ role, state.counter role.localTxTailPtr =
    BitVec.ofNat 64 (state.egress role).sent.length
  publishedHead : ∀ role, state.counter role.localRxHeadPtr = BitVec.ofNat 64 (stored role)
  stored_le : ∀ role, stored role ≤ (state.ingress role).taken.length
  loadedTail : ∀ role, (state.ingress role).localRxTail = BitVec.ofNat 64 (seen role)
  available : ∀ role, (state.ingress role).taken.length + (state.ingress role).phase.burst ≤
    seen role
  -- the primary loads its own tail
  primarySeen : seen .primary ≤ (state.egress .primary).sent.length
  primaryFed : seen .primary ≤ (state.egress .secondary).sent.length
  -- the secondary loads the primary's head
  secondarySeen : seen .secondary ≤ stored .primary

/-- The tail a side has loaded is not ahead of what the other side has published. -/
theorem Counted.seen_le {state : State} {stored seen : Role → Nat}
    (counted : Counted state stored seen) (role : Role) :
    seen role ≤ (state.egress role.other).sent.length := by
  cases role with
  | primary => exact counted.primaryFed
  | secondary =>
    have primarySeen := counted.primarySeen
    have secondarySeen := counted.secondarySeen
    have stored_le := counted.stored_le .primary
    have available := counted.available .primary
    change seen .secondary ≤ (state.egress .primary).sent.length
    omega

variable {ingress : Ingress} {egress : Egress}

namespace Counted

variable {state : State} {stored seen : Role → Nat}

section

variable (counted : Counted state stored seen)
include counted

theorem setEgress (sent : egress.sent = (state.egress role).sent) :
    Counted { state with egress := update state.egress role egress } stored
      seen := by
  have same : ∀ side, (update state.egress role egress side).sent = (state.egress side).sent := by
    intro side
    by_cases own : side = role
    · rw [own, update_self, sent]
    · rw [update_of_ne own]
  refine { counted with publishedTail := ?_, primarySeen := ?_, primaryFed := ?_ }
  · intro side
    rw [same, counted.publishedTail]
  · rw [same]
    exact counted.primarySeen
  · rw [same]
    exact counted.primaryFed

theorem publishTail (more : (state.egress role).sent.length ≤ egress.sent.length) :
    Counted { state with
      counter := update state.counter role.localTxTailPtr
        (BitVec.ofNat 64 egress.sent.length)
      egress := update state.egress role egress } stored seen := by
  have grown : ∀ side, (state.egress side).sent.length ≤
      (update state.egress role egress side).sent.length := by
    intro side
    by_cases own : side = role
    · rw [own, update_self]
      exact more
    · rw [update_of_ne own]
  refine { counted with
    publishedTail := ?_, publishedHead := ?_
    primarySeen := counted.primarySeen.trans (grown _)
    primaryFed := counted.primaryFed.trans (grown _) }
  · intro side
    dsimp only
    by_cases own : side = role
    · rw [own, update_self, update_self]
    · obtain rfl := Role.eq_other own
      rw [update_of_ne role.localTxTailPtr_other_ne, update_of_ne own]
      exact counted.publishedTail role.other
  · intro side
    dsimp only
    rw [update_of_ne (side.localRxHeadPtr_ne_localTxTailPtr role)]
    exact counted.publishedHead side

/-- A receiver works on its burst, with the tail it has loaded. -/
theorem setIngress {tail : Nat} (taken : (state.ingress role).taken.length ≤ ingress.taken.length)
    (loaded : ingress.localRxTail = BitVec.ofNat 64 tail)
    (available : ingress.taken.length + ingress.phase.burst ≤ tail)
    (primary : role = .primary → tail ≤ (state.egress .primary).sent.length ∧
      tail ≤ (state.egress .secondary).sent.length)
    (secondary : role = .secondary → tail ≤ stored .primary) :
    Counted { state with ingress := update state.ingress role ingress } stored
      (update seen role tail) := by
  refine { counted with
    stored_le := ?_, loadedTail := ?_, available := ?_, primarySeen := ?_, primaryFed := ?_
    secondarySeen := ?_ }
  · intro side
    dsimp only
    by_cases own : side = role
    · rw [own, update_self]
      exact (counted.stored_le role).trans taken
    · rw [update_of_ne own]
      exact counted.stored_le side
  · intro side
    dsimp only
    by_cases own : side = role
    · rw [own, update_self, update_self, loaded]
    · rw [update_of_ne own, update_of_ne own]
      exact counted.loadedTail side
  · intro side
    dsimp only
    by_cases own : side = role
    · rw [own, update_self, update_self]
      exact available
    · rw [update_of_ne own, update_of_ne own]
      exact counted.available side
  · cases role with
    | primary => exact (primary rfl).1
    | secondary => exact counted.primarySeen
  · cases role with
    | primary => exact (primary rfl).2
    | secondary => exact counted.primaryFed
  · cases role with
    | primary => exact counted.secondarySeen
    | secondary => exact secondary rfl

theorem keepTail (taken : (state.ingress role).taken.length ≤ ingress.taken.length)
    (loaded : ingress.localRxTail = (state.ingress role).localRxTail)
    (available : ingress.taken.length + ingress.phase.burst ≤ seen role) :
    Counted { state with ingress := update state.ingress role ingress } stored
      seen := by
  have kept := counted.setIngress role taken (loaded.trans (counted.loadedTail role)) available
    (by
      rintro rfl
      exact ⟨counted.primarySeen, counted.primaryFed⟩)
    (by
      rintro rfl
      exact counted.secondarySeen)
  rw [update_eq_self] at kept
  exact kept

theorem publishHead (ingress : Ingress) (taken : ingress.taken = (state.ingress role).taken)
    (loaded : ingress.localRxTail = (state.ingress role).localRxTail)
    (idle : ingress.phase.burst = 0) :
    Counted { state with
      counter := update state.counter role.localRxHeadPtr
        (BitVec.ofNat 64 ingress.taken.length)
      ingress := update state.ingress role ingress }
      (update stored role ingress.taken.length) seen := by
  have available := counted.available role
  have kept := counted.keepTail role (Nat.le_of_eq (congrArg List.length taken.symm)) loaded (by
    rw [taken]
    omega)
  refine { kept with
    publishedTail := ?_, publishedHead := ?_, stored_le := ?_, secondarySeen := ?_ }
  · intro side
    dsimp only
    rw [update_of_ne (role.localRxHeadPtr_ne_localTxTailPtr side).symm]
    exact counted.publishedTail side
  · intro side
    dsimp only
    by_cases own : side = role
    · rw [own, update_self, update_self]
    · obtain rfl := Role.eq_other own
      rw [update_of_ne role.localRxHeadPtr_other_ne, update_of_ne own]
      exact counted.publishedHead role.other
  · intro side
    dsimp only
    by_cases own : side = role
    · rw [own, update_self, update_self]
    · rw [update_of_ne own, update_of_ne own]
      exact counted.stored_le side
  · cases role with
    | primary =>
      have stored_le := counted.stored_le .primary
      rw [taken]
      exact counted.secondarySeen.trans stored_le
    | secondary => exact counted.secondarySeen

end

end Counted

/-! ## Both directions -/

variable {inst : Instantiation}

/-- The duplex delivers in both directions: what a side has taken in are the first frames
the other side has sent, and a frame handed out is not overwritten before the application
has finished with it. -/
def Delivers (inst : Instantiation) (state : State) : Prop :=
  ∀ role : Role,
    (state.ingress role.other).taken <+: (state.egress role).sent.map RawTcpFrame.view ∧
    ∀ position view, (state.ingress role.other).taken[position]? = some view →
      (state.ingress role.other).finished position = false →
        (state.egress role).position ≤ position + inst.capacity ∧
        readFrame (state.slots role.localTxSlots (position % inst.capacity)) = view

/-- The distance from the head that a sender goes by to its tail.  The head is the one it knows, or
the counter if the ring looks full with that. -/
def distance (inst : Instantiation) (state : State) (role : Role) : Nat :=
  let egress := state.egress role
  (egress.localTxTail -
    if inst.capacity ≤ (egress.localTxTail - egress.localTxHead).toNat then
      state.counter role.remoteTxHead
    else egress.localTxHead).toNat

/-- The condition under which the wrong counters do no harm: frames read the same with
their header fields exchanged, the receiving application has finished with the frames before
the head that the sender goes by, and the primary has not sent more frames than the secondary
whenever it loads its own tail. -/
def Harmless (inst : Instantiation) (state : State) : Role × Move → Prop
  | (role, .beginEgress popped) =>
      (∀ frame ∈ popped, frame.Symmetric) ∧
      ∀ position < (state.egress role).sent.length - distance inst state role,
        (state.ingress role.other).finished position = true
  | (.primary, .beginIngress) =>
      (state.ingress .primary).localRxHead = (state.ingress .primary).localRxTail →
        (state.egress .primary).sent.length ≤ (state.egress .secondary).sent.length
  | _ => True

/-- The invariant of both directions. -/
def Duplex (inst : Instantiation) (state : State) : Prop :=
  (∀ role : Role, Stream inst (state.egress role) (state.ingress role.other)
    (state.slots role.localTxSlots)) ∧
  ∃ stored seen, Counted state stored seen

namespace Duplex

variable {state : State}

theorem initial (inst : Instantiation) : Duplex inst initial := by
  refine ⟨fun _ => Stream.initial inst, fun _ => 0, fun _ => 0, ?_⟩
  constructor
  · exact fun _ => rfl
  · exact fun _ => rfl
  · exact fun _ => Nat.le_refl 0
  · exact fun _ => rfl
  · exact fun _ => Nat.le_refl 0
  · exact Nat.le_refl 0
  · exact Nat.le_refl 0
  · exact Nat.le_refl 0

section

variable (duplex : Duplex inst state)
include duplex

/-- A step of a sender concerns its own direction only. -/
theorem ofEgress {slots : Nat → Memory} {counter : Counter → BitVec 64}
    (stream : Stream inst egress (state.ingress role.other) slots)
    (counted : ∀ stored seen, Counted state stored seen → Counted
      { state with counter := counter, egress := update state.egress role egress }
      stored seen) :
    Duplex inst { state with
      counter := counter
      slots := update state.slots role.localTxSlots slots
      egress := update state.egress role egress } := by
  obtain ⟨streams, stored, seen, counters⟩ := duplex
  refine ⟨?_, stored, seen, { counted stored seen counters with }⟩
  intro side
  by_cases own : side = role
  · subst own
    dsimp only
    rw [update_self, update_self]
    exact stream
  · obtain rfl := Role.eq_other own
    dsimp only
    rw [update_of_ne (Role.other_ne role), update_of_ne role.localTxSlots_other_ne]
    exact streams role.other

/-- A step of a receiver concerns the other direction only. -/
theorem ofIngress {counter : Counter → BitVec 64}
    (stream : Stream inst (state.egress role.other) ingress (state.slots role.other.localTxSlots))
    (counted : ∀ stored seen, Counted state stored seen → ∃ stored' seen', Counted
      { state with counter := counter, ingress := update state.ingress role ingress }
      stored' seen') :
    Duplex inst { state with
      counter := counter, ingress := update state.ingress role ingress } := by
  obtain ⟨streams, stored, seen, counters⟩ := duplex
  refine ⟨?_, counted stored seen counters⟩
  intro side
  by_cases own : side = role
  · subst own
    dsimp only
    rw [update_of_ne (Role.other_ne side)]
    exact streams side
  · obtain rfl := Role.eq_other own
    dsimp only
    rw [Role.other_other, update_self]
    exact stream

theorem beginEgress (popped : List RawTcpFrame)
    (harmless : Harmless inst state (role, .beginEgress popped)) :
    Duplex inst (state.beginEgress inst role popped) := by
  have stream := duplex.1 role
  have keep : ∀ egress : Egress, egress.sent = (state.egress role).sent →
      Stream inst egress (state.ingress role.other) (state.slots role.localTxSlots) →
      Duplex inst (state.setEgress role egress) := by
    intro egress sent stream
    have kept := duplex.ofEgress role stream fun stored seen counted =>
      counted.setEgress role sent
    rw [update_eq_self] at kept
    exact kept
  unfold State.beginEgress
  dsimp only
  split
  next idle =>
    obtain ⟨symmetric, finished⟩ := harmless
    dsimp only [distance] at finished
    generalize (if inst.capacity ≤ ((state.egress role).localTxTail -
      (state.egress role).localTxHead).toNat then state.counter role.remoteTxHead
      else (state.egress role).localTxHead) = localTxHead at finished ⊢
    generalize ((state.egress role).localTxTail - localTxHead).toNat = distance at finished ⊢
    generalize bound : (if inst.capacity - distance < 32 then inst.capacity - distance else 32) =
      desiredBurst
    split_ifs with full burst
    · exact keep _ rfl (stream.setHead _)
    · exact keep _ rfl (stream.setHead _)
    · -- the burst ends before the slot of the head
      have few : desiredBurst ≤ inst.capacity - distance := by
        rw [← bound]
        split <;> omega
      refine keep _ rfl (stream.beginBurst _ idle symmetric fun position reused => ?_)
      exact finished position (by omega)
  next => exact duplex

theorem writeSlot : Duplex inst (state.writeSlot inst role) := by
  unfold State.writeSlot
  dsimp only
  split
  next written frame todo writing =>
    exact duplex.ofEgress role ((duplex.1 role).writeNext writing) fun stored seen counted =>
      counted.setEgress role rfl
  next => exact duplex

theorem publishTail : Duplex inst (state.publishTail role) := by
  unfold State.publishTail
  dsimp only
  split
  next written writing =>
    have stream := (duplex.1 role).publish writing
    have published := duplex.ofEgress role stream fun stored seen counted =>
      counted.publishTail role (by
        rw [List.length_append]
        omega)
    rw [← stream.tail, update_eq_self] at published
    exact published
  next => exact duplex

end

/-- The tail a side goes by is not behind the one it went by before, nor ahead of what
the other side has published. -/
theorem loadTail {stored seen : Role → Nat} (counted : Counted state stored seen) (role : Role)
    (harmless : Harmless inst state (role, .beginIngress)) :
    ∃ tail, (if (state.ingress role).localRxHead = (state.ingress role).localRxTail then
        state.counter role.remoteRxTail else (state.ingress role).localRxTail) =
          BitVec.ofNat 64 tail ∧ seen role ≤ tail ∧
      (role = .primary → tail ≤ (state.egress .primary).sent.length ∧
        tail ≤ (state.egress .secondary).sent.length) ∧
      (role = .secondary → tail ≤ stored .primary) := by
  split_ifs with usedUp
  · cases role with
    | primary =>
      refine ⟨(state.egress .primary).sent.length, counted.publishedTail .primary,
        counted.primarySeen, fun _ => ⟨Nat.le_refl _, harmless usedUp⟩, ?_⟩
      intro secondary
      cases secondary
    | secondary =>
      refine ⟨stored .primary, counted.publishedHead .primary, counted.secondarySeen, ?_,
        fun _ => Nat.le_refl _⟩
      intro primary
      cases primary
  · refine ⟨seen role, counted.loadedTail role, Nat.le_refl _, ?_, ?_⟩
    · rintro rfl
      exact ⟨counted.primarySeen, counted.primaryFed⟩
    · rintro rfl
      exact counted.secondarySeen

section

variable (duplex : Duplex inst state)
include duplex

theorem beginIngress (role : Role) (harmless : Harmless inst state (role, .beginIngress)) :
    Duplex inst (state.beginIngress role) := by
  have stream := duplex.1 role.other
  rw [Role.other_other] at stream
  obtain ⟨stored, seen, counted⟩ := duplex.2
  obtain ⟨tail, loaded, forward, primary, secondary⟩ := loadTail counted role harmless
  have available := counted.available role
  have burst : ∀ phase : IngressPhase, (state.ingress role).taken.length + phase.burst ≤ tail →
      Duplex inst (state.setIngress role { state.ingress role with
        localRxTail := BitVec.ofNat 64 tail, phase := phase }) := by
    intro phase few
    have counters : Counted (state.setIngress role { state.ingress role with
        localRxTail := BitVec.ofNat 64 tail, phase := phase }) stored
        (update seen role tail) :=
      counted.setIngress role (Nat.le_refl _) rfl few primary secondary
    have published := counters.seen_le role
    rw [update_self] at published
    exact duplex.ofIngress role (stream.setTail _ (few.trans published)) fun _ _ _ =>
      ⟨stored, _, counters⟩
  unfold State.beginIngress
  dsimp only
  split
  next idle =>
    rw [loaded]
    have distance : (BitVec.ofNat 64 tail - (state.ingress role).localRxHead).toNat ≤
        tail - (state.ingress role).taken.length := by
      rw [stream.head]
      exact Word.toNat_sub_ofNat_le (by omega)
    split_ifs
    · have kept := burst .idle (Nat.le_trans (Nat.le_add_right _ _) (available.trans forward))
      rw [← idle] at kept
      exact kept
    · exact burst (.pushing _) (by dsimp only [IngressPhase.burst]; omega)
    · exact burst (.pushing 32) (by dsimp only [IngressPhase.burst]; omega)
  next => exact duplex

theorem handOver (role : Role) (accepted : Nat) :
    Duplex inst (state.handOver inst role accepted) := by
  unfold State.handOver
  dsimp only
  split
  next burstCount pushing =>
    have stream := duplex.1 role.other
    rw [Role.other_other] at stream
    have few := Nat.min_le_right accepted burstCount
    rw [role.localRxSlots_eq]
    refine duplex.ofIngress role (stream.handOver pushing few) ?_
    intro stored seen counted
    have available := counted.available role
    rw [pushing] at available
    refine ⟨stored, seen, counted.keepTail role ?_ rfl ?_⟩
    · rw [List.length_append]
      omega
    · rw [List.length_append, List.length_map, List.length_range]
      exact (Nat.add_le_add_left few _).trans available
  next => exact duplex

theorem publishHead (role : Role) : Duplex inst (state.publishHead role) := by
  unfold State.publishHead
  dsimp only
  split
  next storing =>
    have stream := duplex.1 role.other
    rw [Role.other_other] at stream
    have published := duplex.ofIngress role stream.endBurst fun stored seen counted =>
      ⟨_, seen, counted.publishHead role { state.ingress role with phase := .idle } rfl rfl rfl⟩
    rw [← stream.head] at published
    exact published
  next => exact duplex

theorem finish (role : Role) (position : Nat) : Duplex inst (state.finish role position) := by
  unfold State.finish
  dsimp only
  split_ifs with handed
  · have stream := duplex.1 role.other
    rw [Role.other_other] at stream
    refine duplex.ofIngress role (stream.finish handed) ?_
    intro stored seen counted
    exact ⟨stored, seen, counted.keepTail role (Nat.le_refl _) rfl (counted.available role)⟩
  · exact duplex

theorem step (move : Role × Move) (harmless : Harmless inst state move) :
    Duplex inst (state.step inst move) := by
  obtain ⟨role, move⟩ := move
  cases move with
  | beginEgress popped => exact duplex.beginEgress role popped harmless
  | writeSlot => exact duplex.writeSlot role
  | publishTail => exact duplex.publishTail role
  | beginIngress => exact duplex.beginIngress role harmless
  | handOver accepted => exact duplex.handOver role accepted
  | publishHead => exact duplex.publishHead role
  | finish position => exact duplex.finish role position

theorem delivers : Delivers inst state := by
  intro role
  have stream := duplex.1 role
  refine ⟨stream.delivered, ?_⟩
  intro position view handed unfinished
  obtain ⟨rest, continued⟩ := stream.delivered
  have sent : ((state.egress role).sent.map RawTcpFrame.view)[position]? = some view := by
    rw [← continued, List.getElem?_append_left (List.getElem?_eq_some_iff.mp handed).1]
    exact handed
  rw [List.getElem?_map, Option.map_eq_some_iff] at sent
  obtain ⟨frame, sent, rfl⟩ := sent
  exact stream.intact sent unfinished

end

end Duplex

/-- While the wrong counters do no harm, both directions are delivered. -/
theorem delivers_of_harmless (inst : Instantiation) (schedule : List (Role × Move))
    (harmless : Admissible (step inst) (Harmless inst) initial schedule) :
    Delivers inst (execute (step inst) initial schedule) := by
  have preserved : ∀ state move, Duplex inst state → Harmless inst state move →
      Duplex inst (state.step inst move) :=
    fun _ move duplex harmless => duplex.step move harmless
  exact (execute_invariant_of_admissible preserved (Duplex.initial inst) harmless).delivers

instance (inst : Instantiation) (state : State) (move : Role × Move) :
    Decidable (Harmless inst state move) := by
  obtain ⟨role, move⟩ := move
  cases role <;> cases move <;> unfold Harmless <;> infer_instance

/-- A frame of one byte. -/
def byteFrame (connectionId : BitVec 32) (byte : BitVec 8) : RawTcpFrame where
  connectionId := connectionId
  payloadLength := 1
  data := fun _ => byte
  payload_le := by decide

/-- A ring of one slot. -/
def oneSlot : Instantiation where
  exponent := 0
  representable := by decide

/-- One side sends a frame. -/
def sendOne (role : Role) (frame : RawTcpFrame) : List (Role × Move) :=
  [(role, .beginEgress [frame]), (role, .writeSlot), (role, .publishTail)]

/-- One side takes in a frame. -/
def takeOne (role : Role) : List (Role × Move) :=
  [(role, .beginIngress), (role, .handOver 1), (role, .publishHead)]

/-- Both sides send a frame and take one in. -/
def exchange (frame : RawTcpFrame) : List (Role × Move) :=
  sendOne .secondary (byteFrame 1 9) ++ sendOne .primary frame ++ takeOne .primary ++
    takeOne .secondary

/-- Two frames in each direction.  The second goes into the slot of the first, with which both
applications have finished. -/
theorem delivers_of_harmless_exchange :
    let schedule := exchange (byteFrame 1 7) ++ [(.primary, .finish 0), (.secondary, .finish 0)] ++
      exchange (byteFrame 1 8)
    let state := execute (step oneSlot) initial schedule
    Admissible (step oneSlot) (Harmless oneSlot) initial schedule ∧
      (state.ingress .primary).taken = [⟨1, 1, [9]⟩, ⟨1, 1, [9]⟩] ∧
      (state.ingress .secondary).taken = [⟨1, 1, [7]⟩, ⟨1, 1, [8]⟩] ∧ Delivers oneSlot state := by
  intro schedule state
  have harmless : Admissible (step oneSlot) (Harmless oneSlot) initial schedule := by
    decide +kernel
  exact ⟨harmless, by decide +kernel, by decide +kernel,
    delivers_of_harmless oneSlot schedule harmless⟩

/-- The primary takes in a frame nobody has sent, after it has sent one itself; the
secondary reads another connection than the one the frame was sent for; and the primary
overwrites a slot the secondary's application is still reading. -/
theorem not_delivers :
    ¬Delivers oneSlot (execute (step oneSlot) initial
      (sendOne .primary (byteFrame 1 7) ++ takeOne .primary)) ∧
    ¬Delivers oneSlot (execute (step oneSlot) initial (exchange (byteFrame 5 7))) ∧
    ¬Delivers oneSlot (execute (step oneSlot) initial
      (exchange (byteFrame 1 7) ++ sendOne .primary (byteFrame 1 8))) := by
  refine ⟨?_, ?_, ?_⟩
  · intro delivers
    exact absurd (delivers .secondary).1 (by decide +kernel)
  · intro delivers
    exact absurd (delivers .primary).1 (by decide +kernel)
  · intro delivers
    have handed := (delivers .primary).2 0 ⟨1, 1, [7]⟩ (by decide +kernel) (by decide +kernel)
    exact absurd handed.1 (by decide +kernel)

end SlabFlux.Io.ShmDuplex
