import SlabFlux.Core.OrderedDiffusion.Sweep

/-!
# Order with one producer and one consumer

The order of the items is carried by the two cursors alone.  It is kept as long as no claim
overtakes: while a sweep goes on, a slot it has already passed over may come into the wanted
state, and then a claim further on is out of order.  Operations that run one after the other
never overtake.
-/

namespace SlabFlux.Core.OrderedDiffusion

open Lib Function State

universe u v

variable {Thread : Type u} {α : Type v} {size : Size}
variable {start : Word} {offset bit : Nat}

/-- The two threads. -/
inductive Role where
  | producer | consumer
  deriving DecidableEq, Repr

/-- The thread that makes a call. -/
def Call.role : Call α → Role
  | .tryPush _ => .producer
  | .tryPop => .consumer

/-- The cursor of a thread. -/
def State.cursorOf (s : State Role α) : Role → Word
  | .producer => s.ingressCursor
  | .consumer => s.egressCursor

/-- The producer only pushes and the consumer only pops.  Each is then the only thread that
ever writes its cursor, so a load observes the value the thread wrote last. -/
abbrev Legal (s : State Role α) (move : Role × Choice α) : Prop :=
  move.2.next.role = move.1 ∧ move.2.observed = s.cursorOf move.1

/-- The next exchange of the thread succeeds although a slot that its sweep has passed over
is in the wanted state. -/
def OvertakesAt (size : Size) (slots : Nat → SlotState) : Pc α → Prop
  | .claim call start offset (bit :: _) =>
      slots (physicalTarget size start offset bit) = call.wanted ∧
        ∃ passed < (logicalTarget start offset bit - start).toNat,
          slots (size.slotAt (start + BitVec.ofNat 64 passed)) = call.wanted
  | _ => False

instance (size : Size) (slots : Nat → SlotState) (pc : Pc α) :
    Decidable (OvertakesAt size slots pc) := by
  unfold OvertakesAt
  split <;> infer_instance

abbrev Overtakes (size : Size) (s : State Thread α) (thread : Thread) : Prop :=
  OvertakesAt size s.slots (s.pc thread)

/-- Only one operation is running. -/
def Sequential (s : State Thread α) (move : Thread × Choice α) : Prop :=
  ∀ other, other ≠ move.1 → ∃ last, s.pc other = .idle last

/-- Items are popped in the order they were pushed. -/
def InOrder (s : State Thread α) : Prop := s.popped <+: s.pushed

/-! ## Where the threads stand -/

/-- The slots a thread holds. -/
def Pc.holding : Pc α → Nat
  | .copy _ _ _ | .release _ _ _ => 1
  | _ => 0

/-- The items a thread has copied and not yet released. -/
def Pc.copied : Pc α → Nat
  | .release _ _ _ => 1
  | _ => 0

/-- The call a thread is executing. -/
def Pc.call : Pc α → Option (Call α)
  | .idle _ => none
  | .loadCursor call | .loadStates call _ _ _ | .claim call _ _ _ | .copy call _ _
  | .release call _ _ | .advanceLoad call _ | .advance call _ _ => some call

variable {mask : List Nat}

/-- What the locals of a thread that has released `done` slots mean. -/
def At (size : Size) (cursor : Word) (done : Nat) : Pc α → Prop
  | .idle _ => cursor = BitVec.ofNat 64 done
  | .loadCursor _ => cursor = BitVec.ofNat 64 done
  | .loadStates _ start offset _ =>
      cursor = BitVec.ofNat 64 done ∧ start = cursor ∧ offset % 32 = 0 ∧ offset < size.capacity
  | .claim _ start offset mask =>
      cursor = BitVec.ofNat 64 done ∧ start = cursor ∧ offset % 32 = 0 ∧ offset < size.capacity ∧
        ∀ bit ∈ mask, bit < 32 ∧ bitOffset start offset ≤ bit
  | .copy _ logical target =>
      cursor = BitVec.ofNat 64 done ∧ logical = cursor ∧ target = done % size.capacity
  | .release _ logical target =>
      cursor = BitVec.ofNat 64 done ∧ logical = cursor ∧ target = done % size.capacity
  | .advanceLoad _ newVal => newVal = BitVec.ofNat 64 done ∧ newVal = cursor + 1
  | .advance _ newVal current =>
      newVal = BitVec.ofNat 64 done ∧ newVal = cursor + 1 ∧ current = cursor

/-- Both threads and the ring agree on how many slots have been released by each. -/
structure Ordered (size : Size) (s : State Role α) (produced released : Nat) : Prop where
  calls : ∀ role call, (s.pc role).call = some call → call.role = role
  producerAt : At size s.ingressCursor produced (s.pc .producer)
  consumerAt : At size s.egressCursor released (s.pc .consumer)
  arranged : Arranged size s released (released + (s.pc .consumer).copied)
    (released + (s.pc .consumer).holding) produced (produced + (s.pc .producer).holding)
  written : ∀ item logical target, s.pc .producer = .release (.tryPush item) logical target →
    s.data target = item

/-! ## Moves that hold nothing -/

/-- A move that changes only what the moving thread knows and its cursor. -/
structure Quiet (size : Size) (s after : State Role α) (role : Role) (done : Nat) : Prop where
  here : At size (after.cursorOf role) done (after.pc role)
  calls : ∀ call, (after.pc role).call = some call → call.role = role
  holding : (after.pc role).holding = 0
  copied : (after.pc role).copied = 0
  slots : after.slots = s.slots
  data : after.data = s.data
  pushed : after.pushed = s.pushed
  popped : after.popped = s.popped
  others : ∀ other, other ≠ role →
    after.pc other = s.pc other ∧ after.cursorOf other = s.cursorOf other

variable {s : State Role α} {role : Role} {done : Nat}

theorem cursorOf_goto (pc : Pc α) (other : Role) :
    (s.goto role pc).cursorOf other = s.cursorOf other := by
  cases other <;> rfl

/-- A thread that only changes its program point. -/
theorem quiet_goto {pc : Pc α} (here : At size (s.cursorOf role) done pc)
    (calls : ∀ call, pc.call = some call → call.role = role) (holding : pc.holding = 0)
    (copied : pc.copied = 0) : Quiet size s (s.goto role pc) role done where
  here := by
    rw [cursorOf_goto]
    simpa [goto] using here
  calls := by simpa [goto] using calls
  holding := by simpa [goto] using holding
  copied := by simpa [goto] using copied
  slots := rfl
  data := rfl
  pushed := rfl
  popped := rfl
  others := fun other different => ⟨update_of_ne different _ _, cursorOf_goto pc other⟩

theorem quiet_advance {call : Call α} {newVal : Word} (own : call.role = role)
    (here : newVal = BitVec.ofNat 64 done) (last : Option Bool) :
    Quiet size s ((s.goto role (.idle last)).setCursor newVal call) role done where
  here := by
    subst own
    cases call <;> simpa [setCursor, goto, cursorOf, Call.role, At] using here
  calls := by
    intro other found
    cases call <;> simp [setCursor, goto, Pc.call] at found
  holding := by cases call <;> simp [setCursor, goto, Pc.holding]
  copied := by cases call <;> simp [setCursor, goto, Pc.copied]
  slots := by cases call <;> rfl
  data := by cases call <;> rfl
  pushed := by cases call <;> rfl
  popped := by cases call <;> rfl
  others := by
    subst own
    intro other different
    have unmoved : update s.pc call.role (.idle last) other = s.pc other :=
      update_of_ne different _ _
    cases call <;> cases other <;> first | exact absurd rfl different | exact ⟨unmoved, rfl⟩

/-- A move of a thread that holds nothing, other than a successful claim. -/
theorem quiet_step {choice : Choice α} (here : At size (s.cursorOf role) done (s.pc role))
    (calls : ∀ call, (s.pc role).call = some call → call.role = role)
    (legal : Legal s (role, choice)) (holdsNothing : (s.pc role).holding = 0)
    (unclaimed : ∀ call start offset bit mask, s.pc role = .claim call start offset (bit :: mask) →
      s.slots (physicalTarget size start offset bit) ≠ call.wanted) :
    Quiet size s (stepThread size s role choice) role done := by
  obtain ⟨next, observed⟩ := legal
  unfold stepThread
  cases point : s.pc role with
  | idle last =>
    rw [point] at here
    refine quiet_goto here ?_ rfl rfl
    rintro call ⟨⟩
    exact next
  | loadCursor call =>
    rw [point] at here calls
    refine quiet_goto ⟨here, observed, rfl, size.capacity_pos⟩ ?_ rfl rfl
    rintro _ ⟨⟩
    exact calls call rfl
  | loadStates call start offset states =>
    rw [point] at here calls
    obtain ⟨cursor, began, block, inside⟩ := here
    dsimp only
    split
    · refine quiet_goto ⟨cursor, began, block, inside, ?_⟩ calls rfl rfl
      intro bit member
      obtain ⟨small, behind, -⟩ := mem_hits.mp member
      exact ⟨small, behind⟩
    · split
      · exact quiet_goto ⟨cursor, began, block, inside⟩ calls rfl rfl
      · have still : s.goto role (.loadStates call start offset states) = s := by
          rw [goto, ← point, update_eq_self]
        have quiet : Quiet size s (s.goto role (.loadStates call start offset states)) role done :=
          quiet_goto ⟨cursor, began, block, inside⟩ calls rfl rfl
        rwa [still] at quiet
  | claim call start offset mask =>
    rw [point] at here calls
    obtain ⟨cursor, began, block, inside, candidates⟩ := here
    cases mask with
    | nil =>
      dsimp only
      split
      · case isTrue more =>
        exact quiet_goto ⟨cursor, began, by omega, more⟩ calls rfl rfl
      · exact quiet_goto cursor (by rintro _ ⟨⟩) rfl rfl
    | cons bit mask =>
      dsimp only
      rw [if_neg (unclaimed call start offset bit mask point)]
      exact quiet_goto ⟨cursor, began, block, inside, fun other member =>
        candidates other (List.mem_cons_of_mem _ member)⟩ calls rfl rfl
  | copy call logical target =>
    rw [point] at holdsNothing
    cases holdsNothing
  | release call logical target =>
    rw [point] at holdsNothing
    cases holdsNothing
  | advanceLoad call newVal =>
    rw [point] at here calls
    exact quiet_goto ⟨here.1, here.2, observed⟩ calls rfl rfl
  | advance call newVal current =>
    rw [point] at here calls
    obtain ⟨value, follows, current'⟩ := here
    have positive : 0 < (newVal - current).toInt := by
      rw [follows, current', BitVec.add_comm, BitVec.add_sub_cancel]
      decide
    dsimp only
    rw [if_pos positive]
    split
    · exact quiet_advance (calls call rfl) value _
    · exact quiet_goto ⟨value, follows, observed⟩ calls rfl rfl

/-- How many slots a thread has released. -/
def doneBy (produced released : Nat) : Role → Nat
  | .producer => produced
  | .consumer => released

theorem Ordered.at_ {produced released : Nat} (ordered : Ordered size s produced released)
    (role : Role) : At size (s.cursorOf role) (doneBy produced released role) (s.pc role) := by
  cases role with
  | producer => exact ordered.producerAt
  | consumer => exact ordered.consumerAt

theorem copied_of_holding {pc : Pc α} (nothing : pc.holding = 0) : pc.copied = 0 := by
  cases pc <;> first | rfl | cases nothing

theorem Ordered.quiet {after : State Role α} {produced released : Nat}
    (ordered : Ordered size s produced released) (nothing : (s.pc role).holding = 0)
    (quiet : Quiet size s after role (doneBy produced released role)) :
    Ordered size after produced released := by
  have calls : ∀ other call, (after.pc other).call = some call → call.role = other := by
    intro other call found
    by_cases same : other = role
    · subst same
      exact quiet.calls call found
    · rw [(quiet.others other same).1] at found
      exact ordered.calls other call found
  have arranged := ordered.arranged
  cases role with
  | producer =>
    obtain ⟨point, cursor⟩ := quiet.others .consumer (by decide)
    rw [nothing] at arranged
    refine ⟨calls, quiet.here, ?_, ?_, ?_⟩
    · rw [point, show after.egressCursor = s.egressCursor from cursor]
      exact ordered.consumerAt
    · rw [point, quiet.holding]
      exact arranged.congr quiet.slots quiet.data quiet.pushed quiet.popped
    · intro item logical target release
      have none := quiet.holding
      rw [release] at none
      cases none
  | consumer =>
    obtain ⟨point, cursor⟩ := quiet.others .producer (by decide)
    rw [nothing, copied_of_holding nothing] at arranged
    refine ⟨calls, ?_, quiet.here, ?_, ?_⟩
    · rw [point, show after.ingressCursor = s.ingressCursor from cursor]
      exact ordered.producerAt
    · rw [point, quiet.holding, quiet.copied]
      exact arranged.congr quiet.slots quiet.data quiet.pushed quiet.popped
    · rw [point, quiet.data]
      exact ordered.written

/-! ## Claims -/

/-- A claim that does not overtake is at the cursor if only the first wanted slot is one. -/
theorem claim_at_cursor {call : Call α} {slots : Nat → SlotState} {cursor : Word}
    (here : At size cursor done (.claim call start offset (bit :: mask)))
    (steady : ¬ OvertakesAt size slots (.claim call start offset (bit :: mask)))
    (wanted : slots (physicalTarget size start offset bit) = call.wanted)
    (first : ∀ ahead < size.capacity, slots ((done + ahead) % size.capacity) = call.wanted →
      (∀ before < ahead, slots ((done + before) % size.capacity) ≠ call.wanted) → ahead = 0) :
    physicalTarget size start offset bit = done % size.capacity ∧
      logicalTarget start offset bit = cursor := by
  obtain ⟨value, began, block, inside, candidates⟩ := here
  obtain ⟨small, behind⟩ := candidates bit List.mem_cons_self
  have reachable : Reachable size start offset bit := ⟨block, inside, small, behind⟩
  have place : ∀ count, size.slotAt (start + BitVec.ofNat 64 count) =
      (done + count) % size.capacity := by
    intro count
    rw [began, value, ← BitVec.ofNat_add, Size.slotAt_ofNat]
  rw [physicalTarget_eq, reachable.logicalTarget_eq] at wanted ⊢
  rw [place] at wanted ⊢
  have none : distance start offset bit = 0 := by
    apply first _ reachable.distance_lt wanted
    intro before earlier same
    apply steady
    refine ⟨?_, before, ?_, ?_⟩
    · rw [physicalTarget_eq, reachable.logicalTarget_eq, place]
      exact wanted
    · rwa [reachable.toNat_logicalTarget_sub]
    · rwa [place]
  rw [none]
  exact ⟨rfl, by rw [← began]; exact BitVec.add_zero start⟩

variable {produced released : Nat}

section

variable (ordered : Ordered size s produced released)
include ordered

/-- The move of a role changes its own program point only. -/
theorem calls_goto {pc : Pc α} (same : pc.call = (s.pc role).call) :
    ∀ other call, (update s.pc role pc other).call = some call → call.role = other := by
  intro other call found
  by_cases own : other = role
  · subst own
    rw [update_self, same] at found
    exact ordered.calls other call found
  · rw [update_of_ne own] at found
    exact ordered.calls other call found

theorem tryPush_of_producer {call : Call α} (found : (s.pc .producer).call = some call) :
    ∃ item, call = .tryPush item := by
  have own := ordered.calls .producer call found
  cases call with
  | tryPush item => exact ⟨item, rfl⟩
  | tryPop => cases own

theorem tryPop_of_consumer {call : Call α} (found : (s.pc .consumer).call = some call) :
    call = .tryPop := by
  have own := ordered.calls .consumer call found
  cases call with
  | tryPush item => cases own
  | tryPop => rfl

/-- The producer's claim is for the next position. -/
theorem Ordered.reserve {call : Call α} (choice : Choice α)
    (point : s.pc .producer = .claim call start offset (bit :: mask))
    (steady : ¬ Overtakes size s .producer)
    (wanted : s.slots (physicalTarget size start offset bit) = call.wanted) :
    Ordered size (stepThread size s .producer choice) produced released := by
  obtain ⟨item, rfl⟩ := tryPush_of_producer ordered (by rw [point]; rfl)
  have here := ordered.producerAt
  have arranged := ordered.arranged
  rw [Overtakes, point] at steady
  rw [point] at here arranged
  obtain ⟨target, logical⟩ := claim_at_cursor here steady wanted
    fun ahead near isEmpty passed => arranged.ahead_eq_zero_of_empty near isEmpty passed
  have cursor := here.1
  rw [stepThread, point]
  dsimp only
  rw [if_pos wanted, target, logical]
  rw [target] at wanted
  refine ⟨calls_goto ordered (by rw [point]; rfl), ?_, ordered.consumerAt, ?_, ?_⟩
  · exact ⟨cursor, rfl, rfl⟩
  · exact arranged.reserve (arranged.lt_of_empty wanted) rfl rfl rfl rfl
  · rintro other logical' target' ⟨⟩

/-- The consumer's claim is for the oldest position. -/
theorem Ordered.claim {call : Call α} (choice : Choice α)
    (point : s.pc .consumer = .claim call start offset (bit :: mask))
    (steady : ¬ Overtakes size s .consumer)
    (wanted : s.slots (physicalTarget size start offset bit) = call.wanted) :
    Ordered size (stepThread size s .consumer choice) produced released := by
  obtain rfl := tryPop_of_consumer ordered (by rw [point]; rfl)
  have here := ordered.consumerAt
  have arranged := ordered.arranged
  rw [Overtakes, point] at steady
  rw [point] at here arranged
  obtain ⟨target, logical⟩ := claim_at_cursor here steady wanted
    fun ahead near isReady passed => arranged.ahead_eq_zero_of_ready near isReady passed
  have cursor := here.1
  rw [stepThread, point]
  dsimp only
  rw [if_pos wanted, target, logical]
  rw [target] at wanted
  refine ⟨calls_goto ordered (by rw [point]; rfl), ordered.producerAt, ?_, ?_, ordered.written⟩
  · exact ⟨cursor, rfl, rfl⟩
  · exact arranged.claim (arranged.lt_of_ready wanted) rfl rfl rfl rfl

theorem Ordered.produce (choice : Choice α) (holds : (s.pc .producer).holding = 1) :
    ∃ produced', Ordered size (stepThread size s .producer choice) produced' released := by
  have here := ordered.producerAt
  have arranged := ordered.arranged
  rw [holds] at arranged
  unfold stepThread
  cases point : s.pc .producer with
  | copy call logical target =>
    obtain ⟨item, rfl⟩ := tryPush_of_producer ordered (by rw [point]; rfl)
    rw [point] at here
    obtain ⟨cursor, began, rfl⟩ := here
    refine ⟨produced, calls_goto ordered (by rw [point]; rfl), ?_, ordered.consumerAt, ?_, ?_⟩
    · exact ⟨cursor, began, rfl⟩
    · exact arranged.write rfl rfl rfl rfl
    · rintro other logical' target' ⟨⟩
      exact update_self _ _ _
  | release call logical target =>
    obtain ⟨item, rfl⟩ := tryPush_of_producer ordered (by rw [point]; rfl)
    have written := ordered.written item logical target point
    rw [point] at here
    obtain ⟨cursor, began, rfl⟩ := here
    refine ⟨produced + 1, calls_goto ordered (by rw [point]; rfl), ?_, ordered.consumerAt, ?_, ?_⟩
    · refine ⟨?_, by rw [began]; rfl⟩
      rw [began, cursor, BitVec.ofNat_add]
      rfl
    · exact arranged.publish written rfl rfl rfl rfl
    · rintro other logical' target' ⟨⟩
  | idle | loadCursor | loadStates | claim | advanceLoad | advance =>
    rw [point] at holds
    cases holds

theorem Ordered.consume (choice : Choice α) (holds : (s.pc .consumer).holding = 1) :
    ∃ released', Ordered size (stepThread size s .consumer choice) produced released' := by
  have here := ordered.consumerAt
  have arranged := ordered.arranged
  unfold stepThread
  cases point : s.pc .consumer with
  | copy call logical target =>
    obtain rfl := tryPop_of_consumer ordered (by rw [point]; rfl)
    rw [point] at here arranged
    obtain ⟨cursor, began, rfl⟩ := here
    refine ⟨released, calls_goto ordered (by rw [point]; rfl), ordered.producerAt, ?_, ?_,
      ordered.written⟩
    · exact ⟨cursor, began, rfl⟩
    · exact arranged.read rfl rfl rfl rfl
  | release call logical target =>
    obtain rfl := tryPop_of_consumer ordered (by rw [point]; rfl)
    rw [point] at here arranged
    obtain ⟨cursor, began, rfl⟩ := here
    refine ⟨released + 1, calls_goto ordered (by rw [point]; rfl), ordered.producerAt, ?_, ?_,
      ordered.written⟩
    · refine ⟨?_, by rw [began]; rfl⟩
      rw [began, cursor, BitVec.ofNat_add]
      rfl
    · exact arranged.release rfl rfl rfl rfl
  | idle | loadCursor | loadStates | claim | advanceLoad | advance =>
    rw [point] at holds
    cases holds

end

/-- The threads and the ring agree, whatever the counts. -/
def Orderly (size : Size) (s : State Role α) : Prop :=
  ∃ produced released, Ordered size s produced released

/-- One move that does not overtake keeps the order. -/
theorem Orderly.step (orderly : Orderly size s) {choice : Choice α}
    (legal : Legal s (role, choice)) (steady : ¬ Overtakes size s role) :
    Orderly size (stepThread size s role choice) := by
  obtain ⟨produced, released, ordered⟩ := orderly
  by_cases holds : (s.pc role).holding = 1
  · cases role with
    | producer =>
      obtain ⟨produced', after⟩ := ordered.produce choice holds
      exact ⟨produced', released, after⟩
    | consumer =>
      obtain ⟨released', after⟩ := ordered.consume choice holds
      exact ⟨produced, released', after⟩
  have nothing : (s.pc role).holding = 0 := by
    cases point : s.pc role <;> first | rfl | (rw [point] at holds; exact absurd rfl holds)
  by_cases claims : ∃ call start offset bit mask,
      s.pc role = .claim call start offset (bit :: mask) ∧
        s.slots (physicalTarget size start offset bit) = call.wanted
  · obtain ⟨call, start, offset, bit, mask, point, wanted⟩ := claims
    cases role with
    | producer => exact ⟨produced, released, ordered.reserve choice point steady wanted⟩
    | consumer => exact ⟨produced, released, ordered.claim choice point steady wanted⟩
  · refine ⟨produced, released, ordered.quiet nothing
      (quiet_step (ordered.at_ role) (ordered.calls role) legal nothing ?_)⟩
    intro call start offset bit mask point wanted
    exact claims ⟨call, start, offset, bit, mask, point, wanted⟩

theorem orderly_initial (size : Size) (data : Nat → α) : Orderly size (initial data) := by
  refine ⟨0, 0, ?_, rfl, rfl, ?_, ?_⟩
  · rintro role call ⟨⟩
  · refine ⟨Nat.le_refl _, Nat.le_refl _, Nat.le_refl _, Nat.le_refl _, Nat.zero_le _, ?_, rfl, rfl,
      Ring.Holds.nil _ _ _⟩
    intro position _ _
    rfl
  · rintro item logical target ⟨⟩

theorem Orderly.inOrder (orderly : Orderly size s) : InOrder s := by
  obtain ⟨produced, released, ordered⟩ := orderly
  rw [InOrder, ordered.arranged.popped]
  exact List.take_prefix _ _

end SlabFlux.Core.OrderedDiffusion
