import SlabFlux.Core.OrderedDiffusion.Fifo

/-!
# Operations one after the other

While an operation runs alone nothing changes behind its back: the bytes it has loaded are
still the states of the slots, so the first candidate is the first wanted slot from the cursor
on and the claim does not overtake.
-/

namespace SlabFlux.Core.OrderedDiffusion

open Lib

universe u v

variable {Thread : Type u} {α : Type v} {size : Size}

/-- No slot of the blocks before `offset` is in the wanted state. -/
def PassedOver (size : Size) (slots : Nat → SlotState) (call : Call α) (start : Word)
    (offset : Nat) : Prop :=
  ∀ passed, passed + start.toNat % 32 < offset →
    slots (size.slotAt (start + BitVec.ofNat 64 passed)) ≠ call.wanted

/-- A vector that shows the slots as they are. -/
def current (size : Size) (slots : Nat → SlotState) (start : Word) (offset : Nat) : Loaded :=
  fun bit => some (slots (physicalTarget size start offset bit))

/-- What a sweep has seen is what the slots still are. -/
def Fresh (size : Size) (slots : Nat → SlotState) : Pc α → Prop
  | .loadStates call start offset states =>
      offset % 32 = 0 ∧ offset < size.capacity ∧ PassedOver size slots call start offset ∧
        ∀ bit < 32, states bit = none ∨ states bit = current size slots start offset bit
  | .claim call start offset mask =>
      offset % 32 = 0 ∧ offset < size.capacity ∧ PassedOver size slots call start offset ∧
        mask = hits call start offset (current size slots start offset)
  | _ => True

section Sweep

variable {slots : Nat → SlotState} {call : Call α} {start : Word} {offset : Nat}

/-- A position of the block at `offset`, as a bit of the vector. -/
theorem block_position {passed : Nat} (block : offset % 32 = 0) (inside : offset < size.capacity)
    (lower : offset ≤ passed + start.toNat % 32) (upper : passed + start.toNat % 32 < offset + 32) :
    bitOffset start offset ≤ passed + start.toNat % 32 - offset ∧
      physicalTarget size start offset (passed + start.toNat % 32 - offset) =
        size.slotAt (start + BitVec.ofNat 64 passed) := by
  have behind : bitOffset start offset ≤ passed + start.toNat % 32 - offset := by
    rw [bitOffset_eq]
    split <;> omega
  have reachable : Reachable size start offset (passed + start.toNat % 32 - offset) :=
    ⟨block, inside, by omega, behind⟩
  refine ⟨behind, ?_⟩
  rw [physicalTarget_eq, reachable.logicalTarget_eq, distance]
  congr 3
  omega

/-- A position of the block is in the wanted state exactly when its bit is set. -/
theorem not_wanted_of_not_hit {passed : Nat} (block : offset % 32 = 0)
    (inside : offset < size.capacity) (lower : offset ≤ passed + start.toNat % 32)
    (upper : passed + start.toNat % 32 < offset + 32)
    (missed : passed + start.toNat % 32 - offset ∉
      hits call start offset (current size slots start offset)) :
    slots (size.slotAt (start + BitVec.ofNat 64 passed)) ≠ call.wanted := by
  obtain ⟨behind, place⟩ := block_position block inside lower upper
  intro wanted
  apply missed
  refine mem_hits.mpr ⟨by omega, behind, ?_⟩
  rw [current, place, wanted]

theorem PassedOver.next (passedOver : PassedOver size slots call start offset)
    (block : offset % 32 = 0) (inside : offset < size.capacity)
    (none : hits call start offset (current size slots start offset) = []) :
    PassedOver size slots call start (offset + 32) := by
  intro passed upper
  by_cases earlier : passed + start.toNat % 32 < offset
  · exact passedOver passed earlier
  · apply not_wanted_of_not_hit block inside (by omega) upper
    rw [none]
    exact List.not_mem_nil

theorem hits_of_complete {states : Loaded} (complete : complete states = true)
    (fresh : ∀ bit < 32, states bit = none ∨ states bit = current size slots start offset bit) :
    hits call start offset states = hits call start offset (current size slots start offset) := by
  apply List.filter_congr
  intro bit member
  have loaded := List.all_eq_true.mp complete bit member
  rcases fresh bit (List.mem_range.mp member) with none | same
  · rw [none] at loaded
    cases loaded
  · rw [same]

/-- A fresh claim does not overtake. -/
theorem Fresh.not_overtakesAt {pc : Pc α} (fresh : Fresh size slots pc) :
    ¬ OvertakesAt size slots pc := by
  intro overtakes
  match pc, fresh, overtakes with
  | .claim call start offset (bit :: mask), ⟨block, inside, passedOver, shape⟩,
      ⟨_, passed, earlier, wanted⟩ =>
    obtain ⟨small, behind, -⟩ := mem_hits.mp (shape ▸ List.mem_cons_self)
    have reachable : Reachable size start offset bit := ⟨block, inside, small, behind⟩
    rw [reachable.toNat_logicalTarget_sub, distance] at earlier
    by_cases before : passed + start.toNat % 32 < offset
    · exact passedOver passed before wanted
    · refine not_wanted_of_not_hit block inside (by omega) (by omega) ?_ wanted
      exact not_mem_of_lt_head shape.symm (by omega)

end Sweep

variable [DecidableEq Thread] {s : State Thread α} {thread : Thread}

theorem pc_goto (pc : Pc α) : (s.goto thread pc).pc thread = pc := Function.update_self _ _ _

/-- A move of the thread itself keeps its sweep fresh. -/
theorem Fresh.step (fresh : Fresh size s.slots (s.pc thread)) (choice : Choice α) :
    Fresh size (stepThread size s thread choice).slots
      ((stepThread size s thread choice).pc thread) := by
  unfold stepThread
  cases point : s.pc thread with
  | idle last =>
    rw [pc_goto]
    trivial
  | loadCursor call =>
    rw [pc_goto]
    refine ⟨rfl, size.capacity_pos, ?_, fun bit _ => .inl rfl⟩
    intro passed impossible
    omega
  | loadStates call start offset states =>
    rw [point] at fresh
    obtain ⟨block, inside, passedOver, seen⟩ := fresh
    dsimp only
    split
    · case isTrue complete =>
      rw [pc_goto]
      exact ⟨block, inside, passedOver, hits_of_complete complete seen⟩
    · split
      · rw [pc_goto]
        refine ⟨block, inside, passedOver, ?_⟩
        intro bit small
        by_cases same : bit = choice.byte
        · rw [same, Function.update_self, physicalBase_add size start offset (same ▸ small)]
          exact .inr rfl
        · rw [Function.update_of_ne same]
          exact seen bit small
      · rw [point]
        exact ⟨block, inside, passedOver, seen⟩
  | claim call start offset mask =>
    rw [point] at fresh
    obtain ⟨block, inside, passedOver, shape⟩ := fresh
    cases mask with
    | nil =>
      dsimp only
      split
      · case isTrue more =>
        rw [pc_goto]
        refine ⟨by omega, more, ?_, fun bit _ => .inl rfl⟩
        exact passedOver.next block inside shape.symm
      · rw [pc_goto]
        trivial
    | cons bit mask =>
      obtain ⟨-, -, seen⟩ := mem_hits.mp (shape ▸ List.mem_cons_self)
      have wanted := Option.some.inj seen
      dsimp only
      rw [if_pos wanted]
      rw [pc_goto]
      trivial
  | copy call logical target =>
    cases call <;>
    · rw [pc_goto]
      trivial
  | release call logical target =>
    cases call <;>
    · rw [pc_goto]
      trivial
  | advanceLoad call newVal =>
    rw [pc_goto]
    trivial
  | advance call newVal current =>
    dsimp only
    split
    · split
      · cases call <;>
        · change Fresh size _ ((s.goto thread _).pc thread)
          rw [pc_goto]
          trivial
      · rw [pc_goto]
        trivial
    · rw [pc_goto]
      trivial

/-- A move leaves the other threads where they are. -/
theorem stepThread_pc_of_ne (choice : Choice α) {other : Thread} (different : other ≠ thread) :
    (stepThread size s thread choice).pc other = s.pc other := by
  have unmoved : ∀ pc : Pc α, Function.update s.pc thread pc other = s.pc other :=
    fun pc => Function.update_of_ne different pc s.pc
  unfold stepThread
  cases s.pc thread with
  | idle | loadCursor | advanceLoad => exact unmoved _
  | loadStates call start offset states =>
    dsimp only
    split
    · exact unmoved _
    · split
      · exact unmoved _
      · rfl
  | claim call start offset mask => cases mask <;> dsimp only <;> split <;> exact unmoved _
  | copy call logical target => cases call <;> exact unmoved _
  | release call logical target => cases call <;> exact unmoved _
  | advance call newVal current =>
    dsimp only
    split
    · split
      · cases call <;> exact unmoved _
      · exact unmoved _
    · exact unmoved _

/-- A move of the only running operation keeps every sweep fresh. -/
theorem fresh_step {move : Thread × Choice α} (fresh : ∀ thread, Fresh size s.slots (s.pc thread))
    (alone : Sequential s move) (other : Thread) :
    Fresh size (step size s move).slots ((step size s move).pc other) := by
  rw [step]
  by_cases own : other = move.1
  · rw [own]
    exact (fresh move.1).step move.2
  · obtain ⟨last, idle⟩ := alone other own
    rw [stepThread_pc_of_ne _ own, idle]
    trivial

/-- In order, and every sweep fresh. -/
def Steady (size : Size) (s : State Role α) : Prop :=
  Orderly size s ∧ ∀ role, Fresh size s.slots (s.pc role)

theorem Steady.step {s : State Role α} {move : Role × Choice α} (steady : Steady size s)
    (legal : Legal s move) (alone : Sequential s move) : Steady size (step size s move) := by
  obtain ⟨orderly, fresh⟩ := steady
  exact ⟨orderly.step legal (fresh move.1).not_overtakesAt, fresh_step fresh alone⟩

/-! ## The order of the items -/

/-- The items come out in order in every run in which no claim overtakes, and in every run of
operations one after the other. -/
theorem popped_in_order (size : Size) (data : Nat → α) :
    (∀ schedule, Admissible (step size) (fun s move => Legal s move ∧ ¬ Overtakes size s move.1)
        (initial data) schedule →
      InOrder (execute (step size) (initial data : State Role α) schedule)) ∧
    (∀ schedule, Admissible (step size) (fun s move => Legal s move ∧ Sequential s move)
        (initial data) schedule →
      InOrder (execute (step size) (initial data : State Role α) schedule)) := by
  constructor
  · intro schedule admissible
    have orderly : Orderly size (execute (step size) (initial data : State Role α) schedule) :=
      execute_invariant_of_admissible
        (fun _ _ orderly guarded => orderly.step guarded.1 guarded.2)
        (orderly_initial size data) admissible
    exact orderly.inOrder
  · intro schedule admissible
    have both : Steady size (execute (step size) (initial data : State Role α) schedule) :=
      execute_invariant_of_admissible (fun _ _ steady guarded => steady.step guarded.1 guarded.2)
        ⟨orderly_initial size data, fun _ => trivial⟩ admissible
    exact both.1.inOrder

/-- The moves of a call that succeeds in its first block, with the cursor at `observed`. -/
def callMoves (next : Call α) (observed : Word) : List (Role × Choice α) :=
  ([0, 0] ++ List.range 32 ++ [0, 0, 0, 0, 0, 0]).map fun byte =>
    (next.role, ⟨next, observed, byte, false⟩)

/-- The smallest conduit. -/
def smallest : Size := ⟨32, by decide⟩

/-- Two pushes and a pop, one after the other. -/
def pushPushPop : List (Role × Choice Nat) :=
  callMoves (.tryPush 10) 0 ++ callMoves (.tryPush 11) 1 ++ callMoves .tryPop 0

theorem popped_in_order_pushPushPop :
    (execute (step smallest) (initial fun _ => 0) pushPushPop).popped = [10] ∧
      InOrder (execute (step smallest) (initial fun _ => 0) pushPushPop) :=
  ⟨by decide +kernel, (popped_in_order smallest fun _ => 0).1 pushPushPop (by decide +kernel)⟩

/-- The same calls, but both pushes happen after the consumer has loaded its first byte. -/
def popOvertakes : List (Role × Choice Nat) :=
  (callMoves .tryPop 0).take 3 ++ callMoves (.tryPush 10) 0 ++ callMoves (.tryPush 11) 1 ++
    (callMoves .tryPop 0).drop 3

/-- The consumer has seen the first slot empty and the second one ready: it pops the item that
was pushed second. -/
theorem popOvertakes_not_inOrder :
    Admissible (step smallest) Legal (initial fun _ => 0) popOvertakes ∧
      (execute (step smallest) (initial fun _ => 0) popOvertakes).pushed = [10, 11] ∧
      (execute (step smallest) (initial fun _ => 0) popOvertakes).popped = [11] ∧
      ¬ InOrder (execute (step smallest) (initial fun _ => 0) popOvertakes) := by
  have pushed : (execute (step smallest) (initial fun _ => 0) popOvertakes).pushed = [10, 11] := by
    decide +kernel
  have popped : (execute (step smallest) (initial fun _ => 0) popOvertakes).popped = [11] := by
    decide +kernel
  refine ⟨by decide +kernel, pushed, popped, ?_⟩
  rw [InOrder, pushed, popped]
  decide

end SlabFlux.Core.OrderedDiffusion
