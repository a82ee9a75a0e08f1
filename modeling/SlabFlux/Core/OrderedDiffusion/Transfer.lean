import SlabFlux.Core.OrderedDiffusion.Model
import SlabFlux.Lib.Bag

/-!
# Every item is transferred exactly once

The slot states alone protect the slots.  A slot that is reserved or claimed has exactly one
holder, the thread whose exchange succeeded, and only the holder touches its data or moves it
to another state.  Nothing is used of the cursors or of what a vector load has seen, so the
result stands however stale or torn these are.
-/

namespace SlabFlux.Core.OrderedDiffusion

open Lib Function

universe u v

variable {Thread : Type u} {α : Type v} {size : Size} {logical : Word}

/-! ## Slots in range -/

namespace Size

theorem capacity_eq_pow (size : Size) :
    ∃ exponent, 5 ≤ exponent ∧ exponent ≤ 63 ∧ size.capacity = 2 ^ exponent := by
  rw [capacity]
  split
  · exact ⟨5, Nat.le_refl 5, by decide, rfl⟩
  · case isFalse large =>
    refine ⟨Nat.clog 2 size.requested, ?_, Nat.clog_le_of_le_pow size.representable, rfl⟩
    by_contra small
    have bound : size.requested ≤ 2 ^ 4 :=
      (Nat.clog_le_iff_le_pow (by decide)).mp (Nat.le_of_lt_succ (Nat.lt_of_not_le small))
    omega

theorem slotAt_ofNat (size : Size) (position : Nat) :
    size.slotAt (BitVec.ofNat 64 position) = position % size.capacity := by
  obtain ⟨exponent, -, fits, capacity⟩ := size.capacity_eq_pow
  rw [slotAt, mask, capacity]
  exact Word.toNat_ofNat_and_sub_one (by omega) position

theorem capacity_pos (size : Size) : 0 < size.capacity := by
  obtain ⟨exponent, -, -, capacity⟩ := size.capacity_eq_pow
  rw [capacity]
  exact Nat.two_pow_pos exponent

theorem slotAt_eq_mod (size : Size) (logical : Word) :
    size.slotAt logical = logical.toNat % size.capacity := by
  rw [← slotAt_ofNat, BitVec.ofNat_toNat, BitVec.setWidth_eq]

theorem slotAt_lt (size : Size) (logical : Word) : size.slotAt logical < size.capacity := by
  rw [slotAt_eq_mod]
  exact Nat.mod_lt _ size.capacity_pos

end Size

/-! ## Holders -/

/-- What the holder of a slot has done with it. -/
inductive Stage (α : Type v) where
  | writing
  | written (item : α)
  | reading
  | read

namespace Stage

def state : Stage α → SlotState
  | .writing | .written _ => .reserved
  | .reading | .read => .claimed

/-- The item that was made ready in the slot and is still to be copied out. -/
def owed (datum : α) : Stage α → List α
  | .reading => [datum]
  | _ => []

/-- The data a writer has put into the slot. -/
def Wrote (datum : α) : Stage α → Prop
  | .written item => datum = item
  | _ => True

end Stage

variable {target : Nat}

/-- The slot a thread holds. -/
def Pc.held : Pc α → Option (Nat × Stage α)
  | .copy (.tryPush _) _ target => some (target, .writing)
  | .copy .tryPop _ target => some (target, .reading)
  | .release (.tryPush item) _ target => some (target, .written item)
  | .release .tryPop _ target => some (target, .read)
  | _ => none

/-- Holders and slot states agree, and everything pushed was popped or is owed by a slot. -/
structure Protected (size : Size) (s : State Thread α) (owed : Nat → List α) : Prop where
  busy : ∀ thread target stage, (s.pc thread).held = some (target, stage) →
    target < size.capacity ∧ s.slots target = stage.state ∧
      owed target = stage.owed (s.data target) ∧ stage.Wrote (s.data target)
  alone : ∀ thread other target stage stage', (s.pc thread).held = some (target, stage) →
    (s.pc other).held = some (target, stage') → thread = other
  empty : ∀ slot, s.slots slot = .empty → owed slot = []
  ready : ∀ slot, s.slots slot = .ready → owed slot = [s.data slot]
  held : ∀ slot, s.slots slot = .reserved ∨ s.slots slot = .claimed →
    ∃ thread stage, (s.pc thread).held = some (slot, stage)
  balance : (s.pushed : Multiset α) = s.popped + bag size.capacity owed

/-- The slots are protected, whatever they owe. -/
def Sound (size : Size) (s : State Thread α) : Prop := ∃ owed, Protected size s owed

variable [DecidableEq Thread] {s : State Thread α} {owed : Nat → List α} {thread : Thread}

variable {pc : Pc α}

theorem held_update {pcs : Thread → Pc α} {other : Thread} {entry : Nat × Stage α}
    (found : (update pcs thread pc other).held = some entry) :
    other = thread ∧ pc.held = some entry ∨ other ≠ thread ∧ (pcs other).held = some entry := by
  by_cases same : other = thread
  · subst same
    rw [update_self] at found
    exact .inl ⟨rfl, found⟩
  · rw [update_of_ne same] at found
    exact .inr ⟨same, found⟩

/-- A move that holds no slot before or after and leaves slots and data alone. -/
theorem Protected.quiet (invariant : Protected size s owed) {ingress egress : Word}
    (before : (s.pc thread).held = none) (after : pc.held = none) :
    Protected size { s.goto thread pc with ingressCursor := ingress, egressCursor := egress }
      owed where
  busy := by
    intro other target stage found
    obtain ⟨-, now⟩ | ⟨-, unchanged⟩ := held_update found
    · rw [after] at now
      cases now
    · exact invariant.busy other target stage unchanged
  alone := by
    intro one other target stage stage' first second
    obtain ⟨-, now⟩ | ⟨-, unchanged⟩ := held_update first
    · rw [after] at now
      cases now
    · obtain ⟨-, now⟩ | ⟨-, unchanged'⟩ := held_update second
      · rw [after] at now
        cases now
      · exact invariant.alone one other target stage stage' unchanged unchanged'
  empty := invariant.empty
  ready := invariant.ready
  held := by
    intro slot marked
    obtain ⟨holder, stage, found⟩ := invariant.held slot marked
    refine ⟨holder, stage, ?_⟩
    have different : holder ≠ thread := by
      rintro rfl
      rw [before] at found
      cases found
    change (update s.pc thread pc holder).held = _
    rwa [update_of_ne different]
  balance := invariant.balance

/-- What a slot looks like right after its holder's move. -/
inductive Settled (target : Nat) (datum : α) : Pc α → SlotState → List α → Prop where
  | kept {pc : Pc α} (stage : Stage α) (holds : pc.held = some (target, stage))
      (wrote : stage.Wrote datum) : Settled target datum pc stage.state (stage.owed datum)
  | emptied {pc : Pc α} (free : pc.held = none) : Settled target datum pc .empty []
  | filled {pc : Pc α} (free : pc.held = none) : Settled target datum pc .ready [datum]

/-- A move of a thread at a slot that no other thread holds. -/
theorem Protected.replace (invariant : Protected size s owed) (thread : Thread)
    {after : State Thread α} {state : SlotState} {owes : List α}
    (previous : ∀ slot stage, (s.pc thread).held = some (slot, stage) → slot = target)
    (others : ∀ other stage, (s.pc other).held = some (target, stage) → other = thread)
    (pcs : after.pc = update s.pc thread pc)
    (slots : after.slots = update s.slots target state)
    (data : ∀ slot, slot ≠ target → after.data slot = s.data slot) (inside : target < size.capacity)
    (settled : Settled target (after.data target) pc state owes)
    (balance : (after.pushed : Multiset α) =
      after.popped + bag size.capacity (update owed target owes)) :
    Protected size after (update owed target owes) := by
  -- a thread other than the moving one holds another slot
  have elsewhere : ∀ other slot stage, other ≠ thread → (s.pc other).held = some (slot, stage) →
      slot ≠ target := by
    rintro other slot stage different found rfl
    exact different (others other stage found)
  have own : ∀ slot stage, pc.held = some (slot, stage) → slot = target := by
    intro slot stage found
    cases settled with
    | kept stage' holds =>
      rw [holds] at found
      cases found
      rfl
    | emptied free | filled free =>
      rw [free] at found
      cases found
  constructor
  · intro other slot stage found
    rw [pcs] at found
    rw [slots]
    obtain ⟨rfl, now⟩ | ⟨different, unchanged⟩ := held_update found
    · obtain rfl := own slot stage now
      rw [update_self, update_self]
      cases settled with
      | kept stage' holds wrote =>
        rw [holds] at now
        cases now
        exact ⟨inside, rfl, rfl, wrote⟩
      | emptied free | filled free =>
        rw [free] at now
        cases now
    · have apart := elsewhere other slot stage different unchanged
      rw [update_of_ne apart, update_of_ne apart, data slot apart]
      exact invariant.busy other slot stage unchanged
  · intro one other slot stage stage' first second
    rw [pcs] at first second
    obtain ⟨rfl, now⟩ | ⟨different, unchanged⟩ := held_update first
    · obtain ⟨rfl, -⟩ | ⟨different, unchanged⟩ := held_update second
      · rfl
      · exact absurd (own slot stage now) (elsewhere other slot stage' different unchanged)
    · obtain ⟨rfl, now⟩ | ⟨-, unchanged'⟩ := held_update second
      · exact absurd (own slot stage' now) (elsewhere one slot stage different unchanged)
      · exact invariant.alone one other slot stage stage' unchanged unchanged'
  · intro slot isEmpty
    rw [slots] at isEmpty
    by_cases same : slot = target
    · subst same
      rw [update_self] at isEmpty ⊢
      cases settled with
      | kept stage holds wrote => cases stage <;> cases isEmpty
      | emptied free => rfl
      | filled free => cases isEmpty
    · rw [update_of_ne same] at isEmpty ⊢
      exact invariant.empty slot isEmpty
  · intro slot isReady
    rw [slots] at isReady
    by_cases same : slot = target
    · subst same
      rw [update_self] at isReady ⊢
      cases settled with
      | kept stage holds wrote => cases stage <;> cases isReady
      | emptied free => cases isReady
      | filled free => rfl
    · rw [update_of_ne same] at isReady
      rw [update_of_ne same, data slot same]
      exact invariant.ready slot isReady
  · intro slot marked
    rw [slots] at marked
    rw [pcs]
    by_cases same : slot = target
    · subst same
      rw [update_self] at marked
      cases settled with
      | kept stage' holds wrote => exact ⟨thread, _, by rw [update_self, holds]⟩
      | emptied free | filled free => rcases marked with marked | marked <;> cases marked
    · rw [update_of_ne same] at marked
      obtain ⟨holder, stage, found⟩ := invariant.held slot marked
      have different : holder ≠ thread := by
        rintro rfl
        exact same (previous slot stage found)
      exact ⟨holder, stage, by rw [update_of_ne different, found]⟩
  · exact balance

/-! ## Moves -/

omit [DecidableEq Thread] in
/-- No thread holds a slot that an operation may claim. -/
theorem Protected.unheld (invariant : Protected size s owed) {call : Call α} {slot : Nat}
    (wanted : s.slots slot = call.wanted) (other : Thread) (stage : Stage α) :
    (s.pc other).held ≠ some (slot, stage) := by
  intro found
  obtain ⟨-, state, -⟩ := invariant.busy other slot stage found
  rw [wanted] at state
  cases call <;> cases stage <;> cases state

section

variable (invariant : Protected size s owed)
include invariant

theorem Protected.claim {call : Call α} (before : (s.pc thread).held = none)
    (inside : target < size.capacity) (wanted : s.slots target = call.wanted) :
    Protected size
      { s.goto thread (.copy call logical target) with
        slots := update s.slots target call.marked } owed := by
  have settled : Settled target (s.data target) (.copy call logical target) call.marked
      (owed target) := by
    cases call with
    | tryPush item =>
      rw [invariant.empty target wanted]
      exact .kept .writing rfl trivial
    | tryPop =>
      rw [invariant.ready target wanted]
      exact .kept .reading rfl trivial
  have same : update owed target (owed target) = owed := update_eq_self _ _
  rw [← same]
  refine invariant.replace thread ?_ ?_ rfl rfl (fun _ _ => rfl) inside settled ?_
  · intro slot stage found
    rw [before] at found
    cases found
  · intro other stage found
    exact absurd found (invariant.unheld wanted other stage)
  · rw [same]
    exact invariant.balance

theorem Protected.replace_held {after : State Thread α} {stage : Stage α} {state : SlotState}
    {owes : List α} (before : (s.pc thread).held = some (target, stage))
    (pcs : after.pc = update s.pc thread pc)
    (slots : after.slots = update s.slots target state)
    (data : ∀ slot, slot ≠ target → after.data slot = s.data slot)
    (settled : Settled target (after.data target) pc state owes)
    (balance : (after.pushed : Multiset α) =
      after.popped + bag size.capacity (update owed target owes)) :
    Protected size after (update owed target owes) := by
  refine invariant.replace thread ?_ ?_ pcs slots data
    (invariant.busy thread target stage before).1 settled balance
  · intro slot stage' found
    rw [before] at found
    cases found
    rfl
  · intro other stage' found
    exact invariant.alone other thread target stage' stage found before

theorem Protected.copyIn {item : α} (here : s.pc thread = .copy (.tryPush item) logical target) :
    Sound size
      { s.goto thread (.release (.tryPush item) logical target) with
        data := update s.data target item } := by
  have before : (s.pc thread).held = some (target, .writing) := by rw [here]; rfl
  obtain ⟨-, state, owes, -⟩ := invariant.busy thread target .writing before
  refine ⟨owed, ?_⟩
  have same : update owed target [] = owed := update_eq_self_iff.mpr owes.symm
  have kept : update s.slots target .reserved = s.slots :=
    update_eq_self_iff.mpr state.symm
  rw [← same]
  refine invariant.replace_held before rfl kept.symm ?_ ?_ ?_
  · intro slot different
    exact update_of_ne different _ _
  · exact .kept (.written item) rfl (update_self _ _ _)
  · rw [same]
    exact invariant.balance

theorem Protected.copyOut (here : s.pc thread = .copy .tryPop logical target) :
    Sound size
      { s.goto thread (.release .tryPop logical target) with
        popped := s.popped ++ [s.data target] } := by
  have before : (s.pc thread).held = some (target, .reading) := by rw [here]; rfl
  obtain ⟨inside, state, owes, -⟩ := invariant.busy thread target .reading before
  have kept : update s.slots target .claimed = s.slots :=
    update_eq_self_iff.mpr state.symm
  refine ⟨_, invariant.replace_held before rfl kept.symm (fun _ _ => rfl)
    (.kept .read rfl trivial) ?_⟩
  have exchanged := bag_update_add owed inside []
  rw [owes, Multiset.coe_nil, add_zero] at exchanged
  have balance := invariant.balance
  rw [← exchanged] at balance
  change (s.pushed : Multiset α) = (s.popped ++ [s.data target] : List α) + _
  rw [balance, ← Multiset.coe_add]
  ac_rfl

theorem Protected.fill {item : α} {logical newVal : Word}
    (here : s.pc thread = .release (.tryPush item) logical target) :
    Sound size
      { s.goto thread (.advanceLoad (.tryPush item) newVal) with
        slots := update s.slots target .ready
        pushed := s.pushed ++ [item] } := by
  have before : (s.pc thread).held = some (target, .written item) := by rw [here]; rfl
  obtain ⟨inside, -, owes, wrote⟩ := invariant.busy thread target _ before
  refine ⟨_, invariant.replace_held before rfl rfl (fun _ _ => rfl) (.filled rfl) ?_⟩
  have nothing : owed target = [] := owes
  have exchanged := bag_update_add owed inside [s.data target]
  rw [nothing, Multiset.coe_nil, add_zero] at exchanged
  change (s.pushed ++ [item] : Multiset α) =
    s.popped + bag size.capacity (update owed target [s.data target])
  rw [exchanged, ← add_assoc, ← invariant.balance, show s.data target = item from wrote,
    Multiset.coe_add]

theorem Protected.empties {logical newVal : Word}
    (here : s.pc thread = .release .tryPop logical target) :
    Sound size
      { s.goto thread (.advanceLoad .tryPop newVal) with
        slots := update s.slots target .empty } := by
  have before : (s.pc thread).held = some (target, .read) := by rw [here]; rfl
  obtain ⟨-, -, owes, -⟩ := invariant.busy thread target _ before
  have same : update owed target [] = owed := update_eq_self_iff.mpr owes.symm
  refine ⟨_, invariant.replace_held before rfl rfl (fun _ _ => rfl) (.emptied rfl) ?_⟩
  rw [same]
  exact invariant.balance

end

/-- One move keeps the slots protected. -/
theorem Sound.step (sound : Sound size s) (choice : Choice α) :
    Sound size (stepThread size s thread choice) := by
  obtain ⟨owed, invariant⟩ := sound
  unfold stepThread
  cases here : s.pc thread with
  | idle last => exact ⟨owed, invariant.quiet (by rw [here]; rfl) rfl⟩
  | loadCursor call => exact ⟨owed, invariant.quiet (by rw [here]; rfl) rfl⟩
  | loadStates call start offset states =>
    dsimp only
    split
    · exact ⟨owed, invariant.quiet (by rw [here]; rfl) rfl⟩
    · split
      · exact ⟨owed, invariant.quiet (by rw [here]; rfl) rfl⟩
      · exact ⟨owed, invariant⟩
  | claim call start offset mask =>
    cases mask with
    | nil =>
      dsimp only
      split
      · exact ⟨owed, invariant.quiet (by rw [here]; rfl) rfl⟩
      · exact ⟨owed, invariant.quiet (by rw [here]; rfl) rfl⟩
    | cons bit mask =>
      dsimp only
      split
      · case isTrue wanted =>
        exact ⟨owed, invariant.claim (by rw [here]; rfl) (size.slotAt_lt _) wanted⟩
      · exact ⟨owed, invariant.quiet (by rw [here]; rfl) rfl⟩
  | copy call logical target =>
    cases call with
    | tryPush item => exact invariant.copyIn here
    | tryPop => exact invariant.copyOut here
  | release call logical target =>
    cases call with
    | tryPush item => exact invariant.fill here
    | tryPop => exact invariant.empties here
  | advanceLoad call newVal => exact ⟨owed, invariant.quiet (by rw [here]; rfl) rfl⟩
  | advance call newVal current =>
    dsimp only
    split
    · split
      · cases call <;> exact ⟨owed, invariant.quiet (by rw [here]; rfl) rfl⟩
      · exact ⟨owed, invariant.quiet (by rw [here]; rfl) rfl⟩
    · exact ⟨owed, invariant.quiet (by rw [here]; rfl) rfl⟩

omit [DecidableEq Thread] in
theorem protected_initial (size : Size) (data : Nat → α) :
    Protected size (initial data : State Thread α) fun _ => [] where
  busy := fun _ _ _ found => by cases found
  alone := fun _ _ _ _ _ found => by cases found
  empty := fun _ _ => rfl
  ready := fun _ isReady => by cases isReady
  held := fun _ marked => by rcases marked with marked | marked <;> cases marked
  balance := by
    rw [bag_eq_zero fun _ _ => rfl]
    rfl

/-! ## The transfer -/

/-- The contents of the ready slots. -/
def readyItems (size : Size) (s : State Thread α) : List α :=
  ((List.range size.capacity).filter fun slot => s.slots slot = .ready).map s.data

/-- What the conduit guarantees in every state. -/
structure ExactlyOnce (size : Size) (s : State Thread α) : Prop where
  /-- Popped items were pushed, and no push is returned twice. -/
  popped_le : (s.popped : Multiset α) ≤ s.pushed
  /-- A slot about to be written holds no item that is ready or being read. -/
  unread : ∀ thread item logical target, s.pc thread = .copy (.tryPush item) logical target →
    s.slots target ≠ .ready ∧ ∀ other logical', s.pc other ≠ .copy .tryPop logical' target
  /-- Once no operation is running, what was not popped is what the ready slots contain. -/
  remaining : (∀ thread, ∃ last, s.pc thread = .idle last) →
    (s.pushed : Multiset α) = s.popped + readyItems size s

omit [DecidableEq Thread] in
theorem bag_of_idle (invariant : Protected size s owed)
    (idle : ∀ thread, ∃ last, s.pc thread = .idle last) :
    bag size.capacity owed = readyItems size s := by
  have nobody : ∀ slot, ¬ (s.slots slot = .reserved ∨ s.slots slot = .claimed) := by
    intro slot marked
    obtain ⟨thread, stage, found⟩ := invariant.held slot marked
    obtain ⟨last, isIdle⟩ := idle thread
    rw [isIdle] at found
    cases found
  rw [bag_eq_flatMap, readyItems]
  congr 1
  induction List.range size.capacity with
  | nil => rfl
  | cons slot slots ih =>
    rw [List.flatMap_cons, List.filter_cons, ih]
    cases state : s.slots slot with
    | empty => rw [invariant.empty slot state]; rfl
    | ready => rw [invariant.ready slot state]; rfl
    | reserved => exact absurd (.inl state) (nobody slot)
    | claimed => exact absurd (.inr state) (nobody slot)

/-- The conduit transfers every item exactly once. -/
theorem transfers_exactly_once (size : Size) (data : Nat → α)
    (schedule : List (Thread × Choice α)) :
    ExactlyOnce size (execute (step size) (initial data : State Thread α) schedule) := by
  have run : Sound size (execute (step size) (initial data : State Thread α) schedule) :=
    execute_invariant (fun _ move sound => sound.step move.2) ⟨_, protected_initial size data⟩ _
  obtain ⟨owed, invariant⟩ := run
  constructor
  · rw [invariant.balance]
    exact Multiset.le_add_right _ _
  · intro thread item logical target here
    have before : _ = some (target, Stage.writing) := congrArg Pc.held here
    obtain ⟨-, state, -⟩ := invariant.busy thread target .writing before
    refine ⟨fun isReady => ?_, fun other logical' reads => ?_⟩
    · rw [isReady] at state
      cases state
    · have holds : _ = some (target, Stage.reading) := congrArg Pc.held reads
      obtain rfl := invariant.alone thread other target _ _ before holds
      rw [here] at reads
      cases reads
  · intro idle
    rw [← bag_of_idle invariant idle]
    exact invariant.balance

end SlabFlux.Core.OrderedDiffusion
