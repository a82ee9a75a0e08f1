import Mathlib.Algebra.Order.BigOperators.Group.Finset
import SlabFlux.Core.ShardedConduit.Lanes
import SlabFlux.Lib.Bag

/-!
# The capacity law of the sharded conduits

With at least two slots in each lane a conduit holds exactly its advertised capacity, from
whatever cores it is filled and drained, and a drained conduit is as good as a fresh one.

With one slot in each lane the ticket a push leaves behind is the one the next push waits
for.  The conduit never reports full: a push overwrites the item that was not yet popped.
With no slot in a lane the constructor throws.
-/

namespace SlabFlux.Core.ShardedConduit

open Lib Function
open Core.MpmcConduit (Ticket Lane)

universe u

variable {α : Type u} {p : Parameters}

/-! ## Probing -/

theorem mem_probeOrder {core : Ticket} {lane : Nat} :
    lane ∈ probeOrder p core ↔ lane < p.numLanes := by
  rw [probeOrder, List.mem_map]
  constructor
  · rintro ⟨offset, -, rfl⟩
    rw [Parameters.laneAt_eq_mod]
    exact Nat.mod_lt _ p.numLanes_pos
  · intro inside
    -- the offset that takes the core's own lane to the wanted one
    refine ⟨(lane + (p.numLanes - core.toNat % p.numLanes)) % p.numLanes,
      List.mem_range.mpr (Nat.mod_lt _ p.numLanes_pos), ?_⟩
    have own := Nat.mod_lt core.toNat p.numLanes_pos
    rw [Parameters.laneAt_eq_mod, ← Nat.mod_add_mod, Nat.add_mod_mod,
      show core.toNat % p.numLanes + (lane + (p.numLanes - core.toNat % p.numLanes)) =
        lane + p.numLanes by omega, Nat.add_mod_right, Nat.mod_eq_of_lt inside]

/-- A call that spins nowhere claims a lane, or all lanes refuse. -/
theorem probe_cases {probeLane : Lane α → Attempt} {conduit : Conduit α} {lanes : List Nat}
    (settles : ∀ lane ∈ lanes, probeLane (conduit lane) ≠ .spins) :
    (∃ lane ∈ lanes, probeLane (conduit lane) = .claimed ∧
        probe probeLane conduit lanes = some (some lane)) ∨
      (∀ lane ∈ lanes, probeLane (conduit lane) = .refused) ∧
        probe probeLane conduit lanes = some none := by
  induction lanes with
  | nil => exact .inr ⟨by simp, rfl⟩
  | cons lane lanes ih =>
    rw [probe]
    cases outcome : probeLane (conduit lane) with
    | claimed => exact .inl ⟨lane, List.mem_cons_self, outcome, rfl⟩
    | spins => exact absurd outcome (settles lane List.mem_cons_self)
    | refused =>
      rcases ih fun other member => settles other (List.mem_cons_of_mem _ member) with
        ⟨other, member, claimed, found⟩ | ⟨refused, none⟩
      · exact .inl ⟨other, List.mem_cons_of_mem _ member, claimed, found⟩
      · exact .inr ⟨List.forall_mem_cons.mpr ⟨outcome, refused⟩, none⟩

/-! ## What a conduit stores -/

/-- Each lane holds its contents, and together they are the bag. -/
def Stores (p : Parameters) (conduit : Conduit α) (bag : Multiset α) : Prop :=
  ∃ contents : Nat → List α,
    (∀ lane < p.numLanes, ∃ first, LaneHolds p (conduit lane) first (contents lane)) ∧
      bag = Lib.bag p.numLanes contents

/-- The advertised capacity is one lane's for each lane. -/
theorem totalSize_eq_sum (nonempty : p.laneCapacity ≠ 0) :
    p.totalSize = ∑ _lane ∈ Finset.range p.numLanes, p.laneCapacity := by
  rw [Finset.sum_const_nat fun _ _ => rfl, Finset.card_range]
  exact Parameters.totalSize_eq_mul nonempty

theorem holds_update {conduit : Conduit α} {contents : Nat → List α} {lane : Nat}
    (lanes : ∀ lane < p.numLanes, ∃ first, LaneHolds p (conduit lane) first (contents lane))
    {next : Lane α} {first : Nat} {items : List α} (holds : LaneHolds p next first items) :
    ∀ other < p.numLanes, ∃ first, LaneHolds p (update conduit lane next other) first
        (update contents lane items other) := by
  intro other inside
  by_cases same : other = lane
  · subst same
    rw [update_self, update_self]
    exact ⟨first, holds⟩
  · rw [update_of_ne same, update_of_ne same]
    exact lanes other inside

section Wide

variable {conduit : Conduit α} {bag : Multiset α} (wide : 2 ≤ p.laneCapacity)
include wide

theorem LaneHolds.pushAttempt_cases {lane : Lane α} {first : Nat} {items : List α}
    (holds : LaneHolds p lane first items) :
    items.length < p.laneCapacity ∧ pushAttempt p lane = .claimed ∨
      items.length = p.laneCapacity ∧ pushAttempt p lane = .refused := by
  rcases Nat.lt_or_eq_of_le holds.bounded with room | full
  · exact .inl ⟨room, holds.pushAttempt_of_lt room⟩
  · exact .inr ⟨full, holds.pushAttempt_of_full wide full⟩

/-- A push either finds room in a lane, or every lane is full. -/
theorem Stores.tryPush_cases (stores : Stores p conduit bag) (core : Ticket) (item : α) :
    (bag.card < p.totalSize ∧ ∃ after,
        tryPush p core item conduit = some (true, after) ∧ Stores p after (item ::ₘ bag)) ∨
      bag.card = p.totalSize ∧ tryPush p core item conduit = some (false, conduit) := by
  obtain ⟨contents, lanes, rfl⟩ := stores
  have total := totalSize_eq_sum (p := p) (by omega)
  have settles : ∀ lane ∈ probeOrder p core, pushAttempt p (conduit lane) ≠ .spins := by
    intro lane member
    obtain ⟨first, holds⟩ := lanes lane (mem_probeOrder.mp member)
    rcases holds.pushAttempt_cases wide with ⟨-, outcome⟩ | ⟨-, outcome⟩ <;> simp [outcome]
  rw [tryPush]
  rcases probe_cases settles with ⟨lane, member, claimed, found⟩ | ⟨refused, none⟩
  · have inside := mem_probeOrder.mp member
    obtain ⟨first, holds⟩ := lanes lane inside
    have room : (contents lane).length < p.laneCapacity := by
      rcases holds.pushAttempt_cases wide with ⟨room, -⟩ | ⟨-, outcome⟩
      · exact room
      · rw [claimed] at outcome
        exact Attempt.noConfusion outcome
    refine .inl ⟨?_, _, by rw [found], _, holds_update lanes (holds.push room item), ?_⟩
    · rw [card_bag, total]
      apply Finset.sum_lt_sum
      · intro other within
        obtain ⟨_, held⟩ := lanes other (Finset.mem_range.mp within)
        exact held.bounded
      · exact ⟨lane, Finset.mem_range.mpr inside, room⟩
    · have exchanged := bag_update_add contents inside (contents lane ++ [item])
      rw [← Multiset.coe_add, Multiset.coe_singleton, ← add_assoc, add_right_comm] at exchanged
      rw [add_right_cancel exchanged, add_comm, Multiset.singleton_add]
  · refine .inr ⟨?_, by rw [none]⟩
    rw [card_bag, total]
    apply Finset.sum_congr rfl
    intro lane within
    obtain ⟨first, holds⟩ := lanes lane (Finset.mem_range.mp within)
    rcases holds.pushAttempt_cases wide with ⟨-, outcome⟩ | ⟨full, -⟩
    · rw [refused lane (mem_probeOrder.mpr (Finset.mem_range.mp within))] at outcome
      exact Attempt.noConfusion outcome
    · exact full

/-- A pop takes some stored item, or nothing is stored. -/
theorem Stores.tryPop_cases (stores : Stores p conduit bag) (core : Ticket) :
    (∃ item rest after, bag = item ::ₘ rest ∧
        tryPop p core conduit = some (some item, after) ∧ Stores p after rest) ∨
      bag = 0 ∧ tryPop p core conduit = some (none, conduit) := by
  obtain ⟨contents, lanes, rfl⟩ := stores
  have outcome : ∀ lane < p.numLanes, contents lane = [] ∧ popAttempt p (conduit lane) = .refused ∨
        contents lane ≠ [] ∧ popAttempt p (conduit lane) = .claimed := by
    intro lane inside
    obtain ⟨first, holds⟩ := lanes lane inside
    cases stored : contents lane with
    | nil =>
      rw [stored] at holds
      exact .inl ⟨rfl, holds.popAttempt_nil (by omega)⟩
    | cons item rest =>
      rw [stored] at holds
      exact .inr ⟨List.cons_ne_nil _ _, holds.popAttempt_cons⟩
  have settles : ∀ lane ∈ probeOrder p core, popAttempt p (conduit lane) ≠ .spins := by
    intro lane member
    rcases outcome lane (mem_probeOrder.mp member) with ⟨-, result⟩ | ⟨-, result⟩ <;> simp [result]
  rw [tryPop]
  rcases probe_cases settles with ⟨lane, member, claimed, found⟩ | ⟨refused, none⟩
  · have inside := mem_probeOrder.mp member
    obtain ⟨first, holds⟩ := lanes lane inside
    rcases outcome lane inside with ⟨-, result⟩ | ⟨stored, -⟩
    · rw [claimed] at result
      exact Attempt.noConfusion result
    · obtain ⟨item, rest, shape⟩ := List.exists_cons_of_ne_nil stored
      rw [shape] at holds
      refine .inl ⟨item, Lib.bag p.numLanes (update contents lane rest), _, ?_,
        by rw [found, ← holds.frontItem_cons], _, holds_update lanes holds.pop, rfl⟩
      have exchanged := bag_update_add contents inside rest
      rw [shape, ← Multiset.cons_coe, Multiset.add_cons, ← Multiset.cons_add] at exchanged
      exact (add_right_cancel exchanged).symm
  · refine .inr ⟨?_, by rw [none]⟩
    apply bag_eq_zero
    intro lane within
    rcases outcome lane within with ⟨empty, -⟩ | ⟨-, result⟩
    · exact empty
    · rw [refused lane (mem_probeOrder.mpr within)] at result
      exact Attempt.noConfusion result

/-! ## Runs of pushes and pops -/

theorem Stores.pushAll (stores : Stores p conduit bag) (calls : List (Ticket × α))
    (room : bag.card + calls.length ≤ p.totalSize) :
    ∃ after, pushAll p calls conduit = some (List.replicate calls.length true, after) ∧
      Stores p after ((calls.map Prod.snd : List α) + bag) := by
  induction calls generalizing conduit bag with
  | nil => exact ⟨conduit, rfl, by simpa using stores⟩
  | cons call calls ih =>
    obtain ⟨core, item⟩ := call
    rw [List.length_cons] at room
    rcases stores.tryPush_cases wide core item with ⟨-, next, pushed, stored⟩ | ⟨full, -⟩
    · obtain ⟨after, rest, final⟩ := ih stored (by
        rw [Multiset.card_cons]
        omega)
      refine ⟨after, ?_, ?_⟩
      · rw [ShardedConduit.pushAll, pushed, Option.bind_eq_bind, Option.bind_some]
        dsimp only
        rw [rest]
        rfl
      · rwa [Multiset.add_cons, ← Multiset.cons_add, Multiset.cons_coe] at final
    · omega

theorem Stores.popAll (stores : Stores p conduit bag) (cores : List Ticket)
    (enough : cores.length ≤ bag.card) :
    ∃ (items : List α) (rest : Multiset α) (after : Conduit α),
      popAll p cores conduit = some (items.map some, after) ∧
        bag = (items : Multiset α) + rest ∧ items.length = cores.length ∧ Stores p after rest := by
  induction cores generalizing conduit bag with
  | nil => exact ⟨[], bag, conduit, rfl, (zero_add bag).symm, rfl, stores⟩
  | cons core cores ih =>
    rw [List.length_cons] at enough
    rcases stores.tryPop_cases wide core with ⟨item, left, next, rfl, popped, stored⟩ | ⟨rfl, -⟩
    · rw [Multiset.card_cons] at enough
      obtain ⟨items, rest, after, run, rfl, length, final⟩ := ih stored (by omega)
      refine ⟨item :: items, rest, after, ?_, ?_, by simp [length], final⟩
      · rw [ShardedConduit.popAll, popped, Option.bind_eq_bind, Option.bind_some]
        dsimp only
        rw [run]
        rfl
      · rw [← Multiset.cons_coe, Multiset.cons_add]
    · simp at enough

/-- A drained conduit goes through a cycle lawfully and is drained again. -/
theorem Stores.cycle (stores : Stores p conduit 0) {cycle : Cycle α} (sized : cycle.Sized p) :
    ∃ after, cycle.Lawful p conduit after ∧ Stores p after 0 := by
  obtain ⟨full, pushed, filled⟩ := stores.pushAll wide cycle.pushes (by simp [sized.1])
  rw [add_zero] at filled
  have refused : tryPush p cycle.extraPush.1 cycle.extraPush.2 full = some (false, full) := by
    rcases filled.tryPush_cases wide cycle.extraPush.1 cycle.extraPush.2 with
      ⟨room, -⟩ | ⟨-, refused⟩
    · rw [Multiset.coe_card, List.length_map, sized.1] at room
      omega
    · exact refused
  obtain ⟨items, rest, drained, popped, same, length, stored⟩ := filled.popAll wide cycle.pops (by
    rw [Multiset.coe_card, List.length_map, sized.1, sized.2])
  have nothing : rest = 0 := by
    have sizes := congrArg Multiset.card same
    rw [Multiset.card_add, Multiset.coe_card, Multiset.coe_card, List.length_map, sized.1, length,
      sized.2] at sizes
    exact Multiset.card_eq_zero.mp (by omega)
  rw [nothing] at same stored
  have empty : tryPop p cycle.extraPop drained = some (none, drained) := by
    rcases stored.tryPop_cases wide cycle.extraPop with ⟨item, left, -, absent, -⟩ | ⟨-, empty⟩
    · exact absurd absent.symm (Multiset.cons_ne_zero)
    · exact empty
  refine ⟨drained, ⟨full, full, drained, items, ?_, refused, popped, ?_, empty⟩, stored⟩
  · rw [pushed, sized.1]
  · rw [add_zero] at same
    exact (Multiset.coe_eq_coe.mp same).symm

theorem Stores.cycles (stores : Stores p conduit 0) (cycles : List (Cycle α))
    (sized : ∀ cycle ∈ cycles, cycle.Sized p) : CyclesLawful p cycles conduit := by
  induction cycles generalizing conduit with
  | nil => exact trivial
  | cons cycle cycles ih =>
    obtain ⟨after, lawful, drained⟩ := stores.cycle wide (sized cycle List.mem_cons_self)
    exact ⟨after, lawful,
      ih drained fun other member => sized other (List.mem_cons_of_mem _ member)⟩

end Wide

/-! ## Lanes of one slot -/

/-- The slot's ticket is the one the next push waits for. -/
def AlwaysOpen (p : Parameters) (lane : Lane α) : Prop :=
  lane.sequences (p.slotAt lane.physicalIngressGate) = lane.physicalIngressGate

section

variable (single : p.laneCapacity = 1)
include single

theorem slotAt_of_single (pos : Ticket) : p.slotAt pos = 0 := by
  rw [Parameters.slotAt, Parameters.laneMask, single]
  simp

theorem AlwaysOpen.push (lane : Lane α) (item : α) : AlwaysOpen p (pushInto p lane item) := by
  rw [AlwaysOpen, slotAt_of_single single]
  unfold pushInto
  dsimp only
  rw [slotAt_of_single single, update_self]

/-- A push from core zero succeeds and leaves its lane open. -/
theorem tryPush_of_alwaysOpen {conduit : Conduit α} (isOpen : AlwaysOpen p (conduit 0)) (item : α) :
    ∃ after, tryPush p 0 item conduit = some (true, after) ∧ AlwaysOpen p (after 0) := by
  have first : p.laneAt 0 0 = 0 := by
    rw [Parameters.laneAt_eq_mod]
    exact Nat.zero_mod _
  obtain ⟨count, lanes⟩ := Nat.exists_eq_succ_of_ne_zero (Nat.ne_of_gt p.numLanes_pos)
  have claimed : pushAttempt p (conduit 0) = .claimed := if_pos isOpen
  refine ⟨update conduit 0 (pushInto p (conduit 0) item), ?_, ?_⟩
  · rw [tryPush, probeOrder, lanes, List.range_succ_eq_map, List.map_cons, first, probe, claimed]
  · exact AlwaysOpen.push single _ item

theorem pushAll_of_alwaysOpen {conduit after : Conduit α} (isOpen : AlwaysOpen p (conduit 0))
    (item : α) (count : Nat) {results : List Bool}
    (run : pushAll p (List.replicate count (0, item)) conduit = some (results, after)) :
    AlwaysOpen p (after 0) := by
  induction count generalizing conduit results with
  | zero =>
    cases run
    exact isOpen
  | succ count ih =>
    obtain ⟨next, pushed, stillOpen⟩ := tryPush_of_alwaysOpen single isOpen item
    rw [List.replicate_succ, pushAll, pushed, Option.bind_eq_bind, Option.bind_some] at run
    dsimp only at run
    cases rest : pushAll p (List.replicate count (0, item)) next with
    | none =>
      rw [rest] at run
      cases run
    | some result =>
      rw [rest] at run
      cases run
      exact ih stillOpen rest

theorem not_capacityLaw_of_single (data : Nat → α) : ¬ CapacityLaw p data := by
  rintro ⟨fresh, built, lawful⟩
  have isOpen : AlwaysOpen p (fresh 0) := by
    rw [construct, if_neg (by omega)] at built
    cases built
    rw [AlwaysOpen, slotAt_of_single single]
    rfl
  let cycle : Cycle α :=
    { pushes := List.replicate p.totalSize (0, data 0)
      extraPush := (0, data 0)
      pops := List.replicate p.totalSize 0
      extraPop := 0 }
  obtain ⟨after, ⟨full, still, -, -, pushed, refused, -⟩, -⟩ := lawful [cycle] (by
    rintro other member
    obtain rfl := List.mem_singleton.mp member
    exact ⟨List.length_replicate, List.length_replicate⟩)
  obtain ⟨_, accepted, -⟩ := tryPush_of_alwaysOpen single
    (pushAll_of_alwaysOpen single isOpen (data 0) p.totalSize pushed) (data 0)
  have both := refused.symm.trans accepted
  cases both

end

/-- The capacity law holds exactly for lanes of at least two slots. -/
theorem capacityLaw_iff (p : Parameters) (data : Nat → α) :
    CapacityLaw p data ↔ 2 ≤ p.laneCapacity := by
  constructor
  · intro law
    by_contra narrow
    obtain none | single : p.laneCapacity = 0 ∨ p.laneCapacity = 1 := by omega
    · obtain ⟨fresh, built, -⟩ := law
      rw [construct, if_pos none] at built
      cases built
    · exact not_capacityLaw_of_single single data law
  · intro wide
    refine ⟨_, if_neg (by omega), ?_⟩
    intro cycles sized
    refine Stores.cycles wide ⟨fun _ => [], fun lane _ => ⟨0, laneHolds_fresh p data⟩, ?_⟩
      cycles sized
    exact (bag_eq_zero fun _ _ => rfl).symm

/-- `mpmc_conduit` for two items in two lanes. -/
def twoLanes : Parameters where
  variant := .mpmcConduit
  requestedSize := 2
  lanesExponent := 1
  positive := by decide
  representable := by decide
  lanesFit := by decide

/-- Two pushes from core zero fill an advertised capacity of two in the first lane alone, and
a third one is accepted too. -/
theorem twoLanes_overfills :
    twoLanes.totalSize = 2 ∧ (((construct twoLanes fun _ => 0).bind
        (pushAll twoLanes [(0, 1), (0, 2), (0, 3)])).map Prod.fst) = some [true, true, true] ∧
      ¬ CapacityLaw twoLanes fun _ => 0 := by
  refine ⟨by decide +kernel, by decide +kernel, ?_⟩
  exact not_capacityLaw_of_single (by decide +kernel) _

/-! ## Any mix of calls -/

/-- Calls from any cores, a push where there is an item, return what a bag of the advertised
capacity returns: a push fails exactly if it is full, a pop exactly if it is empty. -/
def ActsAsBag (p : Parameters) : List (Ticket × Option α) → Conduit α → Multiset α → Prop
  | [], _, _ => True
  | (core, some item) :: calls, conduit, bag =>
      (bag.card < p.totalSize ∧ ∃ after, tryPush p core item conduit = some (true, after) ∧
        ActsAsBag p calls after (item ::ₘ bag)) ∨
      bag.card = p.totalSize ∧ tryPush p core item conduit = some (false, conduit) ∧
        ActsAsBag p calls conduit bag
  | (core, none) :: calls, conduit, bag =>
      (∃ item rest after, bag = item ::ₘ rest ∧ tryPop p core conduit = some (some item, after) ∧
        ActsAsBag p calls after rest) ∨
      bag = 0 ∧ tryPop p core conduit = some (none, conduit) ∧ ActsAsBag p calls conduit bag

theorem Stores.actsAsBag {conduit : Conduit α} {bag : Multiset α} (stores : Stores p conduit bag)
    (wide : 2 ≤ p.laneCapacity) (calls : List (Ticket × Option α)) :
    ActsAsBag p calls conduit bag := by
  induction calls generalizing conduit bag with
  | nil => exact trivial
  | cons call calls ih =>
      obtain ⟨core, _ | item⟩ := call
      · rcases stores.tryPop_cases wide core with
          ⟨item, rest, after, split, popped, stored⟩ | ⟨empty, failed⟩
        · exact .inl ⟨item, rest, after, split, popped, ih stored⟩
        · exact .inr ⟨empty, failed, ih stores⟩
      · rcases stores.tryPush_cases wide core item with
          ⟨room, after, pushed, stored⟩ | ⟨full, failed⟩
        · exact .inl ⟨room, after, pushed, ih stored⟩
        · exact .inr ⟨full, failed, ih stores⟩

/-- A conduit with lanes of at least two slots is a bag for every run of calls. -/
theorem construct_actsAsBag (wide : 2 ≤ p.laneCapacity) (data : Nat → α)
    (calls : List (Ticket × Option α)) :
    ∃ fresh, construct p data = some fresh ∧ ActsAsBag p calls fresh 0 := by
  refine ⟨_, if_neg (by omega), Stores.actsAsBag ?_ wide calls⟩
  exact ⟨fun _ => [], fun _ _ => ⟨0, laneHolds_fresh p data⟩, (bag_eq_zero fun _ _ => rfl).symm⟩

theorem construct_actsAsBag_four :
    let p : Parameters := ⟨.mpmcConduit, 4, 1, by decide, by decide, by decide⟩
    ∃ fresh, construct p (fun _ => 0) = some fresh ∧
      ActsAsBag p [(0, some 1), (0, some 2), (1, none)] fresh 0 :=
  construct_actsAsBag (by decide +kernel) _ _

end SlabFlux.Core.ShardedConduit
