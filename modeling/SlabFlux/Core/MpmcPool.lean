import Mathlib.Data.Nat.Bitwise
import SlabFlux.Lib.FreeSet

/-!
# The lanes of the memory pool

The constructor of `mpmc_pool` deals the nodes of the slab out to the lanes as linked lists of
32-bit indices, and `make_raw` takes the first node of the first lane that has one.
-/

namespace SlabFlux.Core.MpmcPool

open Lib Function

/-- The two halves that `epoch_nexus` packs into the head of a lane. -/
structure Head where
  index : Nat
  epoch : Nat

structure Pool where
  shards : Nat → Head
  nextIndices : Nat → Nat

/-- The index that ends a list. -/
def nil : Nat := 0xFFFFFFFF

/-- The first index of a lane, `start`; that of the lane behind it is its `end`. -/
def start (nodesPerLane lane : Nat) : Nat := lane * nodesPerLane % 2 ^ 32

/-- What the constructor stores to `next_indices_`. -/
def stores (lanes nodesPerLane : Nat) : List (Nat × Nat) :=
  (List.range lanes).flatMap fun lane =>
    let first := start nodesPerLane lane
    let stop := start nodesPerLane (lane + 1)
    (List.range' first (stop - first)).map fun i => (i, if i < stop - 1 then i + 1 else nil)

/-- The constructor: the memory is zero but for the last store to each index. -/
def construct (lanes nodesPerLane : Nat) : Pool where
  shards lane := ⟨start nodesPerLane lane, 0⟩
  nextIndices index :=
    ((stores lanes nodesPerLane).filter (·.1 = index)).getLast?.elim 0 Prod.snd

def selectLane (lanes core offset : Nat) : Nat := (core + offset) &&& (lanes - 1)

/-- The exchange of the head of a lane for the index behind it. -/
def Pool.pop (pool : Pool) (lane : Nat) : Pool :=
  let head := pool.shards lane
  { pool with
    shards := update pool.shards lane
      ⟨pool.nextIndices head.index, (head.epoch + 1) % 2 ^ 32⟩ }

/-- The loop of `make_raw` over the lanes; no other thread takes part. -/
def popFrom (pool : Pool) : List Nat → Option Nat × Pool
  | [] => (none, pool)
  | lane :: lanes =>
    if (pool.shards lane).index = nil then popFrom pool lanes
    else (some (pool.shards lane).index, pool.pop lane)

def makeRaw (lanes core : Nat) (pool : Pool) : Option Nat × Pool :=
  popFrom pool ((List.range lanes).map (selectLane lanes core))

section

variable (lanes nodesPerLane : Nat) (cores : Nat → Nat)

/-- The pool before a call, each call starting at the lane of its own core. -/
def before : Nat → Pool
  | 0 => construct lanes nodesPerLane
  | call + 1 => (makeRaw lanes (cores call) (before call)).2

def served (call : Nat) : Option Nat :=
  (makeRaw lanes (cores call) (before lanes nodesPerLane cores call)).1

end

/-- The pool serves all its nodes once and then none, and the constructor stays inside
`next_indices_`. -/
def UsesAll (capacity lanes : Nat) (cores : Nat → Nat) : Prop :=
  let nodesPerLane := capacity / lanes
  (∀ call < capacity, ∃ index < capacity, served lanes nodesPerLane cores call = some index) ∧
    Set.InjOn (served lanes nodesPerLane cores) (Set.Iio capacity) ∧
    served lanes nodesPerLane cores capacity = none ∧
    ∀ store ∈ stores lanes nodesPerLane, store.1 < capacity

theorem popFrom_cases (pool : Pool) (order : List Nat) :
    (popFrom pool order = (none, pool) ∧ ∀ lane ∈ order, (pool.shards lane).index = nil) ∨
      ∃ lane ∈ order, (pool.shards lane).index ≠ nil ∧
        popFrom pool order = (some (pool.shards lane).index, pool.pop lane) := by
  induction order with
  | nil => exact Or.inl ⟨rfl, nofun⟩
  | cons lane order ih =>
    rw [popFrom]
    split_ifs with exhausted
    · rcases ih with ⟨result, others⟩ | ⟨other, member, found⟩
      · exact Or.inl ⟨result, List.forall_mem_cons.mpr ⟨exhausted, others⟩⟩
      · exact Or.inr ⟨other, List.mem_cons_of_mem _ member, found⟩
    · exact Or.inr ⟨lane, List.mem_cons_self, exhausted, rfl⟩

section Lanes

variable {lanes nodes exponent : Nat} {cores : Nat → Nat} (power : lanes = 2 ^ exponent)
include power

theorem selectLane_eq_mod (core offset : Nat) :
    selectLane lanes core offset = (core + offset) % lanes := by
  rw [selectLane, power, Nat.and_two_pow_sub_one_eq_mod]

theorem makeRaw_cases (core : Nat) (pool : Pool) :
    (makeRaw lanes core pool = (none, pool) ∧ ∀ lane < lanes, (pool.shards lane).index = nil) ∨
      ∃ lane < lanes, (pool.shards lane).index ≠ nil ∧
        makeRaw lanes core pool = (some (pool.shards lane).index, pool.pop lane) := by
  have positive : 0 < lanes := power ▸ Nat.two_pow_pos exponent
  rcases popFrom_cases pool ((List.range lanes).map (selectLane lanes core)) with
    ⟨result, exhausted⟩ | ⟨lane, member, found⟩
  · refine Or.inl ⟨result, fun lane bound => exhausted lane (List.mem_map.mpr ?_)⟩
    -- the turn at which the loop comes by the lane
    refine ⟨(lane + (lanes - core % lanes)) % lanes, List.mem_range.mpr (Nat.mod_lt _ positive), ?_⟩
    have whole := Nat.div_add_mod core lanes
    have rest := Nat.mod_lt core positive
    have sum : core + (lane + (lanes - core % lanes)) = lane + lanes * (core / lanes + 1) := by
      rw [Nat.mul_succ]
      omega
    rw [selectLane_eq_mod power, Nat.add_mod_mod, sum, Nat.add_mul_mod_self_left,
      Nat.mod_eq_of_lt bound]
  · obtain ⟨offset, _, rfl⟩ := List.mem_map.mp member
    refine Or.inr ⟨_, ?_, found⟩
    exact selectLane_eq_mod power core offset ▸ Nat.mod_lt _ positive

/-- What holds of the constructed pool and is kept by taking a node holds before every call. -/
theorem before_invariant (invariant : Pool → Prop) (constructed : invariant (construct lanes nodes))
    (kept : ∀ pool, ∀ lane < lanes, invariant pool → (pool.shards lane).index ≠ nil →
      invariant (pool.pop lane)) (call : Nat) : invariant (before lanes nodes cores call) := by
  induction call with
  | zero => exact constructed
  | succ call ih =>
    rw [before]
    rcases makeRaw_cases power (cores call) (before lanes nodes cores call) with
      ⟨result, _⟩ | ⟨lane, bound, real, result⟩ <;> rw [result]
    · exact ih
    · exact kept _ lane bound ih real

theorem served_ne_nil (call : Nat) : served lanes nodes cores call ≠ some nil := by
  rw [served]
  rcases makeRaw_cases power (cores call) (before lanes nodes cores call) with
    ⟨result, _⟩ | ⟨lane, _, real, result⟩ <;> rw [result]
  · exact (Option.some_ne_none _).symm
  · exact fun same => real (Option.some.inj same)

/-- No call serves the index `nil`, so a pool that has it does not serve all its nodes. -/
theorem UsesAll.capacity_lt {capacity : Nat} (uses : UsesAll capacity lanes cores) :
    capacity < 2 ^ 32 := by
  obtain ⟨serves, distinct, _⟩ := uses
  choose! index bound result using serves
  by_contra large
  have few : (Finset.range capacity).card ≤ ((Finset.range capacity).erase nil).card := by
    refine Finset.card_le_card_of_injOn index (fun call early => ?_)
      fun first firstEarly second secondEarly same => ?_
    · rw [Finset.coe_range] at early
      refine Finset.mem_erase.mpr ⟨fun isNil => ?_, Finset.mem_range.mpr (bound call early)⟩
      exact served_ne_nil power call (isNil ▸ result call early)
    · rw [Finset.coe_range] at firstEarly secondEarly
      refine distinct firstEarly secondEarly ?_
      rw [result first firstEarly, result second secondEarly, same]
  have member : nil ∈ Finset.range capacity := by
    rw [Finset.mem_range, nil]
    omega
  rw [Finset.card_erase_of_mem member, Finset.card_range] at few
  omega

/-- Lanes without nodes serve index 0 again and again. -/
theorem served_of_no_nodes (call : Nat) : served lanes 0 cores call = some 0 := by
  -- every list is index 0, which is behind itself
  have looped : (∀ lane, ((before lanes 0 cores call).shards lane).index = 0) ∧
      (before lanes 0 cores call).nextIndices 0 = 0 := by
    refine before_invariant power
      (fun pool => (∀ lane, (pool.shards lane).index = 0) ∧ pool.nextIndices 0 = 0) ?_ ?_ call
    · have noStores : stores lanes 0 = [] := by simp [stores, start]
      rw [construct, noStores]
      exact ⟨fun lane => by simp [start], rfl⟩
    · rintro pool lane - ⟨heads, link⟩ -
      refine ⟨(forall_update_iff _ fun _ (head : Head) => head.index = 0).mpr
        ⟨?_, fun other _ => heads other⟩, link⟩
      rw [heads, link]
  rw [served]
  rcases makeRaw_cases power (cores call) (before lanes 0 cores call) with
    ⟨_, exhausted⟩ | ⟨lane, _, _, found⟩
  · have none := exhausted 0 (power ▸ Nat.two_pow_pos exponent)
    rw [looped.1] at none
    exact absurd none (by decide)
  · rw [found, looped.1]

end Lanes

variable {lanes nodes : Nat} {pool : Pool}

/-- The lists of the lanes: `nodes` indices each, in order. -/
structure Linked (lanes nodes : Nat) (pool : Pool) : Prop where
  next : ∀ lane < lanes, ∀ offset < nodes, pool.nextIndices (lane * nodes + offset) =
    if offset < nodes - 1 then lane * nodes + offset + 1 else nil
  heads : ∀ lane < lanes, (pool.shards lane).index = nil ∨
    ∃ offset < nodes, (pool.shards lane).index = lane * nodes + offset

/-- The nodes not yet served. -/
def free (lanes nodes : Nat) (pool : Pool) : Finset Nat :=
  (Finset.range (lanes * nodes)).filter fun index =>
    (pool.shards (index / nodes)).index ≤ index

theorem mem_free {index : Nat} : index ∈ free lanes nodes pool ↔
    index < lanes * nodes ∧ (pool.shards (index / nodes)).index ≤ index := by
  rw [free, Finset.mem_filter, Finset.mem_range]

theorem offset_lt {lane offset : Nat} (bound : lane < lanes) (inside : offset < nodes) :
    lane * nodes + offset < lanes * nodes := by
  have below := Nat.mul_le_mul_right nodes bound
  rw [Nat.succ_mul] at below
  omega

section Fitting

variable (fits : lanes * nodes < 2 ^ 32)
include fits

theorem free_eq_empty (exhausted : ∀ lane < lanes, (pool.shards lane).index = nil) :
    free lanes nodes pool = ∅ := by
  refine Finset.eq_empty_of_forall_notMem fun index member => ?_
  obtain ⟨bound, le⟩ := mem_free.mp member
  rw [exhausted _ (Nat.div_lt_of_lt_mul (Nat.mul_comm lanes nodes ▸ bound)), nil] at le
  omega

theorem Linked.pop (linked : Linked lanes nodes pool) {lane : Nat} (bound : lane < lanes)
    (real : (pool.shards lane).index ≠ nil) :
    Linked lanes nodes (pool.pop lane) ∧ (pool.shards lane).index ∈ free lanes nodes pool ∧
      free lanes nodes (pool.pop lane) =
        (free lanes nodes pool).erase (pool.shards lane).index := by
  obtain ⟨offset, inside, isFirst⟩ := (linked.heads lane bound).resolve_left real
  have next := linked.next lane bound offset inside
  have own {other : Nat} : other / nodes = lane ↔
      lane * nodes ≤ other ∧ other < lane * nodes + nodes := by
    rw [Nat.div_eq_iff (by omega), Nat.mul_comm]
    omega
  have inRange := offset_lt bound inside
  refine ⟨⟨linked.next, fun other otherBound => ?_⟩, mem_free.mpr ⟨by omega, ?_⟩, ?_⟩
  · by_cases same : other = lane
    · subst same
      simp only [Pool.pop, update_self]
      rw [isFirst, next]
      split_ifs with more
      · exact Or.inr ⟨offset + 1, by omega, rfl⟩
      · exact Or.inl rfl
    · simp only [Pool.pop, update_of_ne same]
      exact linked.heads other otherBound
  · rw [own.mpr (by omega)]
  · ext other
    rw [Finset.mem_erase, mem_free, mem_free, Pool.pop]
    dsimp only
    by_cases same : other / nodes = lane
    · have range := own.mp same
      rw [same, update_self, isFirst]
      dsimp only
      rw [next]
      unfold nil
      split_ifs <;> omega
    · have different : other ≠ (pool.shards lane).index := by
        rintro rfl
        exact same (own.mpr (by omega))
      simp [update_of_ne same, different]

theorem start_eq {lane : Nat} (bound : lane ≤ lanes) : start nodes lane = lane * nodes :=
  Nat.mod_eq_of_lt ((Nat.mul_le_mul_right nodes bound).trans_lt fits)

/-- What the constructor stores: at each index of a lane the one behind it. -/
theorem mem_stores_iff {store : Nat × Nat} :
    store ∈ stores lanes nodes ↔ ∃ lane < lanes, ∃ offset < nodes, store =
      (lane * nodes + offset, if offset < nodes - 1 then lane * nodes + offset + 1 else nil) := by
  simp only [stores, List.mem_flatMap, List.mem_range, List.mem_map, List.mem_range'_1]
  refine exists_congr fun lane => and_congr_right fun bound => ?_
  rw [start_eq fits bound.le, start_eq fits bound, Nat.succ_mul]
  have value (offset : Nat) : (lane * nodes + offset < lane * nodes + nodes - 1) =
      (offset < nodes - 1) := by
    rw [eq_iff_iff]
    omega
  constructor
  · rintro ⟨index, ⟨lower, upper⟩, rfl⟩
    obtain ⟨offset, rfl⟩ := Nat.exists_eq_add_of_le lower
    exact ⟨offset, by omega, by simp only [value]⟩
  · rintro ⟨offset, inside, rfl⟩
    exact ⟨lane * nodes + offset, by omega, by simp only [value]⟩

theorem linked_construct (positive : 0 < nodes) : Linked lanes nodes (construct lanes nodes) := by
  refine ⟨fun lane bound offset inside => ?_, fun lane bound => Or.inr ⟨0, positive, ?_⟩⟩
  · have stored := (mem_stores_iff fits).mpr ⟨lane, bound, offset, inside, rfl⟩
    have some : (stores lanes nodes).filter (·.1 = lane * nodes + offset) ≠ [] :=
      List.ne_nil_of_mem (List.mem_filter.mpr ⟨stored, decide_eq_true rfl⟩)
    obtain ⟨member, same⟩ := List.mem_filter.mp (List.getLast_mem some)
    obtain ⟨other, _, rest, restInside, isLast⟩ := (mem_stores_iff fits).mp member
    simp only [construct, List.getLast?_eq_some_getLast some]
    rw [isLast, decide_eq_true_iff] at same
    have sameLane := congrArg (· / nodes) same
    simp only [Nat.mul_comm _ nodes, Nat.mul_add_div positive, Nat.div_eq_of_lt inside,
      Nat.div_eq_of_lt restInside, Nat.add_zero] at sameLane
    subst sameLane
    rw [Option.elim_some, isLast, Nat.add_left_cancel same]
  · exact start_eq fits bound.le

theorem card_free_construct : (free lanes nodes (construct lanes nodes)).card = lanes * nodes := by
  rw [free, Finset.filter_true_of_mem, Finset.card_range]
  intro index member
  have bound := Nat.div_lt_of_lt_mul (Nat.mul_comm lanes _ ▸ Finset.mem_range.mp member)
  exact (start_eq fits bound.le).trans_le (Nat.div_mul_le_self index _)

/-- From the nodes that were dealt out, each call takes one until none is left. -/
theorem serves_of_pos {exponent : Nat} (power : lanes = 2 ^ exponent) (positive : 0 < nodes)
    (cores : Nat → Nat) : Serves (fun call => free lanes nodes (before lanes nodes cores call))
      (served lanes nodes cores) := by
  intro call
  have linked : Linked lanes nodes (before lanes nodes cores call) :=
    before_invariant power _ (linked_construct fits positive)
      (fun pool lane bound linked real => (linked.pop fits bound real).1) call
  simp only [served, before]
  rcases makeRaw_cases power (cores call) (before lanes nodes cores call) with
    ⟨result, exhausted⟩ | ⟨lane, bound, real, result⟩ <;> rw [result]
  · have empty := free_eq_empty fits exhausted
    exact Or.inl ⟨rfl, empty, empty⟩
  · obtain ⟨_, member, erased⟩ := linked.pop fits bound real
    exact Or.inr ⟨_, member, rfl, erased⟩

end Fitting

/-- The pool uses all its memory exactly if its nodes can be dealt out evenly and their
indices fit into 32 bits. -/
theorem usesAll_iff {capacity : Nat} (positive : 0 < capacity) (exponent : Nat)
    (cores : Nat → Nat) :
    UsesAll capacity (2 ^ exponent) cores ↔ capacity < 2 ^ 32 ∧ capacity % 2 ^ exponent = 0 := by
  have whole := Nat.div_add_mod capacity (2 ^ exponent)
  constructor
  · intro uses
    have small := uses.capacity_lt rfl
    have fits : 2 ^ exponent * (capacity / 2 ^ exponent) < 2 ^ 32 := by omega
    refine ⟨small, Nat.eq_zero_of_not_pos fun remainder => ?_⟩
    rcases Nat.eq_zero_or_pos (capacity / 2 ^ exponent) with none | some
    · have null := uses.2.2.1
      rw [none, served_of_no_nodes rfl] at null
      exact nomatch null
    · obtain ⟨index, _, result⟩ := uses.1 (2 ^ exponent * (capacity / 2 ^ exponent)) (by omega)
      have null := (serves_of_pos fits rfl some cores).none_of_le (card_free_construct fits).le
      exact nomatch result.symm.trans null
  · rintro ⟨small, even⟩
    rw [even, Nat.add_zero] at whole
    have fits : 2 ^ exponent * (capacity / 2 ^ exponent) < 2 ^ 32 := by omega
    have some : 0 < capacity / 2 ^ exponent := Nat.pos_of_ne_zero fun none => by
      rw [none] at whole
      omega
    have serves := serves_of_pos fits rfl some cores
    have all := (card_free_construct fits).trans whole
    refine ⟨fun call early => ?_, serves.injOn.mono fun call early => early.trans_eq all.symm,
      serves.none_of_le all.le, fun store member => ?_⟩
    · obtain ⟨index, member, result⟩ := serves.served_of_lt (early.trans_eq all.symm)
      exact ⟨index, whole ▸ (mem_free.mp member).1, result⟩
    · obtain ⟨lane, bound, offset, inside, rfl⟩ := (mem_stores_iff fits).mp member
      exact (offset_lt bound inside).trans_eq whole

theorem usesAll_eight : UsesAll 8 (2 ^ 3) fun _ => 0 :=
  (usesAll_iff (by decide) 3 fun _ => 0).mpr (by decide)

/-- With the default of eight lanes, a pool of four nodes serves its first node twice. -/
theorem not_usesAll_four : ¬ UsesAll 4 8 fun _ => 0 := by
  rintro ⟨_, distinct, _⟩
  exact absurd (distinct (by decide : 0 < 4) (by decide : 1 < 4) (by decide)) (by decide)

end SlabFlux.Core.MpmcPool
