import SlabFlux.Core.OrderedDiffusion.Transfer
import SlabFlux.Lib.Ring

/-!
# Sweeps over the ring

The blocks of a sweep that starts at a cursor cover consecutive sequence numbers from the
cursor on.  A candidate lies some distance behind the cursor's own sequence number, and less
than one turn of the ring.

With one producer and one consumer that both claim in order, the ring is made of four
stretches: slots the consumer has claimed, ready slots, the slot the producer has reserved,
and empty slots up to a full turn.  Each move of a holder shifts one boundary.
-/

namespace SlabFlux.Core.OrderedDiffusion

universe u v

variable {α : Type v} {size : Size} {start : Word} {offset bit : Nat}

/-! ## Blocks of 32 -/

theorem and_not_add_and (word mask : Word) : (word &&& ~~~mask) + (word &&& mask) = word := by
  rw [BitVec.add_eq_or_of_and_eq_zero]
  · ext i
    simp only [BitVec.getElem_or, BitVec.getElem_and, BitVec.getElem_not]
    cases word[i] <;> cases mask[i] <;> rfl
  · ext i
    simp only [BitVec.getElem_and, BitVec.getElem_not, BitVec.getElem_zero]
    cases word[i] <;> cases mask[i] <;> rfl

theorem toNat_and_31 (word : Word) : (word &&& 31#64).toNat = word.toNat % 32 :=
  Nat.and_two_pow_sub_one_eq_mod _ 5

theorem toNat_and_not_31 (word : Word) :
    (word &&& ~~~31#64).toNat = word.toNat - word.toNat % 32 := by
  have parts := congrArg BitVec.toNat (and_not_add_and word 31#64)
  rw [BitVec.toNat_add, toNat_and_31] at parts
  omega

/-- Adding whole blocks keeps the place within a block. -/
theorem toNat_add_mod_32 (start : Word) (block : offset % 32 = 0) :
    (start + BitVec.ofNat 64 offset).toNat % 32 = start.toNat % 32 := by
  rw [BitVec.toNat_add, BitVec.toNat_ofNat]
  omega

theorem bitOffset_eq (start : Word) (offset : Nat) :
    bitOffset start offset = if offset = 0 then start.toNat % 32 else 0 := by
  rw [bitOffset]
  split
  · case isTrue first =>
    rw [toNat_and_31, toNat_add_mod_32 start (by omega)]
  · rfl

/-! ## Candidates -/

/-- How far a candidate lies behind the cursor. -/
def distance (start : Word) (offset bit : Nat) : Nat := offset + bit - start.toNat % 32

/-- A candidate that a sweep may reach. -/
structure Reachable (size : Size) (start : Word) (offset bit : Nat) : Prop where
  block : offset % 32 = 0
  inside : offset < size.capacity
  bit_lt : bit < 32
  behind : bitOffset start offset ≤ bit

theorem Size.capacity_mod_32 (size : Size) : size.capacity % 32 = 0 := by
  obtain ⟨exponent, large, -, capacity⟩ := size.capacity_eq_pow
  rw [capacity]
  exact Nat.mod_eq_zero_of_dvd (Nat.pow_dvd_pow 2 large)

theorem Size.capacity_le (size : Size) : size.capacity ≤ 2 ^ 63 := by
  obtain ⟨exponent, -, fits, capacity⟩ := size.capacity_eq_pow
  rw [capacity]
  exact Nat.pow_le_pow_right (by decide) fits

theorem Size.capacity_dvd (size : Size) : size.capacity ∣ 2 ^ 64 := by
  obtain ⟨exponent, -, fits, capacity⟩ := size.capacity_eq_pow
  rw [capacity]
  exact Nat.pow_dvd_pow 2 (by omega)

namespace Reachable

variable (reachable : Reachable size start offset bit)
include reachable

theorem le_offset_add : start.toNat % 32 ≤ offset + bit := by
  obtain ⟨block, -, -, behind⟩ := reachable
  rw [bitOffset_eq] at behind
  by_cases first : offset = 0
  · rw [if_pos first] at behind
    omega
  · omega

theorem distance_lt : distance start offset bit < size.capacity := by
  have whole := size.capacity_mod_32
  obtain ⟨block, inside, small, -⟩ := reachable
  rw [distance]
  omega

theorem logicalTarget_eq :
    logicalTarget start offset bit = start + BitVec.ofNat 64 (distance start offset bit) := by
  have far := reachable.le_offset_add
  have close := reachable.distance_lt
  apply BitVec.eq_of_toNat_eq
  rw [logicalTarget, logicalBase, BitVec.toNat_add, toNat_and_not_31,
    toNat_add_mod_32 start reachable.block, BitVec.toNat_add, BitVec.toNat_add,
    BitVec.toNat_ofNat, BitVec.toNat_ofNat, BitVec.toNat_ofNat]
  have block := reachable.block
  rw [distance] at close ⊢
  omega

theorem toNat_logicalTarget_sub :
    (logicalTarget start offset bit - start).toNat = distance start offset bit := by
  have close := reachable.distance_lt
  have fits := size.capacity_le
  rw [reachable.logicalTarget_eq, BitVec.add_comm, BitVec.add_sub_cancel, BitVec.toNat_ofNat,
    Nat.mod_eq_of_lt (by omega)]

end Reachable

theorem Size.slotAt_add (size : Size) (word : Word) (count : Nat) :
    size.slotAt (word + BitVec.ofNat 64 count) = (word.toNat + count) % size.capacity := by
  rw [slotAt_eq_mod, BitVec.toNat_add, BitVec.toNat_ofNat, Nat.mod_mod_of_dvd _ size.capacity_dvd,
    Nat.add_mod, Nat.mod_mod_of_dvd _ size.capacity_dvd, ← Nat.add_mod]

/-- The physical target is the slot of the logical one. -/
theorem physicalTarget_eq (size : Size) (start : Word) (offset bit : Nat) :
    physicalTarget size start offset bit = size.slotAt (logicalTarget start offset bit) := by
  have below : physicalBase size start offset < 2 ^ 64 := by
    have inside := size.slotAt_lt (logicalBase start offset)
    have fits := size.capacity_le
    rw [physicalBase]
    omega
  rw [physicalTarget, Size.slotAt_add, BitVec.toNat_ofNat, Nat.mod_eq_of_lt below, physicalBase,
    Size.slotAt_eq_mod, Nat.mod_add_mod, logicalTarget, Size.slotAt_add]

/-- A byte of a vector is the state of the slot at its bit. -/
theorem physicalBase_add (size : Size) (start : Word) (offset : Nat) (small : bit < 32) :
    physicalBase size start offset + bit = physicalTarget size start offset bit := by
  have whole := size.capacity_mod_32
  have aligned : (logicalBase start offset).toNat % 32 = 0 := by
    rw [logicalBase, toNat_and_not_31]
    omega
  have positive := size.capacity_pos
  rw [physicalTarget_eq, logicalTarget, Size.slotAt_add, physicalBase, Size.slotAt_eq_mod]
  generalize (logicalBase start offset).toNat = base at aligned
  generalize size.capacity = capacity at whole positive
  obtain ⟨blocks, rfl⟩ := Nat.dvd_of_mod_eq_zero whole
  have lower : base % (32 * blocks) + bit < 32 * blocks := by
    have remainder : base % (32 * blocks) % 32 = 0 := by
      rw [Nat.mod_mul_right_mod]
      exact aligned
    have inside := Nat.mod_lt base positive
    omega
  rw [Nat.add_mod, Nat.mod_eq_of_lt (show bit < 32 * blocks by omega), Nat.mod_eq_of_lt lower]

/-! ## The mask -/

theorem mem_hits {call : Call α} {states : Loaded} :
    bit ∈ hits call start offset states ↔
      bit < 32 ∧ bitOffset start offset ≤ bit ∧ states bit = some call.wanted := by
  simp [hits, List.mem_filter]

/-- Bits below the lowest set one are not set. -/
theorem not_mem_of_lt_head {call : Call α} {states : Loaded} {first : Nat} {mask : List Nat}
    (shape : hits call start offset states = first :: mask) (lower : bit < first) :
    bit ∉ hits call start offset states := by
  have sorted : (hits call start offset states).Pairwise (· < ·) :=
    List.Pairwise.filter _ List.pairwise_lt_range
  intro member
  rw [shape] at member sorted
  rcases List.mem_cons.mp member with rfl | later
  · exact Nat.lt_irrefl _ lower
  · exact Nat.lt_asymm lower (List.rel_of_pairwise_cons sorted later)

/-! ## How the ring is arranged -/

open Lib Function

variable {Thread : Type u}

/-- The state of the slot of a position. -/
def stateOf (claimed produced reserved position : Nat) : SlotState :=
  if position < claimed then .claimed
  else if position < produced then .ready
  else if position < reserved then .reserved
  else .empty

/-- The positions from `released` on: claimed ones, then ready ones, then reserved ones, then
empty ones up to a full turn. -/
structure Arranged (size : Size) (s : State Thread α)
    (released copied claimed produced reserved : Nat) : Prop where
  released_le : released ≤ copied
  copied_le : copied ≤ claimed
  claimed_le : claimed ≤ produced
  produced_le : produced ≤ reserved
  reserved_le : reserved ≤ released + size.capacity
  slots : ∀ position, released ≤ position → position < released + size.capacity →
    s.slots (position % size.capacity) = stateOf claimed produced reserved position
  length : s.pushed.length = produced
  popped : s.popped = s.pushed.take copied
  stored : Ring.Holds size.capacity s.data copied (s.pushed.drop copied)

namespace Arranged

variable {s after : State Thread α} {released copied claimed produced reserved ahead : Nat}

/-- Only the shared memory and the history matter. -/
theorem congr (arranged : Arranged size s released copied claimed produced reserved)
    (slots : after.slots = s.slots) (data : after.data = s.data)
    (pushed : after.pushed = s.pushed) (popped : after.popped = s.popped) :
    Arranged size after released copied claimed produced reserved := by
  obtain ⟨bound, order, order', order'', room, states, length, taken, stored⟩ := arranged
  refine ⟨bound, order, order', order'', room, ?_, ?_, ?_, ?_⟩
  · rwa [slots]
  · rwa [pushed]
  · rwa [pushed, popped]
  · rwa [pushed, data]

/-- A slot other than that of `position` is not changed by writing the latter. -/
theorem update_slots (arranged : Arranged size s released copied claimed produced reserved)
    {target position : Nat} (inside : released ≤ position)
    (near : position < released + size.capacity) (targetInside : released ≤ target)
    (targetNear : target < released + size.capacity) (state : SlotState) :
    update s.slots (target % size.capacity) state (position % size.capacity) =
      if position = target then state else stateOf claimed produced reserved position := by
  split
  · case isTrue same => rw [same, update_self]
  · case isFalse different =>
    have apart : position % size.capacity ≠ target % size.capacity := by
      rcases Nat.lt_or_gt_of_ne different with lower | higher
      · exact Ring.slot_ne lower (by omega)
      · exact (Ring.slot_ne higher (by omega)).symm
    rw [update_of_ne apart]
    exact arranged.slots position inside near

/-- The producer can claim no other slot than the next one, unless it overtakes. -/
theorem ahead_eq_zero_of_empty
    (arranged : Arranged size s released copied claimed produced produced)
    (near : ahead < size.capacity)
    (wanted : s.slots ((produced + ahead) % size.capacity) = .empty)
    (passed : ∀ before < ahead, s.slots ((produced + before) % size.capacity) ≠ .empty) :
    ahead = 0 := by
  by_contra further
  have first := passed 0 (Nat.pos_of_ne_zero further)
  have ordered := arranged.claimed_le
  have lower := arranged.released_le
  have middle := arranged.copied_le
  rcases Nat.lt_or_eq_of_le arranged.reserved_le with room | full
  · apply first
    rw [Nat.add_zero, arranged.slots produced (by omega) room, stateOf, if_neg (by omega),
      if_neg (by omega), if_neg (by omega)]
  · rw [full, Nat.add_right_comm, Nat.add_mod_right,
      arranged.slots (released + ahead) (by omega) (by omega), stateOf] at wanted
    split at wanted
    · cases wanted
    · rw [if_pos (by omega)] at wanted
      cases wanted

/-- The consumer can claim no other slot than the oldest one, unless it overtakes. -/
theorem ahead_eq_zero_of_ready
    (arranged : Arranged size s released copied released produced reserved)
    (near : ahead < size.capacity)
    (wanted : s.slots ((released + ahead) % size.capacity) = .ready)
    (passed : ∀ before < ahead, s.slots ((released + before) % size.capacity) ≠ .ready) :
    ahead = 0 := by
  by_contra further
  have first := passed 0 (Nat.pos_of_ne_zero further)
  rcases Nat.lt_or_eq_of_le arranged.claimed_le with some | none
  · apply first
    rw [Nat.add_zero, arranged.slots released (Nat.le_refl _) (by omega), stateOf,
      if_neg (by omega), if_pos some]
  · rw [arranged.slots (released + ahead) (by omega) (by omega), stateOf, if_neg (by omega),
      if_neg (by omega)] at wanted
    split at wanted <;> cases wanted

/-- A claimed slot has an item, an empty one has room. -/
theorem lt_of_empty (arranged : Arranged size s released copied claimed produced produced)
    (wanted : s.slots (produced % size.capacity) = .empty) :
    produced < released + size.capacity := by
  refine Nat.lt_of_le_of_ne arranged.reserved_le ?_
  intro full
  have positive := size.capacity_pos
  rw [full, Nat.add_mod_right, arranged.slots released (Nat.le_refl _) (by omega),
    stateOf] at wanted
  split at wanted
  · cases wanted
  · rw [if_pos (by omega)] at wanted
    cases wanted

theorem lt_of_ready (arranged : Arranged size s released copied released produced reserved)
    (wanted : s.slots (released % size.capacity) = .ready) : released < produced := by
  refine Nat.lt_of_le_of_ne arranged.claimed_le ?_
  intro none
  have positive := size.capacity_pos
  rw [arranged.slots released (Nat.le_refl _) (by omega), stateOf, if_neg (by omega),
    if_neg (by omega)] at wanted
  split at wanted <;> cases wanted

theorem reserve (arranged : Arranged size s released copied claimed produced produced)
    (room : produced < released + size.capacity)
    (slots : after.slots = update s.slots (produced % size.capacity) .reserved)
    (data : after.data = s.data) (pushed : after.pushed = s.pushed)
    (popped : after.popped = s.popped) :
    Arranged size after released copied claimed produced (produced + 1) := by
  have bound := arranged.released_le
  have order := arranged.copied_le
  have order' := arranged.claimed_le
  refine ⟨bound, order, order', by omega, room, ?_, by rw [pushed]; exact arranged.length,
    by rw [pushed, popped]; exact arranged.popped, by rw [pushed, data]; exact arranged.stored⟩
  intro position inside near
  rw [slots, update_slots arranged inside near (by omega) room]
  simp only [stateOf]
  split <;> split_ifs <;> first | rfl | omega

theorem write (arranged : Arranged size s released copied claimed produced (produced + 1))
    {item : α} (slots : after.slots = s.slots)
    (data : after.data = update s.data (produced % size.capacity) item)
    (pushed : after.pushed = s.pushed) (popped : after.popped = s.popped) :
    Arranged size after released copied claimed produced (produced + 1) := by
  have room := arranged.reserved_le
  have bound := arranged.released_le
  have order := arranged.copied_le
  have order' := arranged.claimed_le
  have length := arranged.length
  refine ⟨bound, order, order', arranged.produced_le, room, ?_, by rwa [pushed], ?_, ?_⟩
  · rw [slots]
    exact arranged.slots
  · rw [pushed, popped]
    exact arranged.popped
  · rw [pushed, data]
    apply arranged.stored.write
    · rw [List.length_drop]
      omega
    · omega

theorem publish (arranged : Arranged size s released copied claimed produced (produced + 1))
    {item : α} (written : s.data (produced % size.capacity) = item)
    (slots : after.slots = update s.slots (produced % size.capacity) .ready)
    (data : after.data = s.data) (pushed : after.pushed = s.pushed ++ [item])
    (popped : after.popped = s.popped) :
    Arranged size after released copied claimed (produced + 1) (produced + 1) := by
  have room := arranged.reserved_le
  have bound := arranged.released_le
  have order := arranged.copied_le
  have order' := arranged.claimed_le
  have length := arranged.length
  refine ⟨bound, order, by omega, Nat.le_refl _, room, ?_, ?_, ?_, ?_⟩
  · intro position inside near
    rw [slots, update_slots arranged inside near (by omega) (by omega)]
    simp only [stateOf]
    split <;> split_ifs <;> first | rfl | omega
  · rw [pushed, List.length_append, length, List.length_singleton]
  · rw [popped, pushed, List.take_append_of_le_length (by omega)]
    exact arranged.popped
  · rw [data, pushed, List.drop_append_of_le_length (by omega)]
    apply arranged.stored.append
    rw [List.length_drop, length, Nat.add_sub_cancel' (by omega)]
    intro offset inside
    obtain rfl : offset = 0 := by simpa using inside
    simpa using written

theorem claim (arranged : Arranged size s released released released produced reserved)
    (some : released < produced)
    (slots : after.slots = update s.slots (released % size.capacity) .claimed)
    (data : after.data = s.data) (pushed : after.pushed = s.pushed)
    (popped : after.popped = s.popped) :
    Arranged size after released released (released + 1) produced reserved := by
  have room := arranged.reserved_le
  have order := arranged.produced_le
  refine ⟨Nat.le_refl _, Nat.le_succ _, some, order, room, ?_,
    by rw [pushed]; exact arranged.length, by rw [pushed, popped]; exact arranged.popped,
    by rw [pushed, data]; exact arranged.stored⟩
  intro position inside near
  rw [slots, update_slots arranged inside near (Nat.le_refl _) (by omega)]
  simp only [stateOf]
  split <;> split_ifs <;> first | rfl | omega

theorem read (arranged : Arranged size s released released (released + 1) produced reserved)
    (slots : after.slots = s.slots) (data : after.data = s.data) (pushed : after.pushed = s.pushed)
    (popped : after.popped = s.popped ++ [s.data (released % size.capacity)]) :
    Arranged size after released (released + 1) (released + 1) produced reserved := by
  have length := arranged.length
  have some := arranged.claimed_le
  have next : s.pushed.drop released =
      s.pushed[released] :: s.pushed.drop (released + 1) := List.drop_eq_getElem_cons (by omega)
  have stored := arranged.stored
  rw [next] at stored
  refine ⟨Nat.le_succ _, Nat.le_refl _, some, arranged.produced_le, arranged.reserved_le, ?_, by
    rwa [pushed], ?_, ?_⟩
  · rw [slots]
    exact arranged.slots
  · rw [popped, pushed, stored.head, arranged.popped, List.take_concat_get' _ _ (by omega)]
  · rw [pushed, data]
    exact stored.tail

theorem release
    (arranged : Arranged size s released (released + 1) (released + 1) produced reserved)
    (slots : after.slots = update s.slots (released % size.capacity) .empty)
    (data : after.data = s.data) (pushed : after.pushed = s.pushed)
    (popped : after.popped = s.popped) :
    Arranged size after (released + 1) (released + 1) (released + 1) produced reserved := by
  have room := arranged.reserved_le
  refine ⟨Nat.le_refl _, Nat.le_refl _, arranged.claimed_le, arranged.produced_le, by omega, ?_, by
    rw [pushed]; exact arranged.length, by rw [pushed, popped]; exact arranged.popped, by
    rw [pushed, data]; exact arranged.stored⟩
  intro position inside near
  by_cases turn : position = released + size.capacity
  · -- the released slot is the last of the next turn
    have order' := arranged.produced_le
    rw [slots, turn, Nat.add_mod_right, update_self, stateOf, if_neg (by omega),
      if_neg (by omega), if_neg (by omega)]
  · rw [slots, update_slots arranged (by omega) (by omega) (Nat.le_refl _) (by omega),
      if_neg (by omega)]

end Arranged

end SlabFlux.Core.OrderedDiffusion
