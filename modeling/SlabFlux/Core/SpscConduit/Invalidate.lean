import SlabFlux.Core.SpscConduit.Revert

/-!
# Taking an item out of a conduit

`invalidate_by_ptr(target)` overwrites the occurrences of an item between the two gates with
`T{}`.  It splits the ring at its end into index intervals and scans each of them, in vector
registers where `T` has eight bytes and one slot at a time otherwise.

Every build of the scan is the same function on the slots, so that what is left to decide is
which intervals are scanned.  `spsc_ring_conduit` takes the occupied ones or all slots;
`spsc_conduit` has the two gates the other way round, and where the occupied slots go over the
end of the ring it scans exactly the free ones.
-/

namespace SlabFlux.Core.SpscConduit

open Lib Function Conduit

universe u

variable {α : Type u} [DecidableEq α] [Inhabited α]

/-! ## The scan -/

/-- An element type of eight bytes, such as a pointer.  Values are their bit patterns, and `T{}` is
all zeros.  `double` is none: the vector builds find a NaN, which no scalar comparison does. -/
structure EightBytes (α : Type u) [Inhabited α] where
  bits : α → BitVec 64
  ofBits : BitVec 64 → α
  ofBits_bits : ∀ item, ofBits (bits item) = item
  bits_default : bits default = 0

/-- What the compiler makes of the scan: one of the two vector builds for types of eight bytes,
or the loop over single slots. -/
inductive ScanBuild (α : Type u) [Inhabited α] where
  | avx512 (layout : EightBytes α)
  | avx2 (layout : EightBytes α)
  | scalar

/-- `for (; i + width <= end; i += width)`, from `i = start` on. -/
def loop (width : Nat) (body : (Nat → α) → Nat → Nat → α) (start stop : Nat)
    (buffer : Nat → α) : Nat → α :=
  (List.range ((stop - start) / width)).foldl
    (fun buffer round => body buffer (start + width * round)) buffer

/-- The index after `loop`. -/
def loopEnd (width start stop : Nat) : Nat := start + width * ((stop - start) / width)

/-- `if (buffer_[i] == target) buffer_[i] = T{}`. -/
def scanSlot (target : α) (buffer : Nat → α) (i : Nat) : Nat → α :=
  if buffer i = target then update buffer i default else buffer

/-- The lanes in which a vector of slots equals the target. -/
def laneMask (layout : EightBytes α) (target : α) (buffer : Nat → α) (i lane : Nat) : Bool :=
  layout.bits (buffer (i + lane)) = layout.bits target

/-- One round of the AVX-512 loop: compare eight slots, and clear those in the mask one by
one. -/
def scanEight (layout : EightBytes α) (target : α) (buffer : Nat → α) (i : Nat) : Nat → α :=
  if (List.range 8).any (laneMask layout target buffer i) then
    (List.range 8).foldl
      (fun written lane =>
        if laneMask layout target buffer i lane then update written (i + lane) default
        else written)
      buffer
  else buffer

/-- One round of the AVX2 loop: compare four slots, and store them back blended with zeros. -/
def scanFour (layout : EightBytes α) (target : α) (buffer : Nat → α) (i : Nat) : Nat → α :=
  if (List.range 4).any (laneMask layout target buffer i) then
    (List.range 4).foldl
      (fun written lane => update written (i + lane) (layout.ofBits
        (if laneMask layout target buffer i lane then 0 else layout.bits (buffer (i + lane)))))
      buffer
  else buffer

/-- `scan_avx(start, end)`, or `scan_scalar(start, end)`. -/
def scan (build : ScanBuild α) (target : α) (start stop : Nat) (buffer : Nat → α) : Nat → α :=
  match build with
  | .avx512 layout =>
      loop 1 (scanSlot target) (loopEnd 8 start stop) stop
        (loop 8 (scanEight layout target) start stop buffer)
  | .avx2 layout =>
      loop 1 (scanSlot target) (loopEnd 4 start stop) stop
        (loop 4 (scanFour layout target) start stop buffer)
  | .scalar => loop 1 (scanSlot target) start stop buffer

/-! ## What a scan does -/

/-- An item, or `T{}` in place of the target. -/
def nulled (target item : α) : α := if item = target then default else item

/-- The slots from `start` to `stop` with the target taken out. -/
def nullify (target : α) (start stop : Nat) (buffer : Nat → α) : Nat → α := fun i =>
  if start ≤ i ∧ i < stop then nulled target (buffer i) else buffer i

section Nullify

variable (target : α) {start middle stop : Nat} (buffer : Nat → α)

@[simp] theorem nullify_self (start : Nat) : nullify target start start buffer = buffer := by
  funext i
  exact if_neg (by omega)

theorem nullify_inside {i : Nat} (low : start ≤ i) (high : i < stop) :
    nullify target start stop buffer i = nulled target (buffer i) :=
  if_pos ⟨low, high⟩

theorem nullify_outside {i : Nat} (outside : i < start ∨ stop ≤ i) :
    nullify target start stop buffer i = buffer i :=
  if_neg (by omega)

/-- Two scans that meet are one. -/
theorem nullify_nullify (low : start ≤ middle) (high : middle ≤ stop) :
    nullify target middle stop (nullify target start middle buffer) =
      nullify target start stop buffer := by
  funext i
  by_cases before : i < middle
  · rw [nullify_outside _ _ (.inl before)]
    unfold nullify
    simp only [before, Nat.lt_of_lt_of_le before high]
  · by_cases inside : i < stop
    · rw [nullify_inside _ _ (Nat.le_of_not_lt before) inside,
        nullify_outside _ _ (.inr (Nat.le_of_not_lt before)),
        nullify_inside _ _ (by omega) inside]
    · rw [nullify_outside _ _ (.inr (by omega)), nullify_outside _ _ (.inr (by omega)),
        nullify_outside _ _ (.inr (by omega))]

/-- Two scans that meet are one, also when the later slots come first. -/
theorem nullify_nullify_before (low : start ≤ middle) (high : middle ≤ stop) :
    nullify target start middle (nullify target middle stop buffer) =
      nullify target start stop buffer := by
  rw [← nullify_nullify target buffer low high]
  funext i
  by_cases before : i < middle
  · rw [nullify_outside _ (nullify target start middle buffer) (.inl before)]
    unfold nullify
    rw [if_neg (by omega : ¬(middle ≤ i ∧ i < stop))]
  · rw [nullify_outside _ _ (.inr (Nat.le_of_not_lt before))]
    unfold nullify
    rw [if_neg (by omega : ¬(start ≤ i ∧ i < middle))]

theorem update_nullify (low : start ≤ stop) :
    update (nullify target start stop buffer) stop (nulled target (buffer stop)) =
      nullify target start (stop + 1) buffer := by
  rw [← nullify_nullify target buffer low (Nat.le_succ stop)]
  funext i
  by_cases last : i = stop
  · subst last
    rw [update_self, nullify_inside _ _ (Nat.le_refl _) (Nat.lt_succ_self _),
      nullify_outside _ _ (.inr (Nat.le_refl _))]
  · rw [update_of_ne last, nullify_outside target (nullify target start stop buffer)]
    omega

theorem nullify_of_absent (absent : ∀ i, start ≤ i → i < stop → buffer i ≠ target) :
    nullify target start stop buffer = buffer := by
  funext i
  unfold nullify
  split
  next inside => exact if_neg (absent i inside.1 inside.2)
  next => rfl

end Nullify

section Scan

variable (target : α)

/-- Rounds that clear the target in `width` slots each clear it in all slots of the loop. -/
theorem loop_eq_nullify {width : Nat} {body : (Nat → α) → Nat → Nat → α}
    (clears : ∀ buffer i, body buffer i = nullify target i (i + width) buffer) (start stop : Nat)
    (buffer : Nat → α) :
    loop width body start stop buffer = nullify target start (loopEnd width start stop) buffer := by
  unfold loop loopEnd
  induction (stop - start) / width with
  | zero => simp
  | succ rounds ih =>
      have further : start + width * (rounds + 1) = start + width * rounds + width := by
        rw [Nat.mul_succ, Nat.add_assoc]
      rw [List.range_succ, List.foldl_append, ih, List.foldl_cons, List.foldl_nil, clears, further]
      exact nullify_nullify target buffer (Nat.le_add_right _ _) (Nat.le_add_right _ _)

theorem scanSlot_eq_nullify (buffer : Nat → α) (i : Nat) :
    scanSlot target buffer i = nullify target i (i + 1) buffer := by
  have single := update_nullify target buffer (Nat.le_refl i)
  rw [nullify_self] at single
  rw [← single]
  unfold scanSlot nulled
  split
  · rfl
  · exact (update_eq_self i buffer).symm

variable (layout : EightBytes α)

omit [DecidableEq α] in
theorem laneMask_eq_true (buffer : Nat → α) (i lane : Nat) :
    laneMask layout target buffer i lane = true ↔ buffer (i + lane) = target := by
  unfold laneMask
  rw [decide_eq_true_eq]
  constructor
  · intro same
    rw [← layout.ofBits_bits (buffer (i + lane)), same, layout.ofBits_bits]
  · exact congrArg layout.bits

/-- A comparison that finds nothing leaves nothing to clear. -/
theorem nullify_of_noLane {lanes i : Nat} {buffer : Nat → α}
    (none : ¬(List.range lanes).any (laneMask layout target buffer i) = true) :
    buffer = nullify target i (i + lanes) buffer := by
  refine (nullify_of_absent target buffer ?_).symm
  intro j low high holds
  apply none
  rw [List.any_eq_true]
  refine ⟨j - i, List.mem_range.mpr (by omega), ?_⟩
  rw [laneMask_eq_true, Nat.add_sub_cancel' low, holds]

/-- Writes that clear the target lane by lane clear it in all lanes. -/
theorem foldl_eq_nullify {buffer : Nat → α} {i : Nat} {write : (Nat → α) → Nat → Nat → α}
    (clears : ∀ written lane, written (i + lane) = buffer (i + lane) →
      write written lane = update written (i + lane) (nulled target (buffer (i + lane))))
    (lanes : Nat) :
    (List.range lanes).foldl write buffer = nullify target i (i + lanes) buffer := by
  induction lanes with
  | zero => simp
  | succ lanes ih =>
      rw [List.range_succ, List.foldl_append, ih, List.foldl_cons, List.foldl_nil,
        clears _ _ (nullify_outside target buffer (.inr (Nat.le_refl _)))]
      exact update_nullify target buffer (Nat.le_add_right i lanes)

theorem scanEight_eq_nullify (buffer : Nat → α) (i : Nat) :
    scanEight layout target buffer i = nullify target i (i + 8) buffer := by
  unfold scanEight
  split
  next =>
    apply foldl_eq_nullify
    intro written lane same
    unfold nulled
    simp only [laneMask_eq_true]
    split
    · rfl
    · rw [← same, update_eq_self]
  next none => exact nullify_of_noLane target layout none

theorem scanFour_eq_nullify (buffer : Nat → α) (i : Nat) :
    scanFour layout target buffer i = nullify target i (i + 4) buffer := by
  have zeros : layout.ofBits 0 = default := by
    rw [← layout.bits_default, layout.ofBits_bits]
  unfold scanFour
  split
  next =>
    apply foldl_eq_nullify
    intro written lane _
    unfold nulled
    simp only [laneMask_eq_true]
    split
    · rw [zeros]
    · rw [layout.ofBits_bits]
  next none => exact nullify_of_noLane target layout none

/-- All builds of the scan take the target out of the interval. -/
theorem scan_eq_nullify (build : ScanBuild α) {start stop : Nat} (ordered : start ≤ stop)
    (buffer : Nat → α) :
    scan build target start stop buffer = nullify target start stop buffer := by
  have slots := loop_eq_nullify target (scanSlot_eq_nullify target)
  have last {first : Nat} (reached : first ≤ stop) : loopEnd 1 first stop = stop := by
    unfold loopEnd
    omega
  cases build with
  | avx512 layout =>
      have reached : loopEnd 8 start stop ≤ stop := by
        unfold loopEnd
        omega
      dsimp only [scan]
      rw [slots, last reached, loop_eq_nullify target (scanEight_eq_nullify target layout)]
      exact nullify_nullify target buffer (Nat.le_add_right _ _) reached
  | avx2 layout =>
      have reached : loopEnd 4 start stop ≤ stop := by
        unfold loopEnd
        omega
      dsimp only [scan]
      rw [slots, last reached, loop_eq_nullify target (scanFour_eq_nullify target layout)]
      exact nullify_nullify target buffer (Nat.le_add_right _ _) reached
  | scalar =>
      dsimp only [scan]
      rw [slots, last ordered]

end Scan

/-! ## The conduits -/

namespace Conduit

variable (inst : Instantiation)

/-- `invalidate_by_ptr` of `spsc_conduit`. -/
def invalidateByPtr (build : ScanBuild α) (target : α) (conduit : Conduit α) : Conduit α :=
  let h := conduit.physicalIngressGate
  let t := conduit.physicalEgressGate
  if h = t then conduit
  else
    let hIdx := inst.slotAt h
    let tIdx := inst.slotAt t
    if hIdx < tIdx then
      { conduit with buffer := scan build target hIdx tIdx conduit.buffer }
    else
      { conduit with
        buffer := scan build target 0 tIdx (scan build target tIdx inst.size conduit.buffer) }

/-- `invalidate_by_ptr` of `spsc_ring_conduit`, which has the same members and gates. -/
def ringInvalidateByPtr (build : ScanBuild α) (target : α) (conduit : Conduit α) : Conduit α :=
  let head := conduit.physicalIngressGate
  let tail := conduit.physicalEgressGate
  if head = tail then conduit
  else
    let tIdx := inst.slotAt tail
    let hIdx := inst.slotAt head
    if tIdx < hIdx then
      { conduit with buffer := scan build target tIdx hIdx conduit.buffer }
    else
      { conduit with
        buffer := scan build target 0 hIdx (scan build target hIdx inst.size conduit.buffer) }

omit [DecidableEq α] [Inhabited α]

/-- The consumer reloads the ingress gate where its shadow copy says that there is nothing. -/
def reload (conduit : Conduit α) : Conduit α :=
  if conduit.seemsEmpty then
    { conduit with cachedIngressCursor := conduit.physicalIngressGate }
  else conduit

/-- `try_pop` with no producer at work. -/
def tryPop (conduit : Conduit α) : Option (α × Conduit α) :=
  let conduit := conduit.reload
  if conduit.seemsEmpty then none
  else
    let cursor := conduit.localEgressCursor + 1
    some (conduit.buffer (inst.slotAt conduit.localEgressCursor),
      { conduit with localEgressCursor := cursor, physicalEgressGate := cursor })

/-- The items that a number of calls of `try_pop` return. -/
def drain : Nat → Conduit α → List α
  | 0, _ => []
  | pops + 1, conduit =>
      match conduit.tryPop inst with
      | none => []
      | some (item, rest) => item :: rest.drain pops

/-- The gates of a conduit between two calls: at most `Size` items are published, the consumer
stands at its gate, and its shadow copy is not ahead of the producer. -/
structure Published (conduit : Conduit α) : Prop where
  room : conduit.occupancy ≤ inst.size
  egress : conduit.localEgressCursor = conduit.physicalEgressGate
  shadow : conduit.egressDistance ≤ conduit.occupancy

end Conduit

/-- The free list of `spsc_pool`. -/
structure SpscPool (α : Type u) where
  freeRing : Conduit α

def SpscPool.invalidate (inst : Instantiation) (build : ScanBuild α) (ptr : α)
    (pool : SpscPool α) : SpscPool α :=
  { pool with freeRing := pool.freeRing.invalidateByPtr inst build ptr }

/-! ## Draining -/

section Drain

omit [DecidableEq α] [Inhabited α]

variable {inst : Instantiation} {conduit : Conduit α}

theorem outstanding_reload : conduit.reload.outstanding inst = conduit.outstanding inst := by
  unfold reload
  split <;> rfl

theorem Conduit.Published.reload (published : conduit.Published inst) :
    conduit.reload.Published inst ∧
      (conduit.reload.seemsEmpty = true ↔ conduit.reload.occupancy = 0) := by
  obtain ⟨room, egress, shadow⟩ := published
  unfold Conduit.reload
  by_cases empty : conduit.seemsEmpty = true
  · rw [if_pos empty]
    unfold seemsEmpty occupancy
    refine ⟨⟨room, egress, ?_⟩, ?_⟩
    · unfold egressDistance occupancy
      rw [egress]
    · rw [decide_eq_true_eq]
      bv_omega
  · rw [if_neg empty]
    refine ⟨⟨room, egress, shadow⟩, iff_of_false empty ?_⟩
    intro none
    apply empty
    unfold egressDistance at shadow
    unfold seemsEmpty
    rw [decide_eq_true_eq]
    bv_omega

/-- The items between the gates are the oldest one and those behind the next position. -/
theorem outstanding_cons (published : conduit.Published inst) (visible : conduit.seemsEmpty = false)
    (held : conduit.occupancy ≠ 0) :
    let next : Conduit α := { conduit with
      localEgressCursor := conduit.localEgressCursor + 1
      physicalEgressGate := conduit.localEgressCursor + 1 }
    next.Published inst ∧ conduit.outstanding inst =
      conduit.buffer (inst.slotAt conduit.localEgressCursor) :: next.outstanding inst := by
  intro next
  obtain ⟨room, egress, shadow⟩ := published
  have fewer : conduit.occupancy = next.occupancy + 1 := by
    unfold occupancy at held ⊢
    dsimp only [next]
    bv_omega
  refine ⟨⟨by omega, rfl, ?_⟩, ?_⟩
  · have nearer : conduit.egressDistance = next.egressDistance + 1 := by
      have apart := of_decide_eq_false visible
      unfold egressDistance
      dsimp only [next]
      bv_omega
    omega
  · unfold outstanding liveSlots
    rw [fewer, List.range_succ_eq_map, List.map_cons, List.map_cons, List.map_map, List.map_map,
      List.map_map]
    congr 1
    · rw [egress]
      exact congrArg (fun cursor => conduit.buffer (inst.slotAt cursor))
        (BitVec.add_zero conduit.physicalEgressGate)
    · apply List.map_congr_left
      intro offset _
      dsimp only [comp_apply, next]
      rw [egress, Nat.succ_eq_one_add, BitVec.ofNat_add, ← BitVec.add_assoc]
      rfl

/-- Popping hands out the oldest item between the gates. -/
theorem outstanding_tryPop (published : conduit.Published inst) :
    (conduit.outstanding inst = [] ∧ conduit.tryPop inst = none) ∨
      ∃ item rest, conduit.tryPop inst = some (item, rest) ∧ rest.Published inst ∧
        conduit.outstanding inst = item :: rest.outstanding inst := by
  obtain ⟨reloaded, emptyIff⟩ := published.reload
  rw [← outstanding_reload]
  unfold tryPop
  by_cases empty : conduit.reload.seemsEmpty = true
  · left
    have none := emptyIff.mp empty
    constructor
    · unfold outstanding liveSlots
      rw [none]
      rfl
    · rw [if_pos empty]
  · right
    obtain ⟨next, items⟩ := outstanding_cons reloaded (Bool.not_eq_true _ ▸ empty)
      (fun none => empty (emptyIff.mpr none))
    rw [if_neg empty]
    exact ⟨_, _, rfl, next, items⟩

/-- Popping again and again hands out the items between the gates. -/
theorem drain_eq_take (pops : Nat) (published : conduit.Published inst) :
    conduit.drain inst pops = (conduit.outstanding inst).take pops := by
  induction pops generalizing conduit with
  | zero => rfl
  | succ pops ih =>
      unfold drain
      rcases outstanding_tryPop published with ⟨none, stops⟩ | ⟨item, rest, pops, next, items⟩
      · rw [none, stops, List.take_nil]
      · rw [pops, items, List.take_succ_cons, ← ih next]

end Drain

/-! ## The occupied slots -/

section Occupied

omit [DecidableEq α] [Inhabited α]

variable (inst : Instantiation) (conduit : Conduit α)

/-- A cursor a number of positions further on. -/
theorem slotAt_add (cursor : Cursor) (offset : Nat) :
    inst.slotAt (cursor + BitVec.ofNat 64 offset) = (inst.slotAt cursor + offset) % inst.size := by
  have stored : cursor = BitVec.ofNat 64 cursor.toNat := BitVec.eq_of_toNat_eq (by simp)
  rw [stored, ← BitVec.ofNat_add, Instantiation.slotAt_ofNat, Instantiation.slotAt_ofNat,
    Nat.mod_add_mod]

theorem slotAt_lt (cursor : Cursor) : inst.slotAt cursor < inst.size := by
  have stored : cursor = BitVec.ofNat 64 cursor.toNat := BitVec.eq_of_toNat_eq (by simp)
  rw [stored, Instantiation.slotAt_ofNat]
  exact Nat.mod_lt _ (Nat.lt_of_lt_of_le Nat.two_pos inst.two_le_size)

theorem slotAt_ingress : inst.slotAt conduit.physicalIngressGate =
    (inst.slotAt conduit.physicalEgressGate + conduit.occupancy) % inst.size := by
  rw [← slotAt_add]
  congr 1
  unfold occupancy
  bv_omega

/-- Where the occupied slots lie: between the slots of the gates if these are in order, and on
the two sides of the free slots if they are not. -/
theorem mem_liveSlots {slot : Nat} (room : conduit.occupancy ≤ inst.size)
    (live : slot ∈ conduit.liveSlots inst) :
    slot < inst.size ∧
      (inst.slotAt conduit.physicalEgressGate < inst.slotAt conduit.physicalIngressGate →
        inst.slotAt conduit.physicalEgressGate ≤ slot ∧
          slot < inst.slotAt conduit.physicalIngressGate) ∧
      (inst.slotAt conduit.physicalIngressGate < inst.slotAt conduit.physicalEgressGate →
        slot < inst.slotAt conduit.physicalIngressGate ∨
          inst.slotAt conduit.physicalEgressGate ≤ slot) := by
  obtain ⟨offset, inside, rfl⟩ := List.mem_map.mp live
  rw [List.mem_range] at inside
  have first := slotAt_lt inst conduit.physicalEgressGate
  rw [slotAt_add, slotAt_ingress]
  generalize inst.slotAt conduit.physicalEgressGate = start at first ⊢
  have wrap {count : Nat} (few : count ≤ inst.size) : (start + count) % inst.size =
      if start + count < inst.size then start + count else start + count - inst.size := by
    split
    next fits => exact Nat.mod_eq_of_lt fits
    next beyond =>
      rw [Nat.mod_eq_sub_mod (Nat.le_of_not_lt beyond), Nat.mod_eq_of_lt (by omega)]
  rw [wrap (by omega), wrap room]
  split <;> split <;> omega

end Occupied

/-! ## Invalidation -/

section Invalidation

variable (inst : Instantiation) (build : ScanBuild α) (target : α) (conduit : Conduit α)

/-- `after` is `before` with the target taken out of the occupied positions. -/
structure NullsLive (before after : Conduit α) : Prop where
  positions : ∀ offset < before.occupancy,
    after.buffer (inst.slotAt (before.physicalEgressGate + BitVec.ofNat 64 offset)) = nulled target
        (before.buffer (inst.slotAt (before.physicalEgressGate + BitVec.ofNat 64 offset)))
  drained : ∀ pops, after.drain inst pops = (before.drain inst pops).map (nulled target)

/-- The occupied slots go over the end of the ring, and the target is among them. -/
def Conduit.overlooks : Prop :=
  inst.slotAt conduit.physicalIngressGate < inst.slotAt conduit.physicalEgressGate ∧
    target ∈ conduit.outstanding inst ∧ target ≠ default

variable {inst conduit}

/-- Slots that are scanned in all their occupied positions. -/
theorem outstanding_nullify {start stop : Nat}
    (covers : ∀ slot ∈ conduit.liveSlots inst, start ≤ slot ∧ slot < stop) :
    { conduit with buffer := nullify target start stop conduit.buffer }.outstanding inst =
      (conduit.outstanding inst).map (nulled target) := by
  unfold outstanding
  rw [List.map_map]
  apply List.map_congr_left
  intro slot live
  obtain ⟨low, high⟩ := covers slot live
  exact nullify_inside target conduit.buffer low high

omit [DecidableEq α] [Inhabited α] in
theorem outstanding_of_gates (same : conduit.physicalIngressGate = conduit.physicalEgressGate) :
    conduit.outstanding inst = [] := by
  unfold outstanding liveSlots occupancy
  rw [same, BitVec.sub_self]
  rfl

section

variable (room : conduit.occupancy ≤ inst.size)
include room

theorem outstanding_ringInvalidateByPtr :
    (conduit.ringInvalidateByPtr inst build target).outstanding inst =
      (conduit.outstanding inst).map (nulled target) := by
  have live := fun slot (member : slot ∈ conduit.liveSlots inst) =>
    mem_liveSlots inst conduit room member
  have last := slotAt_lt inst conduit.physicalIngressGate
  unfold ringInvalidateByPtr
  dsimp only
  split
  next same => rw [outstanding_of_gates same, List.map_nil]
  next =>
    split
    next ordered =>
      rw [scan_eq_nullify target build ordered.le]
      exact outstanding_nullify target fun slot member => (live slot member).2.1 ordered
    next =>
      rw [scan_eq_nullify target build last.le, scan_eq_nullify target build (Nat.zero_le _),
        nullify_nullify_before target _ (Nat.zero_le _) last.le]
      exact outstanding_nullify target fun slot member =>
        ⟨Nat.zero_le slot, (live slot member).1⟩

/-- Where the occupied slots do not go over the end of the ring, all slots are scanned. -/
theorem outstanding_invalidateByPtr
    (ordered : ¬inst.slotAt conduit.physicalIngressGate < inst.slotAt conduit.physicalEgressGate) :
    (conduit.invalidateByPtr inst build target).outstanding inst =
      (conduit.outstanding inst).map (nulled target) := by
  have last := slotAt_lt inst conduit.physicalEgressGate
  unfold invalidateByPtr
  dsimp only
  split
  next same => rw [outstanding_of_gates same, List.map_nil]
  next =>
    rw [scan_eq_nullify target build last.le, scan_eq_nullify target build (Nat.zero_le _),
      nullify_nullify_before target _ (Nat.zero_le _) last.le]
    exact outstanding_nullify target fun slot member =>
      ⟨Nat.zero_le slot, (mem_liveSlots inst conduit room member).1⟩

/-- Where they do, only free slots are scanned. -/
theorem outstanding_invalidateByPtr_of_wrapped
    (wrapped : inst.slotAt conduit.physicalIngressGate < inst.slotAt conduit.physicalEgressGate) :
    (conduit.invalidateByPtr inst build target).outstanding inst = conduit.outstanding inst := by
  unfold invalidateByPtr
  dsimp only
  split
  next => rfl
  next =>
    rw [scan_eq_nullify target build wrapped.le]
    apply List.map_congr_left
    intro slot member
    have free := (mem_liveSlots inst conduit room member).2.2 wrapped
    exact nullify_outside target conduit.buffer free

end

theorem published_invalidateByPtr (published : conduit.Published inst) :
    (conduit.invalidateByPtr inst build target).Published inst := by
  obtain ⟨room, egress, shadow⟩ := published
  unfold invalidateByPtr
  dsimp only
  split
  next => exact ⟨room, egress, shadow⟩
  next => split <;> exact ⟨room, egress, shadow⟩

/-- A conduit with the same gates has the target taken out if the items between them have. -/
theorem nullsLive_of_outstanding {after : Conduit α} (published : conduit.Published inst)
    (afterPublished : after.Published inst) (egress : after.liveSlots inst = conduit.liveSlots inst)
    (items : after.outstanding inst = (conduit.outstanding inst).map (nulled target)) :
    NullsLive inst target conduit after where
  positions offset inside := by
    unfold outstanding at items
    rw [egress, List.map_map] at items
    exact List.map_inj_left.mp items _
      (List.mem_map.mpr ⟨offset, List.mem_range.mpr inside, rfl⟩)
  drained pops := by
    rw [drain_eq_take pops afterPublished, drain_eq_take pops published, items, List.map_take]

theorem liveSlots_invalidateByPtr :
    (conduit.invalidateByPtr inst build target).liveSlots inst = conduit.liveSlots inst := by
  unfold invalidateByPtr
  dsimp only
  split
  next => rfl
  next => split <;> rfl

/-- A target between the gates is taken out only if it is no longer there. -/
theorem outstanding_of_nullsLive {after : Conduit α}
    (egress : after.liveSlots inst = conduit.liveSlots inst)
    (nulls : NullsLive inst target conduit after) :
    after.outstanding inst = (conduit.outstanding inst).map (nulled target) := by
  unfold outstanding
  rw [egress, List.map_map]
  apply List.map_congr_left
  intro slot live
  obtain ⟨offset, inside, rfl⟩ := List.mem_map.mp live
  exact nulls.positions offset (List.mem_range.mp inside)

/-- `invalidate_by_ptr` of the conduit, and with it `invalidate` of the pool, takes the target out
of the occupied positions as the ring conduit does, unless it overlooks it. -/
theorem nullsLive_iff (inst : Instantiation) (build : ScanBuild α) (target : α)
    (conduit : Conduit α) (published : conduit.Published inst) :
    (NullsLive inst target conduit (conduit.invalidateByPtr inst build target) ∧
      NullsLive inst target conduit
        ((SpscPool.mk conduit).invalidate inst build target).freeRing ∧
      (conduit.ringInvalidateByPtr inst build target).outstanding inst =
        (conduit.invalidateByPtr inst build target).outstanding inst) ↔
      ¬conduit.overlooks inst target := by
  have live : (conduit.invalidateByPtr inst build target).liveSlots inst =
      conduit.liveSlots inst := liveSlots_invalidateByPtr build target
  constructor
  · rintro ⟨nulls, -, -⟩ ⟨wrapped, held, other⟩
    have items := outstanding_of_nullsLive target live nulls
    rw [outstanding_invalidateByPtr_of_wrapped build target published.room wrapped] at items
    rw [items, List.mem_map] at held
    obtain ⟨item, -, same⟩ := held
    unfold nulled at same
    split at same
    next => exact other same.symm
    next differs => exact differs same
  · intro sees
    have items : (conduit.invalidateByPtr inst build target).outstanding inst =
        (conduit.outstanding inst).map (nulled target) := by
      by_cases wrapped :
        inst.slotAt conduit.physicalIngressGate < inst.slotAt conduit.physicalEgressGate
      · rw [outstanding_invalidateByPtr_of_wrapped build target published.room wrapped]
        refine ((List.map_congr_left ?_).trans (List.map_id _)).symm
        intro item member
        unfold nulled
        split
        next same =>
          by_contra differs
          exact sees ⟨wrapped, same ▸ member, fun blank => differs (same.trans blank).symm⟩
        next => rfl
      · exact outstanding_invalidateByPtr build target published.room wrapped
    have nulls := nullsLive_of_outstanding target published
      (published_invalidateByPtr build target published) live items
    refine ⟨nulls, nulls, ?_⟩
    rw [outstanding_ringInvalidateByPtr build target published.room, items]

/-- The vector builds of both conduits do what the loop over single slots does. -/
theorem invalidateByPtr_of_build (inst : Instantiation) (build : ScanBuild α) (target : α)
    (conduit : Conduit α) :
    conduit.invalidateByPtr inst build target = conduit.invalidateByPtr inst .scalar target ∧
      conduit.ringInvalidateByPtr inst build target =
        conduit.ringInvalidateByPtr inst .scalar target := by
  have same {start stop : Nat} (ordered : start ≤ stop) (buffer : Nat → α) :
      scan build target start stop buffer = scan .scalar target start stop buffer := by
    rw [scan_eq_nullify target build ordered, scan_eq_nullify target .scalar ordered]
  have inside (cursor : Cursor) := Nat.le_of_lt (slotAt_lt inst cursor)
  unfold Conduit.invalidateByPtr Conduit.ringInvalidateByPtr
  constructor <;> dsimp only <;> split_ifs with empty ordered
  · rfl
  · rw [same (Nat.le_of_lt ordered)]
  · rw [same (inside _), same (Nat.zero_le _)]
  · rfl
  · rw [same (Nat.le_of_lt ordered)]
  · rw [same (inside _), same (Nat.zero_le _)]

end Invalidation

/-- A pointer is its address, and the null pointer all zeros. -/
def pointers : EightBytes (BitVec 64) := ⟨id, id, fun _ => rfl, rfl⟩

/-- Two pointers in a ring of four slots, from a position on. -/
def twoPointers (first : Cursor) : Conduit (BitVec 64) where
  buffer slot := if slot = (first.toNat % 4) then 0xDEAD else 0xBEEF
  localIngressCursor := first + 2
  physicalIngressGate := first + 2
  cachedEgressCursor := first
  localEgressCursor := first
  physicalEgressGate := first
  cachedIngressCursor := first + 2

def fourSlots : Instantiation := ⟨4, by decide⟩

/-- Two pointers that do not go over the end of the ring. -/
theorem nullsLive_iff_ordered :
    ((twoPointers 1).invalidateByPtr fourSlots (.avx512 pointers) 0xDEAD).drain fourSlots 3 =
        [0, 0xBEEF] ∧
      NullsLive fourSlots 0xDEAD (twoPointers 1)
        ((twoPointers 1).invalidateByPtr fourSlots (.avx512 pointers) 0xDEAD) :=
  ⟨by decide +kernel, ((nullsLive_iff fourSlots (.avx512 pointers) 0xDEAD (twoPointers 1)
      ⟨by decide, rfl, by decide⟩).mpr (by
        rintro ⟨wrapped, -⟩
        revert wrapped
        decide)).1⟩

/-- Two pointers in the slots 3 and 0: the first one is still popped after it was invalidated,
and the ring conduit takes it out. -/
theorem not_nullsLive_wrapped :
    ¬NullsLive fourSlots 0xDEAD (twoPointers 3)
        ((twoPointers 3).invalidateByPtr fourSlots (.avx512 pointers) 0xDEAD) ∧
      ((twoPointers 3).invalidateByPtr fourSlots (.avx512 pointers) 0xDEAD).drain fourSlots 3 =
        [0xDEAD, 0xBEEF] ∧
      ((twoPointers 3).ringInvalidateByPtr fourSlots (.avx512 pointers) 0xDEAD).drain fourSlots 3 =
        [0, 0xBEEF] := by
  refine ⟨fun nulls => ?_, by decide +kernel, by decide +kernel⟩
  have popped := nulls.drained 3
  revert popped
  decide +kernel

end SlabFlux.Core.SpscConduit
