import SlabFlux.Core.MpmcConduit.Lane

/-!
# The lane's slot-phase invariant

Positions are the natural numbers behind the 64-bit tickets.  At any moment a
slot serves one position, its round: every earlier position of the slot has been
popped and released, every later one is still unclaimed.  The slot's ticket is
the round itself until the item is published, and the round plus one from then
until the pop releases the slot to the next round.

Operations stopped between their claim and their publication are tied to the
round of their slot, and no two of them share a position.
-/

namespace SlabFlux.Core.MpmcConduit

universe u v

variable {Thread : Type u} {α : Type v} {position : Nat}

/-- The position a push operation has claimed and not yet published. -/
def Pc.pushing : Pc α → Option Ticket
  | .pushWrite _ pos => some pos
  | .pushPublish pos => some pos
  | _ => none

/-- The position a pop operation has claimed and not yet released. -/
def Pc.popping : Pc α → Option Ticket
  | .popRead pos => some pos
  | .popPublish pos _ => some pos
  | _ => none

/-- What a thread's local position means.  Positions read from a gate may be
stale; a ticket that matched a stale position shows that the slot's round has
reached it; a claimed position is the slot's round. -/
def ThreadOk (capacity : Capacity) (round : Nat → Nat) (s : State Thread α) :
    Pc α → Prop
  | .pushLoadTicket _ pos => ∃ n ≤ s.pushes.length, pos = BitVec.ofNat 64 n
  | .pushClaim _ pos => ∃ n ≤ s.pushes.length, pos = BitVec.ofNat 64 n ∧
      n ≤ round (n % capacity.size)
  | .pushWrite item pos => ∃ n < s.pushes.length, pos = BitVec.ofNat 64 n ∧
      round (n % capacity.size) = n ∧
      s.sequences (n % capacity.size) = BitVec.ofNat 64 n ∧
      s.pushes[n]? = some item
  | .pushPublish pos => ∃ n < s.pushes.length, pos = BitVec.ofNat 64 n ∧
      round (n % capacity.size) = n ∧
      s.sequences (n % capacity.size) = BitVec.ofNat 64 n ∧
      s.pushes[n]? = some (s.data (n % capacity.size))
  | .popLoadTicket pos => ∃ n ≤ s.claimedPops, pos = BitVec.ofNat 64 n
  | .popClaim pos => ∃ n ≤ s.claimedPops, pos = BitVec.ofNat 64 n ∧
      n ≤ round (n % capacity.size) ∧
      (round (n % capacity.size) = n → s.sequences (n % capacity.size) = BitVec.ofNat 64 (n + 1))
  | .popRead pos => ∃ n < s.claimedPops, pos = BitVec.ofNat 64 n ∧
      round (n % capacity.size) = n
  | .popPublish pos item => ∃ n < s.claimedPops, pos = BitVec.ofNat 64 n ∧
      round (n % capacity.size) = n ∧ s.pushes[n]? = some item
  | _ => True

/-- The slot-phase invariant for a given assignment of rounds to slots. -/
structure Invariant (capacity : Capacity) (round : Nat → Nat) (s : State Thread α) : Prop where
  ingress : s.physicalIngressGate = BitVec.ofNat 64 s.pushes.length
  egress : s.physicalEgressGate = BitVec.ofNat 64 s.claimedPops
  ordered : s.claimedPops ≤ s.pushes.length
  congruent : ∀ slot < capacity.size, round slot % capacity.size = slot
  round_lt : ∀ slot < capacity.size, round slot < s.claimedPops + capacity.size
  le_round : ∀ slot < capacity.size, s.pushes.length ≤ round slot + capacity.size
  ticket : ∀ slot < capacity.size, s.sequences slot = BitVec.ofNat 64 (round slot) ∨
      s.sequences slot = BitVec.ofNat 64 (round slot + 1) ∧
        s.pushes[round slot]? = some (s.data slot)
  taken : ∀ slot < capacity.size, round slot < s.claimedPops →
    s.sequences slot = BitVec.ofNat 64 (round slot + 1)
  popped : ∀ position, position ∈ s.pops.map Prod.fst ↔ position < round (position % capacity.size)
  popItem : ∀ entry ∈ s.pops, s.pushes[entry.1]? = some entry.2
  popOnce : (s.pops.map Prod.fst).Nodup
  threads : ∀ thread, ThreadOk capacity round s (s.pc thread)
  pushOwner : ∀ left right pos, (s.pc left).pushing = some pos →
    (s.pc right).pushing = some pos → left = right
  popOwner : ∀ left right pos, (s.pc left).popping = some pos →
    (s.pc right).popping = some pos → left = right
  popOwned : ∀ slot < capacity.size, round slot < s.claimedPops →
    ∃ thread, (s.pc thread).popping = some (BitVec.ofNat 64 (round slot))

/-- Fewer than `2 ^ 63` pushes have been claimed, so no ticket has wrapped. -/
def State.Unwrapped (s : State Thread α) : Prop := s.pushes.length < 2 ^ 63

theorem ofNat_inj {left right : Nat} (leftLt : left < 2 ^ 64) (rightLt : right < 2 ^ 64) :
    (BitVec.ofNat 64 left : Ticket) = BitVec.ofNat 64 right ↔ left = right := by
  constructor
  · intro equal
    have values := congrArg BitVec.toNat equal
    rwa [BitVec.toNat_ofNat, BitVec.toNat_ofNat, Nat.mod_eq_of_lt leftLt,
      Nat.mod_eq_of_lt rightLt] at values
  · intro equal
    rw [equal]

variable {capacity : Capacity} {round : Nat → Nat} {s : State Thread α}

theorem slot_lt (capacity : Capacity) (position : Nat) : position % capacity.size < capacity.size :=
  Nat.mod_lt _ (by have := capacity.two_le_size; omega)

/-- Two positions of one slot that are less than one turn apart are equal. -/
theorem eq_of_slot_eq {left right : Nat} (sameSlot : left % capacity.size = right % capacity.size)
    (leftNear : left < right + capacity.size)
    (rightNear : right < left + capacity.size) : left = right := by
  rcases Nat.lt_trichotomy left right with less | equal | greater
  · have distance := Nat.sub_mod_eq_zero_of_mod_eq sameSlot.symm
    rw [Nat.mod_eq_of_lt (by omega)] at distance
    omega
  · exact equal
  · have distance := Nat.sub_mod_eq_zero_of_mod_eq sameSlot
    rw [Nat.mod_eq_of_lt (by omega)] at distance
    omega

namespace Invariant

section

variable (invariant : Invariant capacity round s)
include invariant

theorem round_bound (unwrapped : s.Unwrapped) (position : Nat) :
    round (position % capacity.size) + 1 < 2 ^ 64 := by
  have upper := invariant.round_lt _ (slot_lt capacity position)
  have ordered := invariant.ordered
  have sizeLe := capacity.size_le
  unfold State.Unwrapped at unwrapped
  omega

/-- A slot's round is one of the slot's own positions. -/
theorem round_slot (position : Nat) :
    round (position % capacity.size) % capacity.size = position % capacity.size :=
  invariant.congruent _ (slot_lt capacity position)

/-- A ticket equal to a position of its slot, or one above it, shows the slot's round. -/
theorem round_eq_of_ticket {lag : Nat} (unwrapped : s.Unwrapped) (near : lag ≤ 1)
    (bound : position + lag < 2 ^ 64)
    (matched : s.sequences (position % capacity.size) = BitVec.ofNat 64 (position + lag)) :
    round (position % capacity.size) = position := by
  have sizePos := capacity.two_le_size
  have roundBound := invariant.round_bound unwrapped position
  have sameSlot := invariant.round_slot position
  rcases invariant.ticket _ (slot_lt capacity position) with fresh | ⟨full, _⟩
  · rw [fresh, ofNat_inj (by omega) bound] at matched
    exact eq_of_slot_eq sameSlot (by omega) (by omega)
  · rw [full, ofNat_inj roundBound bound] at matched
    exact eq_of_slot_eq sameSlot (by omega) (by omega)

/-- The slot a push claims next is free: its ticket is the position itself. -/
theorem claim_ready (reached : s.pushes.length ≤ round (s.pushes.length % capacity.size)) :
    round (s.pushes.length % capacity.size) = s.pushes.length ∧
      s.sequences (s.pushes.length % capacity.size) = BitVec.ofNat 64 s.pushes.length := by
  have upper := invariant.round_lt _ (slot_lt capacity s.pushes.length)
  have ordered := invariant.ordered
  have roundEq : round (s.pushes.length % capacity.size) = s.pushes.length :=
    eq_of_slot_eq (invariant.round_slot _) (by omega) (by omega)
  refine ⟨roundEq, ?_⟩
  rcases invariant.ticket _ (slot_lt capacity s.pushes.length) with fresh | ⟨_, item⟩
  · rw [fresh, roundEq]
  · rw [roundEq] at item
    simp at item

/-- The slot a pop claims next holds a published item. -/
theorem claim_full (unwrapped : s.Unwrapped)
    (reached : s.claimedPops ≤ round (s.claimedPops % capacity.size))
    (full : round (s.claimedPops % capacity.size) = s.claimedPops →
      s.sequences (s.claimedPops % capacity.size) = BitVec.ofNat 64 (s.claimedPops + 1)) :
    round (s.claimedPops % capacity.size) = s.claimedPops ∧
      s.sequences (s.claimedPops % capacity.size) = BitVec.ofNat 64 (s.claimedPops + 1) ∧
      s.claimedPops < s.pushes.length := by
  have upper := invariant.round_lt _ (slot_lt capacity s.claimedPops)
  have roundBound := invariant.round_bound unwrapped s.claimedPops
  have roundEq : round (s.claimedPops % capacity.size) = s.claimedPops :=
    eq_of_slot_eq (invariant.round_slot _) (by omega) (by omega)
  refine ⟨roundEq, full roundEq, ?_⟩
  rcases invariant.ticket _ (slot_lt capacity s.claimedPops) with fresh | ⟨_, item⟩
  · rw [full roundEq, ofNat_inj (by omega) (by omega)] at fresh
    omega
  · rw [roundEq] at item
    exact (List.getElem?_eq_some_iff.mp item).1

/-- A slot whose round is claimed by a pop holds the item pushed at that round. -/
theorem taken_item (unwrapped : s.Unwrapped) (claimed : position < s.claimedPops)
    (roundEq : round (position % capacity.size) = position) :
    s.pushes[position]? = some (s.data (position % capacity.size)) := by
  have bound := slot_lt capacity position
  have roundBound := invariant.round_bound unwrapped position
  have full := invariant.taken _ bound (by rw [roundEq]; exact claimed)
  rcases invariant.ticket _ bound with fresh | ⟨_, item⟩
  · rw [full, ofNat_inj (by omega) (by omega)] at fresh
    omega
  · rw [roundEq] at item
    exact item

end

end Invariant

theorem initial_invariant (capacity : Capacity) (data : Nat → α) :
    Invariant capacity (fun slot => slot) (initial data : State Thread α) where
  ingress := by simp [initial]
  egress := by simp [initial]
  ordered := by simp [initial]
  congruent := fun slot bound => Nat.mod_eq_of_lt bound
  round_lt := by simp [initial]
  le_round := by simp [initial]
  ticket := fun _ _ => Or.inl rfl
  taken := by simp [initial]
  popped := by
    intro position
    simp [initial, Nat.mod_le]
  popItem := by simp [initial]
  popOnce := by simp [initial]
  threads := fun _ => True.intro
  pushOwner := by simp [initial, Pc.pushing]
  popOwner := by simp [initial, Pc.popping]
  popOwned := by simp [initial]

end SlabFlux.Core.MpmcConduit
