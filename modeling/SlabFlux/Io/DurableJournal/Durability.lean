import SlabFlux.Io.DurableJournal.Model

/-!
# What a flush makes durable

The watermark counts commits, the flush counts completions.  Neither looks at which slot was
committed, whether its write could be queued, or what its completion reports; a flush that
failed leaves an entry that is later counted as a write.  While none of this goes wrong,
everything below the watermark has been written when a flush returns.
-/

namespace SlabFlux.Io.DurableJournal

open Lib State

variable {inst : Instantiation}

/-- When a flush has returned, every slot below the watermark has been written as a whole. -/
def Durable (inst : Instantiation) (state : State) : Prop :=
  state.phase = .returned → ∀ slot, (slot + 1) * inst.stride ≤ state.persistentHorizon.toNat →
      BitVec.ofNat 64 (slot * inst.stride) ∈ state.written

/-- A result that reports success, for a write of the whole slot. -/
def Operation.Succeeds (inst : Instantiation) (res : Int) : Operation → Prop
  | .write _ => res = inst.eventSize
  | .sync => 0 ≤ res

instance (inst : Instantiation) (res : Int) (operation : Operation) :
    Decidable (operation.Succeeds inst res) := by
  cases operation <;> unfold Operation.Succeeds <;> infer_instance

/-- The slot at an offset is committed in its turn and its write can be queued. -/
abbrev InTurn (state : State) (offset : BitVec 64) (granted : Bool) : Prop :=
  granted = true ∧ offset ∈ state.reserved ∧ offset = state.persistentHorizon

/-- The condition under which the counts mean what they should: slots are committed in the
order of their offsets, no submission is refused, and no operation fails. -/
def Healthy (inst : Instantiation) (state : State) : Move → Prop
  | .commitSlot offset granted => InTurn state offset granted
  | .commitLast granted =>
      InTurn state (state.writeCursor - BitVec.ofNat 64 inst.stride) granted
  | .awaitSync ok => ok = true
  | .complete index res =>
      ∀ operation ∈ state.inflight[index]?, operation.Succeeds inst res
  | _ => True

/-- The invariant.  `commits` and `polled` are the commits made and the completions
counted. -/
structure Sound (inst : Instantiation) (state : State) (commits polled : Nat) : Prop where
  horizon : state.persistentHorizon = BitVec.ofNat 64 (commits * inst.stride)
  bound : commits * inst.stride < 2 ^ 64
  submitted : state.submissionPulse = BitVec.ofNat 64 commits
  counted : state.completionPulse = BitVec.ofNat 64 polled
  inArena : ∀ offset ∈ state.reserved, offset.toNat < inst.journalSizeBytes
  progress : ∀ slot < commits, BitVec.ofNat 64 (slot * inst.stride) ∈ state.written ∨
    .write (BitVec.ofNat 64 (slot * inst.stride)) ∈ state.inflight
  balance : state.phase ≠ .awaiting →
    polled + state.inflight.length + state.completions.length = commits
  settled : state.phase = .acquiring ∨ state.phase = .returned →
    state.inflight = [] ∧ state.completions = []
  awaiting : state.phase = .awaiting → polled = commits ∧
    (state.inflight = [.sync] ∧ state.completions = [] ∨
      state.inflight = [] ∧ ∃ res : Int, 0 ≤ res ∧ state.completions = [⟨.sync, res⟩])

theorem sound_initial (inst : Instantiation) : Sound inst initial 0 0 where
  horizon := by
    rw [Nat.zero_mul]
    rfl
  bound := by
    rw [Nat.zero_mul]
    decide
  submitted := rfl
  counted := rfl
  inArena := by
    intro offset member
    cases member
  progress := by
    intro slot small
    cases small
  balance := fun _ => rfl
  settled := fun _ => ⟨rfl, rfl⟩
  awaiting := by
    intro awaiting
    cases awaiting

theorem Instantiation.stride_pos (inst : Instantiation) : 0 < inst.stride := by
  have positive := inst.eventSize_pos
  unfold stride
  omega

namespace Sound

variable {state : State} {commits polled : Nat}

theorem commits_lt (sound : Sound inst state commits polled) : commits < 2 ^ 64 :=
  Nat.lt_of_le_of_lt (Nat.le_mul_of_pos_right commits inst.stride_pos) sound.bound

theorem not_awaiting_of_isFree (free : state.isFree = true) : state.phase ≠ .awaiting := by
  intro awaiting
  rw [isFree, awaiting] at free
  cases free

section

variable (sound : Sound inst state commits polled)
include sound

/-- A call that does not touch the ring ends the time right behind a flush. -/
theorem toIdle (free : state.phase ≠ .awaiting) :
    Sound inst { state with phase := .idle } commits polled := by
  refine { sound with balance := fun _ => sound.balance free, settled := ?_, awaiting := ?_ }
  · rintro (acquiring | returned)
    · cases acquiring
    · cases returned
  · intro awaiting
    cases awaiting

theorem reserveSlot (free : state.isFree = true) :
    Sound inst (state.reserveSlot inst) commits polled := by
  have idle := sound.toIdle (not_awaiting_of_isFree free)
  unfold State.reserveSlot
  dsimp only
  split_ifs with exhausted
  · exact { idle with }
  · refine { idle with inArena := ?_ }
    intro offset member
    rcases List.mem_append.mp member with earlier | last
    · exact sound.inArena offset earlier
    · rw [List.mem_singleton] at last
      rw [last]
      exact Nat.lt_of_not_le exhausted

theorem commitSlot (free : state.isFree = true) {offset : BitVec 64} {granted : Bool}
    (inTurn : InTurn state offset granted) :
    Sound inst (state.commitSlot inst offset granted) (commits + 1) polled := by
  obtain ⟨rfl, reserved, atHorizon⟩ := inTurn
  have balance := sound.balance (not_awaiting_of_isFree free)
  have offset_eq : offset = BitVec.ofNat 64 (commits * inst.stride) :=
    atHorizon.trans sound.horizon
  have bound : (commits + 1) * inst.stride < 2 ^ 64 := by
    have inside := sound.inArena offset reserved
    have addressable := inst.addressable
    rw [offset_eq, BitVec.toNat_ofNat, Nat.mod_eq_of_lt sound.bound] at inside
    rw [Nat.succ_mul]
    change inst.journalSizeBytes + inst.stride ≤ 2 ^ 64 at addressable
    omega
  simp only [State.commitSlot, ↓reduceIte]
  refine { sound with
    horizon := ?_, bound := bound, submitted := ?_, progress := ?_, balance := ?_
    settled := ?_, awaiting := ?_ }
  · rw [sound.horizon, Nat.succ_mul, BitVec.ofNat_add]
  · rw [sound.submitted, BitVec.ofNat_add]
    rfl
  · intro slot small
    rcases Nat.lt_succ_iff_lt_or_eq.mp small with earlier | rfl
    · rcases sound.progress slot earlier with written | queued
      · exact Or.inl written
      · exact Or.inr (List.mem_append_left _ queued)
    · exact Or.inr (offset_eq ▸ List.mem_append_right _ (List.mem_singleton_self _))
  · intro _
    dsimp only
    rw [List.length_append, List.length_singleton]
    omega
  · rintro (acquiring | returned)
    · cases acquiring
    · cases returned
  · intro awaiting
    cases awaiting

theorem pollCompletions (busy : state.phase ≠ .awaiting) :
    ∃ polled', Sound inst state.pollCompletions commits polled' := by
  have balance := sound.balance busy
  refine ⟨polled + min 32 state.completions.length, ?_⟩
  unfold State.pollCompletions
  refine { sound with counted := ?_, balance := ?_, settled := ?_, awaiting := ?_ }
  · rw [sound.counted, BitVec.ofNat_add]
  · intro _
    dsimp only
    rw [List.length_drop]
    omega
  · intro settled
    obtain ⟨inflight, completions⟩ := sound.settled settled
    refine ⟨inflight, ?_⟩
    dsimp only
    rw [completions, List.drop_nil]
  · intro awaiting
    exact absurd awaiting busy

theorem drain (draining : state.phase = .draining) :
    ∃ polled', Sound inst state.drain commits polled' := by
  have busy : state.phase ≠ .awaiting := by
    rw [draining]
    decide
  unfold State.drain
  split_ifs with waiting
  · exact sound.pollCompletions busy
  · have balance := sound.balance busy
    have few := sound.commits_lt
    have all : commits ≤ polled := by
      rw [sound.counted, sound.submitted, BitVec.lt_def, BitVec.toNat_ofNat,
        BitVec.toNat_ofNat, Nat.mod_eq_of_lt few, Nat.mod_eq_of_lt (by omega)] at waiting
      exact Nat.le_of_not_lt waiting
    refine ⟨polled, { sound with balance := fun _ => balance, settled := ?_, awaiting := ?_ }⟩
    · intro _
      have inflight : state.inflight.length = 0 := by omega
      have completions : state.completions.length = 0 := by omega
      exact ⟨List.length_eq_zero_iff.mp inflight, List.length_eq_zero_iff.mp completions⟩
    · intro awaiting
      cases awaiting

theorem acquire (acquiring : state.phase = .acquiring) (granted : Bool) :
    ∃ polled', Sound inst (state.acquire granted) commits polled' := by
  have busy : state.phase ≠ .awaiting := by
    rw [acquiring]
    decide
  unfold State.acquire
  split_ifs
  · obtain ⟨inflight, completions⟩ := sound.settled (Or.inl acquiring)
    have balance := sound.balance busy
    rw [inflight, completions] at balance
    refine ⟨polled, { sound with
      progress := ?_, balance := ?_, settled := ?_, awaiting := ?_ }⟩
    · intro slot small
      rcases sound.progress slot small with written | queued
      · exact Or.inl written
      · exact Or.inr (List.mem_append_left _ queued)
    · intro busy
      exact absurd rfl busy
    · rintro (acquiring | returned)
      · cases acquiring
      · cases returned
    · intro _
      rw [inflight]
      exact ⟨balance, Or.inl ⟨rfl, completions⟩⟩
  · exact sound.pollCompletions busy

theorem awaitSync (awaiting : state.phase = .awaiting) :
    Sound inst (state.awaitSync true) commits polled := by
  obtain ⟨all, pending | ⟨inflight, res, succeeded, completions⟩⟩ := sound.awaiting awaiting
  · rw [State.awaitSync, pending.2]
    exact sound
  · rw [State.awaitSync, completions]
    dsimp only
    rw [if_neg (Int.not_lt.mpr succeeded)]
    refine { sound with balance := ?_, settled := fun _ => ⟨inflight, rfl⟩, awaiting := ?_ }
    · intro _
      rw [inflight, all]
      rfl
    · intro awaiting
      cases awaiting

theorem complete (index : Nat) (res : Int) (healthy : Healthy inst state (.complete index res)) :
    Sound inst (state.complete inst index res) commits polled := by
  unfold State.complete
  split
  next => exact sound
  next operation queued =>
    have succeeds : operation.Succeeds inst res := healthy operation queued
    have inside := (List.getElem?_eq_some_iff.mp queued).1
    refine { sound with progress := ?_, balance := ?_, settled := ?_, awaiting := ?_ }
    · intro slot small
      rcases sound.progress slot small with written | pending
      · refine Or.inl ?_
        split
        · split_ifs
          · exact List.mem_append_left _ written
          · exact written
        · exact written
      · by_cases sameWrite : operation = .write (BitVec.ofNat 64 (slot * inst.stride))
        · refine Or.inl ?_
          subst sameWrite
          dsimp only
          rw [if_pos (show res = inst.eventSize from succeeds)]
          exact List.mem_append_right _ (List.mem_singleton_self _)
        · refine Or.inr (List.mem_eraseIdx_iff_getElem?.mpr ?_)
          obtain ⟨other, found⟩ := List.getElem?_of_mem pending
          refine ⟨other, ?_, found⟩
          rintro rfl
          rw [queued] at found
          exact sameWrite (Option.some.inj found)
    · intro busy
      rw [List.length_append, List.length_singleton, List.length_eraseIdx_of_lt inside]
      have balance := sound.balance busy
      omega
    · intro settled
      obtain ⟨inflight, -⟩ := sound.settled settled
      rw [inflight] at queued
      cases queued
    · intro awaiting
      obtain ⟨all, ⟨inflight, completions⟩ | ⟨inflight, -⟩⟩ := sound.awaiting awaiting
      · rw [inflight, List.getElem?_singleton] at queued
        split_ifs at queued with first
        cases queued
        subst first
        refine ⟨all, Or.inr ⟨?_, res, succeeds, ?_⟩⟩
        · rw [inflight]
          rfl
        · rw [completions]
          rfl
      · rw [inflight] at queued
        cases queued

theorem step (move : Move) (healthy : Healthy inst state move) :
    ∃ commits' polled', Sound inst (state.step inst move) commits' polled' := by
  cases move with
  | reserveSlot =>
    rw [State.step]
    split_ifs with free
    · exact ⟨commits, polled, sound.reserveSlot free⟩
    · exact ⟨commits, polled, sound⟩
  | commitSlot offset granted =>
    rw [State.step]
    split_ifs with free
    · exact ⟨commits + 1, polled, sound.commitSlot free healthy⟩
    · exact ⟨commits, polled, sound⟩
  | commitLast granted =>
    rw [State.step]
    split_ifs with free
    · exact ⟨commits + 1, polled, sound.commitSlot free healthy⟩
    · exact ⟨commits, polled, sound⟩
  | pollCompletions =>
    rw [State.step]
    split_ifs with free
    · obtain ⟨polled', polling⟩ := sound.pollCompletions (not_awaiting_of_isFree free)
      exact ⟨commits, polled', polling.toIdle (not_awaiting_of_isFree free)⟩
    · exact ⟨commits, polled, sound⟩
  | forceFlush =>
    rw [State.step]
    split_ifs with free
    · have balance := sound.balance (not_awaiting_of_isFree free)
      refine ⟨commits, polled, { sound with
        balance := fun _ => balance, settled := ?_, awaiting := ?_ }⟩
      · rintro (acquiring | returned)
        · cases acquiring
        · cases returned
      · intro awaiting
        cases awaiting
    · exact ⟨commits, polled, sound⟩
  | drain =>
    rw [State.step]
    split_ifs with draining
    · exact ⟨commits, sound.drain draining⟩
    · exact ⟨commits, polled, sound⟩
  | acquire granted =>
    rw [State.step]
    split_ifs with acquiring
    · exact ⟨commits, sound.acquire acquiring granted⟩
    · exact ⟨commits, polled, sound⟩
  | awaitSync ok =>
    obtain rfl : ok = true := healthy
    rw [State.step]
    split_ifs with awaiting
    · exact ⟨commits, polled, sound.awaitSync awaiting⟩
    · exact ⟨commits, polled, sound⟩
  | complete index res => exact ⟨commits, polled, sound.complete index res healthy⟩

theorem durable : Durable inst state := by
  intro returned slot below
  have inside : slot < commits := by
    rw [sound.horizon, BitVec.toNat_ofNat, Nat.mod_eq_of_lt sound.bound] at below
    exact Nat.lt_of_mul_lt_mul_right (Nat.lt_of_lt_of_le
      (Nat.mul_lt_mul_of_pos_right (Nat.lt_succ_self slot) inst.stride_pos) below)
  rcases sound.progress slot inside with written | queued
  · exact written
  · rw [(sound.settled (Or.inr returned)).1] at queued
    cases queued

end

end Sound

/-- While the counts mean what they should, a flush makes everything below the watermark
durable. -/
theorem durable_of_healthy (inst : Instantiation) (schedule : List Move)
    (healthy : Admissible (step inst) (Healthy inst) initial schedule) :
    Durable inst (execute (step inst) initial schedule) := by
  have preserved : ∀ state move, (∃ commits polled, Sound inst state commits polled) →
      Healthy inst state move →
      ∃ commits polled, Sound inst (state.step inst move) commits polled := by
    rintro state move ⟨commits, polled, sound⟩ healthy
    exact sound.step move healthy
  obtain ⟨commits, polled, sound⟩ := execute_invariant_of_admissible preserved
    ⟨0, 0, sound_initial inst⟩ healthy
  exact sound.durable

instance (inst : Instantiation) (state : State) (move : Move) :
    Decidable (Healthy inst state move) := by
  cases move <;> unfold Healthy <;> infer_instance

/-- Events of eight bytes, in a journal of eight slots. -/
def smallJournal : Instantiation where
  eventSize := 8
  journalSizeBytes := 4096
  eventSize_pos := by decide
  addressable := by decide

/-- A flush whose `fsync` succeeds, after a number of rounds of its first loop. -/
def flush (rounds : Nat) : List Move :=
  .forceFlush :: List.replicate rounds .drain ++ [.acquire true, .complete 0 0, .awaitSync true]

/-- Two slots, completed in the other order. -/
def twoSlots : List Move :=
  [.reserveSlot, .commitLast true, .reserveSlot, .commitLast true, .complete 1 8, .complete 0 8]
    ++ flush 2

theorem durable_of_healthy_twoSlots :
    let state := execute (step smallJournal) initial twoSlots
    state.phase = .returned ∧ state.persistentHorizon = 1024 ∧ Durable smallJournal state :=
  ⟨by decide +kernel, by decide +kernel,
    durable_of_healthy smallJournal twoSlots (by decide +kernel)⟩

/-- A run that ends with a flush that has returned, above a slot that was not written. -/
theorem not_durable_of_unwritten {schedule : List Move}
    (unwritten : let state := execute (step smallJournal) initial schedule
      state.phase = .returned ∧ 512 ≤ state.persistentHorizon.toNat ∧ 0 ∉ state.written) :
    ¬Durable smallJournal (execute (step smallJournal) initial schedule) := by
  obtain ⟨returned, above, missing⟩ := unwritten
  intro durable
  exact missing (durable returned 0 above)

/-- The watermark passes a slot whose submission was refused, a slot whose write failed, a
slot that was skipped, and a slot that is still being written when an earlier flush has
failed. -/
theorem not_durable :
    ¬Durable smallJournal (execute (step smallJournal) initial
      ([.reserveSlot, .commitLast false] ++ flush 1)) ∧
    ¬Durable smallJournal (execute (step smallJournal) initial
      ([.reserveSlot, .commitLast true, .complete 0 (-5)] ++ flush 2)) ∧
    ¬Durable smallJournal (execute (step smallJournal) initial
      ([.reserveSlot, .reserveSlot, .commitSlot 512 true, .complete 0 8] ++ flush 2)) ∧
    ¬Durable smallJournal (execute (step smallJournal) initial
      ([.forceFlush, .drain, .acquire true, .complete 0 (-5), .awaitSync true, .reserveSlot,
        .commitLast true, .forceFlush, .drain, .drain, .acquire true, .complete 1 0,
        .awaitSync true])) :=
  ⟨not_durable_of_unwritten (by decide +kernel), not_durable_of_unwritten (by decide +kernel),
    not_durable_of_unwritten (by decide +kernel), not_durable_of_unwritten (by decide +kernel)⟩

end SlabFlux.Io.DurableJournal
