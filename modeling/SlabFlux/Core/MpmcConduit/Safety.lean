import SlabFlux.Core.MpmcConduit.Invariant

/-!
# Safety of the lane protocol

The five moves that change shared memory are treated one by one: the two claims,
the write of an item, its publication, and the release of a slot.  All other
moves only change the mover's program point.

Whole runs of a lane: any number of threads, any schedule of their atomic steps.
The only assumption is that fewer than `2 ^ 63` positions are claimed, which
holds of every run of fewer than `2 ^ 63` operations.
-/

namespace SlabFlux.Core.MpmcConduit

open Function

universe u v

variable {Thread : Type u} {α : Type v} {capacity : Capacity}
variable {round newRound : Nat → Nat} {s t : State Thread α}

/-- A thread's facts survive a change of shared memory that only extends the
history, only advances rounds, and leaves the slots of half-finished operations
alone. -/
theorem ThreadOk.transport {pc : Pc α} (ok : ThreadOk capacity round s pc)
    (pushes : s.pushes <+: t.pushes) (claimedPops : s.claimedPops ≤ t.claimedPops)
    (advance : ∀ n, round (n % capacity.size) ≤ newRound (n % capacity.size))
    (full : ∀ n, round (n % capacity.size) = n → newRound (n % capacity.size) = n →
      s.sequences (n % capacity.size) = BitVec.ofNat 64 (n + 1) →
      t.sequences (n % capacity.size) = BitVec.ofNat 64 (n + 1))
    (pushKept : ∀ n < s.pushes.length, pc.pushing = some (BitVec.ofNat 64 n) →
      round (n % capacity.size) = n →
      s.sequences (n % capacity.size) = BitVec.ofNat 64 n →
      newRound (n % capacity.size) = n ∧ t.sequences (n % capacity.size) = BitVec.ofNat 64 n ∧
        t.data (n % capacity.size) = s.data (n % capacity.size))
    (popKept : ∀ n < s.claimedPops, pc.popping = some (BitVec.ofNat 64 n) →
      round (n % capacity.size) = n → newRound (n % capacity.size) = n) :
    ThreadOk capacity newRound t pc := by
  have pushesLe := pushes.length_le
  have itemKept : ∀ {n : Nat} {item : α}, s.pushes[n]? = some item → t.pushes[n]? = some item := by
    intro n item found
    obtain ⟨more, equal⟩ := pushes
    rw [← equal, List.getElem?_append_left]
    · exact found
    · exact (List.getElem?_eq_some_iff.mp found).1
  cases pc with
  | idle last => exact True.intro
  | pushLoadGate item => exact True.intro
  | popLoadGate => exact True.intro
  | pushLoadTicket item pos =>
      obtain ⟨n, bound, posEq⟩ := ok
      exact ⟨n, bound.trans pushesLe, posEq⟩
  | pushClaim item pos =>
      obtain ⟨n, bound, posEq, reached⟩ := ok
      exact ⟨n, bound.trans pushesLe, posEq, reached.trans (advance n)⟩
  | pushWrite item pos =>
      obtain ⟨n, bound, posEq, roundEq, ticketEq, found⟩ := ok
      obtain ⟨newRoundEq, newTicketEq, _⟩ :=
        pushKept n bound (by rw [posEq]; rfl) roundEq ticketEq
      exact ⟨n, by omega, posEq, newRoundEq, newTicketEq, itemKept found⟩
  | pushPublish pos =>
      obtain ⟨n, bound, posEq, roundEq, ticketEq, found⟩ := ok
      obtain ⟨newRoundEq, newTicketEq, dataEq⟩ :=
        pushKept n bound (by rw [posEq]; rfl) roundEq ticketEq
      exact ⟨n, by omega, posEq, newRoundEq, newTicketEq, by rw [dataEq]; exact itemKept found⟩
  | popLoadTicket pos =>
      obtain ⟨n, bound, posEq⟩ := ok
      exact ⟨n, bound.trans claimedPops, posEq⟩
  | popClaim pos =>
      obtain ⟨n, bound, posEq, reached, isFull⟩ := ok
      have grown := advance n
      refine ⟨n, bound.trans claimedPops, posEq, reached.trans grown, ?_⟩
      intro newRoundEq
      have roundEq : round (n % capacity.size) = n := by omega
      exact full n roundEq newRoundEq (isFull roundEq)
  | popRead pos =>
      obtain ⟨n, bound, posEq, roundEq⟩ := ok
      exact ⟨n, by omega, posEq, popKept n bound (by rw [posEq]; rfl) roundEq⟩
  | popPublish pos item =>
      obtain ⟨n, bound, posEq, roundEq, found⟩ := ok
      exact ⟨n, by omega, posEq, popKept n bound (by rw [posEq]; rfl) roundEq, itemKept found⟩

/-- A thread's facts survive the growth of the history. -/
theorem ThreadOk.grow {pc : Pc α} (ok : ThreadOk capacity round s pc)
    (pushes : s.pushes <+: t.pushes) (claimedPops : s.claimedPops ≤ t.claimedPops)
    (sequences : t.sequences = s.sequences) (data : t.data = s.data) :
    ThreadOk capacity round t pc := by
  apply ok.transport pushes claimedPops (fun _ => Nat.le_refl _)
  · intro n _ _ isFull
    rw [sequences]
    exact isFull
  · intro n _ _ roundEq ticketEq
    rw [sequences, data]
    exact ⟨roundEq, ticketEq, rfl⟩
  · exact fun _ _ _ roundEq => roundEq

section Moves

variable [DecidableEq Thread]

section Claims

variable {claim : Pc α → Option Ticket} {pcs : Thread → Pc α} {thread : Thread} {pc : Pc α}
  {pos : Ticket}

/-- No two threads hold the same claim. -/
def Exclusive (claim : Pc α → Option Ticket) (pcs : Thread → Pc α) : Prop :=
  ∀ left right pos, claim (pcs left) = some pos → claim (pcs right) = some pos → left = right

/-- Claims stay exclusive when one thread moves to a program point whose claim,
if it has one, no other thread holds. -/
theorem unique_update (unique : Exclusive claim pcs)
    (fresh : ∀ pos, claim pc = some pos → ∀ other ≠ thread, claim (pcs other) ≠ some pos) :
    Exclusive claim (update pcs thread pc) := by
  intro left right pos leftOwns rightOwns
  by_cases leftSame : left = thread <;> by_cases rightSame : right = thread
  · rw [leftSame, rightSame]
  · subst leftSame
    rw [update_self] at leftOwns
    rw [update_of_ne rightSame] at rightOwns
    exact (fresh pos leftOwns right rightSame rightOwns).elim
  · subst rightSame
    rw [update_self] at rightOwns
    rw [update_of_ne leftSame] at leftOwns
    exact (fresh pos rightOwns left leftSame leftOwns).elim
  · rw [update_of_ne leftSame] at leftOwns
    rw [update_of_ne rightSame] at rightOwns
    exact unique left right pos leftOwns rightOwns

theorem unique_update_none (unique : Exclusive claim pcs) (none : claim pc = none) :
    Exclusive claim (update pcs thread pc) :=
  unique_update unique fun _ claims => absurd (none.symm.trans claims) (Option.some_ne_none _).symm

/-- A thread that does not hold the claim, moving anywhere, does not lose it. -/
theorem owned_update (owned : ∃ owner, claim (pcs owner) = some pos)
    (kept : claim (pcs thread) = some pos → claim pc = some pos) :
    ∃ owner, claim (update pcs thread pc owner) = some pos := by
  obtain ⟨owner, owns⟩ := owned
  refine ⟨owner, ?_⟩
  by_cases same : owner = thread
  · subst same
    rw [update_self]
    exact kept owns
  · rw [update_of_ne same]
    exact owns

theorem owned_update_none (none : claim (pcs thread) = none)
    (owned : ∃ owner, claim (pcs owner) = some pos) :
    ∃ owner, claim (update pcs thread pc owner) = some pos :=
  owned_update owned fun owns => absurd (none.symm.trans owns) (Option.some_ne_none _).symm

end Claims

section

variable (invariant : Invariant capacity round s)
include invariant

/-- A thread whose program point keeps its claim only moves locally. -/
theorem Invariant.goto (thread : Thread) {pc : Pc α} (ok : ThreadOk capacity round s pc)
    (pushing : pc.pushing = (s.pc thread).pushing) (popping : pc.popping = (s.pc thread).popping) :
    Invariant capacity round (s.goto thread pc) :=
  { invariant with
    threads := (forall_update_iff _ _).mpr
      ⟨ok.grow (List.prefix_refl _) (Nat.le_refl _) rfl rfl, fun other _ =>
        (invariant.threads other).grow (List.prefix_refl _) (Nat.le_refl _) rfl rfl⟩
    pushOwner := by
      apply unique_update invariant.pushOwner
      intro pos owns other different otherOwns
      rw [pushing] at owns
      exact different (invariant.pushOwner other thread pos otherOwns owns)
    popOwner := by
      apply unique_update invariant.popOwner
      intro pos owns other different otherOwns
      rw [popping] at owns
      exact different (invariant.popOwner other thread pos otherOwns owns)
    popOwned := by
      intro slot bound claimed
      apply owned_update (invariant.popOwned slot bound claimed)
      intro owns
      rw [popping, owns] }

/-- A successful exchange on the ingress gate claims the next position. -/
theorem Invariant.claimPush (unwrapped : s.Unwrapped) {thread : Thread} {item : α}
    (reached : s.pushes.length ≤ round (s.pushes.length % capacity.size))
    (unclaimed : (s.pc thread).popping = none) :
    Invariant capacity round
      { s.goto thread (.pushWrite item (BitVec.ofNat 64 s.pushes.length)) with
        physicalIngressGate := BitVec.ofNat 64 s.pushes.length + 1
        pushes := s.pushes ++ [item] } := by
  have ordered := invariant.ordered
  unfold State.Unwrapped at unwrapped
  obtain ⟨roundEq, ticketEq⟩ := invariant.claim_ready reached
  have freshPosition : ∀ other, (s.pc other).pushing ≠ some (BitVec.ofNat 64 s.pushes.length) := by
    intro other owns
    have ok := invariant.threads other
    cases pcEq : s.pc other <;> rw [pcEq] at ok owns <;>
      simp only [Pc.pushing, Option.some.injEq, reduceCtorEq] at owns
    all_goals
      obtain ⟨n, bound, posEq, _⟩ := ok
      rw [owns, ofNat_inj (by omega) (by omega)] at posEq
      omega
  exact { invariant with
    ingress := by
      rw [List.length_append, BitVec.ofNat_add]
      rfl
    ordered := by
      rw [List.length_append]
      exact ordered.trans (Nat.le_add_right _ _)
    le_round := by
      intro slot bound
      have lower := invariant.le_round slot bound
      rw [List.length_append, List.length_singleton]
      by_contra tooSmall
      -- only the claimed slot could be a whole turn behind
      have exact : s.pushes.length = round slot + capacity.size := by omega
      have sameSlot : s.pushes.length % capacity.size = slot := by
        rw [exact, Nat.add_mod_right]
        exact invariant.congruent slot bound
      rw [sameSlot] at roundEq
      omega
    ticket := by
      intro slot bound
      rcases invariant.ticket slot bound with fresh | ⟨full, found⟩
      · exact Or.inl fresh
      · refine Or.inr ⟨full, ?_⟩
        rw [List.getElem?_append_left (List.getElem?_eq_some_iff.mp found).1]
        exact found
    popItem := by
      intro entry member
      have found := invariant.popItem entry member
      rw [List.getElem?_append_left (List.getElem?_eq_some_iff.mp found).1]
      exact found
    threads := (forall_update_iff _ _).mpr
      ⟨⟨s.pushes.length, by simp, rfl, roundEq, ticketEq, by simp⟩, fun other _ =>
        (invariant.threads other).grow (List.prefix_append _ _) (Nat.le_refl _) rfl rfl⟩
    pushOwner := by
      apply unique_update invariant.pushOwner
      intro pos owns other _ otherOwns
      rw [← owns] at otherOwns
      exact freshPosition other otherOwns
    popOwner := unique_update_none invariant.popOwner rfl
    popOwned := by
      intro slot bound claimed
      apply owned_update (invariant.popOwned slot bound claimed)
      rw [unclaimed]
      intro owns
      simp at owns }

/-- The owner of a claimed position writes its item into the slot. -/
theorem Invariant.writeItem {thread : Thread} {item : α} {pos : Ticket}
    (writing : s.pc thread = .pushWrite item pos) :
    Invariant capacity round
      { s.goto thread (.pushPublish pos) with
        data := update s.data (capacity.slotAt pos) item } := by
  obtain ⟨n, bound, rfl, roundEq, ticketEq, found⟩ :=
    (writing ▸ invariant.threads thread :
      ThreadOk capacity round s (.pushWrite item pos))
  have owns : (s.pc thread).pushing = some (BitVec.ofNat 64 n) := by
    rw [writing]
    rfl
  exact { invariant with
    ticket := by
      intro slot slotBound
      rcases invariant.ticket slot slotBound with fresh | ⟨full, held⟩
      · exact Or.inl fresh
      · by_cases same : slot = n % capacity.size
        · subst same
          exact Or.inl (by rw [roundEq]; exact ticketEq)
        · refine Or.inr ⟨full, ?_⟩
          simpa [State.goto, same] using held
    threads := by
      refine (forall_update_iff _ _).mpr ⟨?_, fun other same => ?_⟩
      · exact ⟨n, bound, rfl, roundEq, ticketEq, by simpa [State.goto] using found⟩
      · refine (invariant.threads other).transport (List.prefix_refl _)
          (Nat.le_refl _) (fun _ => Nat.le_refl _) (fun _ _ _ isFull => isFull)
          ?_ (fun _ _ _ roundEq => roundEq)
        intro m mBound otherOwns mRound mTicket
        refine ⟨mRound, mTicket, ?_⟩
        have slotNe : m % capacity.size ≠ n % capacity.size := by
          intro slotEq
          have equal : m = n := by rw [← mRound, slotEq, roundEq]
          subst equal
          exact same (invariant.pushOwner other thread _ otherOwns owns)
        simp [slotNe]
    pushOwner := by
      apply unique_update invariant.pushOwner
      intro pos newOwns other different otherOwns
      rw [Pc.pushing] at newOwns
      rw [newOwns] at owns
      exact different (invariant.pushOwner other thread pos otherOwns owns)
    popOwner := unique_update_none invariant.popOwner rfl
    popOwned := fun slot slotBound claimed =>
      owned_update_none (by rw [writing]; rfl) (invariant.popOwned slot slotBound claimed) }

/-- The owner of a claimed position publishes its item. -/
theorem Invariant.publish {thread : Thread} {pos : Ticket}
    (publishing : s.pc thread = .pushPublish pos) :
    Invariant capacity round
      { s.goto thread (.idle (some true)) with
        sequences := update s.sequences (capacity.slotAt pos) (pos + 1) } := by
  obtain ⟨n, bound, rfl, roundEq, ticketEq, found⟩ :=
    (publishing ▸ invariant.threads thread :
      ThreadOk capacity round s (.pushPublish pos))
  have owns : (s.pc thread).pushing = some (BitVec.ofNat 64 n) := by
    rw [publishing]
    rfl
  have nextTicket : (BitVec.ofNat 64 n + 1 : Ticket) = BitVec.ofNat 64 (n + 1) := by
    rw [BitVec.ofNat_add]
    rfl
  rw [nextTicket]
  exact { invariant with
    ticket := by
      intro slot slotBound
      by_cases same : slot = n % capacity.size
      · subst same
        refine Or.inr ⟨by simp [roundEq], ?_⟩
        simpa [State.goto, roundEq] using found
      · simpa [State.goto, same] using invariant.ticket slot slotBound
    taken := by
      intro slot slotBound claimed
      by_cases same : slot = n % capacity.size
      · subst same
        simp [roundEq]
      · simpa [State.goto, same] using invariant.taken slot slotBound claimed
    threads := by
      refine (forall_update_iff _ _).mpr ⟨True.intro, fun other same => ?_⟩
      refine (invariant.threads other).transport (List.prefix_refl _)
        (Nat.le_refl _) (fun _ => Nat.le_refl _) ?_ ?_
        (fun _ _ _ roundEq => roundEq)
      · intro m mRound _ isFull
        by_cases slotEq : m % capacity.size = n % capacity.size
        · obtain rfl : m = n := by rw [← mRound, slotEq, roundEq]
          simp
        · simpa [slotEq] using isFull
      · intro m mBound otherOwns mRound mTicket
        have slotNe : m % capacity.size ≠ n % capacity.size := by
          intro slotEq
          obtain rfl : m = n := by rw [← mRound, slotEq, roundEq]
          exact same (invariant.pushOwner other thread _ otherOwns owns)
        exact ⟨mRound, by simpa [slotNe] using mTicket, rfl⟩
    pushOwner := unique_update_none invariant.pushOwner rfl
    popOwner := unique_update_none invariant.popOwner rfl
    popOwned := fun slot slotBound claimed =>
      owned_update_none (by rw [publishing]; rfl) (invariant.popOwned slot slotBound claimed) }

/-- A successful exchange on the egress gate claims the oldest item. -/
theorem Invariant.claimPop (unwrapped : s.Unwrapped) {thread : Thread}
    (reached : s.claimedPops ≤ round (s.claimedPops % capacity.size))
    (full : round (s.claimedPops % capacity.size) = s.claimedPops →
      s.sequences (s.claimedPops % capacity.size) =
        BitVec.ofNat 64 (s.claimedPops + 1)) (unclaimed : (s.pc thread).popping = none) :
    Invariant capacity round
      { s.goto thread (.popRead (BitVec.ofNat 64 s.claimedPops)) with
        physicalEgressGate := BitVec.ofNat 64 s.claimedPops + 1
        claimedPops := s.claimedPops + 1 } := by
  obtain ⟨roundEq, ticketEq, available⟩ :=
    invariant.claim_full unwrapped reached full
  unfold State.Unwrapped at unwrapped
  have freshPosition : ∀ other, (s.pc other).popping ≠ some (BitVec.ofNat 64 s.claimedPops) := by
    intro other owns
    have ok := invariant.threads other
    cases pcEq : s.pc other <;> rw [pcEq] at ok owns <;>
      simp only [Pc.popping, Option.some.injEq, reduceCtorEq] at owns
    all_goals
      obtain ⟨n, bound, posEq, _⟩ := ok
      rw [owns, ofNat_inj (by omega) (by omega)] at posEq
      omega
  have newlyTaken : ∀ slot < capacity.size, ¬round slot < s.claimedPops →
      round slot < s.claimedPops + 1 →
      round slot = s.claimedPops ∧ slot = s.claimedPops % capacity.size := by
    intro slot bound notOld new
    have equal : round slot = s.claimedPops := by omega
    exact ⟨equal, by rw [← equal, invariant.congruent slot bound]⟩
  exact { invariant with
    egress := by
      rw [BitVec.ofNat_add]
      rfl
    ordered := available
    round_lt := by
      intro slot bound
      have upper := invariant.round_lt slot bound
      exact upper.trans (by simp)
    taken := by
      intro slot bound claimed
      by_cases old : round slot < s.claimedPops
      · exact invariant.taken slot bound old
      · obtain ⟨equal, rfl⟩ := newlyTaken slot bound old claimed
        rw [equal]
        exact ticketEq
    threads := (forall_update_iff _ _).mpr
      ⟨⟨s.claimedPops, by simp, rfl, roundEq⟩, fun other _ =>
        (invariant.threads other).grow (List.prefix_refl _) (Nat.le_succ _) rfl rfl⟩
    pushOwner := unique_update_none invariant.pushOwner rfl
    popOwner := by
      apply unique_update invariant.popOwner
      intro pos owns other _ otherOwns
      rw [← owns] at otherOwns
      exact freshPosition other otherOwns
    popOwned := by
      intro slot bound claimed
      by_cases old : round slot < s.claimedPops
      · apply owned_update (invariant.popOwned slot bound old)
        rw [unclaimed]
        intro owns
        simp at owns
      · obtain ⟨equal, _⟩ := newlyTaken slot bound old claimed
        refine ⟨thread, ?_⟩
        simp [State.goto, Pc.popping, equal] }

/-- The owner of a popped position hands its slot to the next round. -/
theorem Invariant.release (unwrapped : s.Unwrapped) {thread : Thread} {pos : Ticket} {item : α}
    (releasing : s.pc thread = .popPublish pos item) :
    Invariant capacity
      (update round (capacity.slotAt pos) (pos.toNat + capacity.size))
      { s.goto thread (.idle (some true)) with
        sequences := update s.sequences (capacity.slotAt pos)
          (pos + capacity.laneMask + 1)
        pops := s.pops ++ [(pos.toNat, item)] } := by
  have ordered := invariant.ordered
  have sizePos := capacity.two_le_size
  unfold State.Unwrapped at unwrapped
  obtain ⟨n, bound, rfl, roundEq, found⟩ :=
    (releasing ▸ invariant.threads thread :
      ThreadOk capacity round s (.popPublish pos item))
  have owns : (s.pc thread).popping = some (BitVec.ofNat 64 n) := by
    rw [releasing]
    rfl
  have position : (BitVec.ofNat 64 n : Ticket).toNat = n := by
    rw [BitVec.toNat_ofNat, Nat.mod_eq_of_lt (by omega)]
  have nextTicket : (BitVec.ofNat 64 n + capacity.laneMask + 1 : Ticket) =
      BitVec.ofNat 64 (n + capacity.size) := by
    rw [Capacity.laneMask, ← BitVec.ofNat_add, show (1 : Ticket) =
      BitVec.ofNat 64 1 from rfl, ← BitVec.ofNat_add]
    congr 1
    omega
  have slotBound := slot_lt capacity n
  have taken := invariant.taken _ slotBound (by rw [roundEq]; exact bound)
  have lower := invariant.le_round _ slotBound
  rw [Capacity.slotAt_ofNat, position, nextTicket]
  exact { invariant with
    congruent := by
      intro slot slotLt
      by_cases same : slot = n % capacity.size
      · subst same
        simp
      · simpa [same] using invariant.congruent slot slotLt
    round_lt := by
      intro slot slotLt
      by_cases same : slot = n % capacity.size
      · subst same
        simpa [State.goto] using bound
      · simpa [State.goto, same] using invariant.round_lt slot slotLt
    le_round := by
      intro slot slotLt
      by_cases same : slot = n % capacity.size
      · subst same
        simp only [State.goto, update_self]
        omega
      · simpa [State.goto, same] using invariant.le_round slot slotLt
    ticket := by
      intro slot slotLt
      by_cases same : slot = n % capacity.size
      · subst same
        simp
      · simpa [State.goto, same] using invariant.ticket slot slotLt
    taken := by
      intro slot slotLt claimed
      by_cases same : slot = n % capacity.size
      · subst same
        simp only [State.goto, update_self] at claimed
        omega
      · simp only [State.goto, update_of_ne same] at claimed ⊢
        exact invariant.taken slot slotLt claimed
    popped := by
      intro other
      simp only [List.map_append, List.map_cons, List.map_nil,
        List.mem_append, List.mem_singleton, invariant.popped]
      by_cases same : other % capacity.size = n % capacity.size
      · rw [same, update_self]
        constructor
        · rintro (earlier | equal) <;> omega
        · intro before
          by_contra later
          exact later (Or.inr (eq_of_slot_eq same before (by omega)))
      · have different : other ≠ n := by
          rintro rfl
          exact same rfl
        simp [same, different]
    popItem := by
      intro entry member
      rcases List.mem_append.mp member with old | new
      · exact invariant.popItem entry old
      · rw [List.mem_singleton.mp new]
        exact found
    popOnce := by
      have unreleased : n ∉ s.pops.map Prod.fst := by
        rw [invariant.popped, roundEq]
        exact Nat.lt_irrefl n
      simp only [List.map_append, List.map_cons, List.map_nil]
      rw [← List.concat_eq_append]
      exact List.Nodup.concat unreleased invariant.popOnce
    threads := by
      refine (forall_update_iff _ _).mpr ⟨True.intro, fun other same => ?_⟩
      refine (invariant.threads other).transport (List.prefix_refl _)
        (Nat.le_refl _) ?_ ?_ ?_ ?_
      · intro m
        by_cases slotEq : m % capacity.size = n % capacity.size
        · rw [slotEq, update_self]
          omega
        · rw [update_of_ne slotEq]
      · intro m mRound newRound isFull
        have slotNe : m % capacity.size ≠ n % capacity.size := by
          intro slotEq
          rw [slotEq, update_self] at newRound
          rw [slotEq] at mRound
          omega
        simpa [slotNe] using isFull
      · intro m mBound _ mRound mTicket
        have slotNe : m % capacity.size ≠ n % capacity.size := by
          intro slotEq
          rw [slotEq] at mRound mTicket
          rw [taken, ofNat_inj (by omega) (by omega)] at mTicket
          omega
        simpa [State.goto, slotNe] using ⟨mRound, mTicket⟩
      · intro m mBound otherOwns mRound
        have slotNe : m % capacity.size ≠ n % capacity.size := by
          intro slotEq
          obtain rfl : m = n := by rw [← mRound, slotEq, roundEq]
          exact same (invariant.popOwner other thread _ otherOwns owns)
        simpa [slotNe] using mRound
    pushOwner := unique_update_none invariant.pushOwner rfl
    popOwner := unique_update_none invariant.popOwner rfl
    popOwned := by
      intro slot slotLt claimed
      by_cases same : slot = n % capacity.size
      · subst same
        simp only [State.goto, update_self] at claimed
        omega
      · simp only [State.goto, update_of_ne same] at claimed ⊢
        apply owned_update (invariant.popOwned slot slotLt claimed)
        intro alsoOwns
        rw [owns, Option.some.injEq, ofNat_inj (by omega) (by omega)] at alsoOwns
        exact absurd (by rw [alsoOwns, invariant.congruent slot slotLt]) same }

end

/-- The claimed pushes only grow. -/
theorem pushes_prefix_stepThread (capacity : Capacity) (s : State Thread α)
    (thread : Thread) (next : Call α) :
    s.pushes <+: (stepThread capacity s thread next).pushes := by
  unfold stepThread
  cases s.pc thread with
  | idle last => cases next <;> exact List.prefix_refl _
  | pushClaim item pos =>
      dsimp only
      split
      · exact List.prefix_append _ _
      · exact List.prefix_refl _
  | _ =>
      dsimp only
      repeat' split
      all_goals exact List.prefix_refl _

/-- One move of one thread keeps the invariant, for some assignment of rounds. -/
theorem Invariant.stepThread (invariant : Invariant capacity round s)
    (unwrapped : s.Unwrapped) (thread : Thread) (next : Call α) :
    ∃ newRound, Invariant capacity newRound
      (stepThread capacity s thread next) := by
  have ordered := invariant.ordered
  have small : s.pushes.length < 2 ^ 63 := unwrapped
  have ok := invariant.threads thread
  have stay {here target : Pc α} (point : s.pc thread = here)
      (fine : ThreadOk capacity round s target) (pushing : target.pushing = here.pushing)
      (popping : target.popping = here.popping) :
      ∃ newRound, Invariant capacity newRound (s.goto thread target) :=
    ⟨round, invariant.goto thread fine (point ▸ pushing) (point ▸ popping)⟩
  unfold MpmcConduit.stepThread
  cases pcEq : s.pc thread <;> rw [pcEq] at ok <;> dsimp only
  case idle last =>
    cases next with
    | tryPush item =>
        exact stay pcEq True.intro rfl rfl
    | tryPop =>
        exact stay pcEq True.intro rfl rfl
  case pushLoadGate item =>
    exact stay pcEq ⟨_, Nat.le_refl _, invariant.ingress⟩ rfl rfl
  case pushLoadTicket item pos =>
    obtain ⟨n, bound, rfl⟩ := ok
    rw [Capacity.slotAt_ofNat]
    split
    case isTrue matched =>
      have roundEq := invariant.round_eq_of_ticket unwrapped (Nat.zero_le 1) (by omega) matched
      exact stay pcEq ⟨n, bound, rfl, roundEq.ge⟩ rfl rfl
    case isFalse =>
      split
      · exact stay pcEq True.intro rfl rfl
      · exact stay pcEq True.intro rfl rfl
  case pushClaim item pos =>
    obtain ⟨n, bound, rfl, reached⟩ := ok
    split
    case isTrue matched =>
      rw [invariant.ingress, ofNat_inj (by omega) (by omega)] at matched
      subst matched
      exact ⟨round, invariant.claimPush unwrapped reached (by rw [pcEq]; rfl)⟩
    case isFalse =>
      exact stay pcEq ⟨_, Nat.le_refl _, invariant.ingress⟩ rfl rfl
  case pushWrite item pos => exact ⟨round, invariant.writeItem pcEq⟩
  case pushPublish pos => exact ⟨round, invariant.publish pcEq⟩
  case popLoadGate =>
    exact stay pcEq ⟨_, Nat.le_refl _, invariant.egress⟩ rfl rfl
  case popLoadTicket pos =>
    obtain ⟨n, bound, rfl⟩ := ok
    have next : (BitVec.ofNat 64 n + 1 : Ticket) = BitVec.ofNat 64 (n + 1) := by
      rw [BitVec.ofNat_add]
      rfl
    rw [Capacity.slotAt_ofNat, next]
    split
    case isTrue matched =>
      have roundEq := invariant.round_eq_of_ticket unwrapped (Nat.le_refl 1) (by omega) matched
      exact stay pcEq ⟨n, bound, rfl, roundEq.ge, fun _ => matched⟩ rfl rfl
    case isFalse =>
      split
      · exact stay pcEq True.intro rfl rfl
      · exact stay pcEq True.intro rfl rfl
  case popClaim pos =>
    obtain ⟨n, bound, rfl, reached, full⟩ := ok
    split
    case isTrue matched =>
      rw [invariant.egress, ofNat_inj (by omega) (by omega)] at matched
      subst matched
      exact ⟨round, invariant.claimPop unwrapped reached full (by rw [pcEq]; rfl)⟩
    case isFalse =>
      exact stay pcEq ⟨_, Nat.le_refl _, invariant.egress⟩ rfl rfl
  case popRead pos =>
    obtain ⟨n, bound, rfl, roundEq⟩ := ok
    have held : s.pushes[n]? = some (s.data (n % capacity.size)) :=
      invariant.taken_item unwrapped bound roundEq
    rw [Capacity.slotAt_ofNat]
    exact stay pcEq ⟨n, bound, rfl, roundEq, held⟩ rfl rfl
  case popPublish pos item => exact ⟨_, invariant.release unwrapped pcEq⟩

end Moves

/-! ## Whole runs -/

open Lib

/-- No operation is in progress. -/
def State.Quiescent (s : State Thread α) : Prop :=
  ∀ thread, ∃ last, s.pc thread = .idle last

/-- The lane holds fewer items, claimed or published, than it has slots. -/
def State.HasRoom (capacity : Capacity) (s : State Thread α) : Prop :=
  s.pushes.length < s.claimedPops + capacity.size

namespace Invariant

/-- A claimed position is the last one claimed for its slot, and all earlier ones
have been popped. -/
theorem earlier_popped (invariant : Invariant capacity round s)
    (unwrapped : s.Unwrapped) {thread : Thread} {item : α} {pos : Ticket}
    (writing : s.pc thread = .pushWrite item pos) {position : Nat}
    (bound : position < s.pushes.length)
    (sameSlot : position % capacity.size = capacity.slotAt pos)
    (different : position ≠ pos.toNat) : position ∈ s.pops.map Prod.fst := by
  obtain ⟨n, nBound, rfl, roundEq, _⟩ :=
    (writing ▸ invariant.threads thread :
      ThreadOk capacity round s (.pushWrite item pos))
  unfold State.Unwrapped at unwrapped
  rw [BitVec.toNat_ofNat, Nat.mod_eq_of_lt (by omega)] at different
  rw [Capacity.slotAt_ofNat] at sameSlot
  rw [invariant.popped, sameSlot]
  by_contra later
  have lower := invariant.le_round _ (slot_lt capacity n)
  exact different (eq_of_slot_eq sameSlot (by omega) (by omega))

/-- In a quiescent lane every claimed pop has released its slot. -/
theorem claimedPops_le_round (invariant : Invariant capacity round s)
    (quiescent : s.Quiescent) {slot : Nat} (bound : slot < capacity.size) :
    s.claimedPops ≤ round slot := by
  by_contra behind
  obtain ⟨owner, owns⟩ := invariant.popOwned slot bound (by omega)
  obtain ⟨last, idle⟩ := quiescent owner
  rw [idle] at owns
  simp [Pc.popping] at owns

/-- In a quiescent lane with room the next slot is free. -/
theorem next_slot_free (invariant : Invariant capacity round s)
    (quiescent : s.Quiescent) (room : s.HasRoom capacity) :
    s.sequences (s.pushes.length % capacity.size) = BitVec.ofNat 64 s.pushes.length := by
  have slotBound := slot_lt capacity s.pushes.length
  have lower := invariant.claimedPops_le_round quiescent slotBound
  have upper := invariant.round_lt _ slotBound
  have ordered := invariant.ordered
  unfold State.HasRoom at room
  have roundEq : round (s.pushes.length % capacity.size) = s.pushes.length :=
    eq_of_slot_eq (invariant.round_slot _) (by omega) (by omega)
  exact (invariant.claim_ready roundEq.ge).2

end Invariant

variable [DecidableEq Thread]

/-- One undisturbed `try_push`: its start, the two loads, the exchange, the write
and the publication. -/
def soloPush (capacity : Capacity) (s : State Thread α) (thread : Thread)
    (item : α) : State Thread α :=
  execute (step capacity) s (List.replicate 6 (thread, .tryPush item))

/-- What the lane promises about a state it has reached. -/
structure LaneSafe (capacity : Capacity) (s : State Thread α) : Prop where
  /-- The pop with egress ticket `n` returned the item pushed with ingress
  ticket `n`. -/
  matched : ∀ entry ∈ s.pops, s.pushes[entry.1]? = some entry.2
  /-- No position is popped twice. -/
  once : (s.pops.map Prod.fst).Nodup
  /-- A thread about to write a slot writes over no item that is still unread. -/
  exclusive : ∀ thread item pos, s.pc thread = .pushWrite item pos →
    ∀ position < s.pushes.length, position % capacity.size = capacity.slotAt pos →
      position ≠ pos.toNat → position ∈ s.pops.map Prod.fst
  /-- A push into a quiescent lane with room is accepted. -/
  accepted : s.Quiescent → s.HasRoom capacity → ∀ thread item,
    (soloPush capacity s thread item).pc thread = .idle (some true) ∧
      (soloPush capacity s thread item).pushes = s.pushes ++ [item]

namespace Invariant

theorem soloPush_accepted (invariant : Invariant capacity round s)
    (quiescent : s.Quiescent) (room : s.HasRoom capacity) (thread : Thread)
    (item : α) :
    (soloPush capacity s thread item).pc thread = .idle (some true) ∧
      (soloPush capacity s thread item).pushes = s.pushes ++ [item] := by
  obtain ⟨last, idle⟩ := quiescent thread
  have free := invariant.next_slot_free quiescent room
  simp [soloPush, execute, step, MpmcConduit.stepThread, State.goto, idle, invariant.ingress, free]

end Invariant

theorem laneSafe_of_invariant (invariant : Invariant capacity round s)
    (unwrapped : s.Unwrapped) : LaneSafe capacity s where
  matched := invariant.popItem
  once := invariant.popOnce
  exclusive := fun _ _ _ writing _ bound sameSlot different =>
    invariant.earlier_popped unwrapped writing bound sameSlot different
  accepted := fun quiescent room thread item =>
    invariant.soloPush_accepted quiescent room thread item

/-- A run that has not wrapped the tickets keeps the slot-phase invariant. -/
theorem execute_step_invariant (capacity : Capacity) (data : Nat → α)
    (schedule : List (Thread × Call α)) :
    (execute (step capacity) (initial data) schedule).Unwrapped → ∃ round, Invariant capacity round
        (execute (step capacity) (initial data) schedule) := by
  have kept : ∀ (s : State Thread α) (move : Thread × Call α),
      (s.Unwrapped → ∃ round, Invariant capacity round s) →
      (step capacity s move).Unwrapped →
        ∃ round, Invariant capacity round (step capacity s move) := by
    intro s move before unwrapped
    have grown := (pushes_prefix_stepThread capacity s move.1 move.2).length_le
    have unwrappedBefore : s.Unwrapped := Nat.lt_of_le_of_lt grown unwrapped
    obtain ⟨round, invariant⟩ := before unwrappedBefore
    exact invariant.stepThread unwrappedBefore move.1 move.2
  exact execute_invariant kept (fun _ => ⟨_, initial_invariant capacity data⟩) schedule

/-- Every state a lane reaches, under any schedule of any number of producers and
consumers, is safe. -/
theorem lane_safe (capacity : Capacity) (data : Nat → α) (schedule : List (Thread × Call α))
    (unwrapped : (execute (step capacity) (initial data) schedule).pushes.length < 2 ^ 63) :
    LaneSafe capacity (execute (step capacity) (initial data) schedule) := by
  obtain ⟨round, invariant⟩ := execute_step_invariant capacity data schedule unwrapped
  exact laneSafe_of_invariant invariant unwrapped

/-- Two threads of a two-slot lane: one push stopped before its publication, one
completed push, and a pop that finds the first slot unpublished. -/
theorem lane_safe_twoThreads :
    LaneSafe ⟨1, by decide, by decide⟩
      (execute (step ⟨1, by decide, by decide⟩) (initial fun _ => (0 : Nat) : State Bool Nat)
        (List.replicate 5 (true, .tryPush 7) ++ List.replicate 6 (false, .tryPush 8) ++
          List.replicate 3 (false, .tryPop))) :=
  lane_safe _ _ _ (by decide +kernel)

end SlabFlux.Core.MpmcConduit
