import SlabFlux.Core.EpochReclamation.Model
import SlabFlux.Lib.Ring

/-!
# No node is released under a reader

A reader obtains a node only while it is linked, so it has published an epoch that is at
most the one read when the node is retired.  A scan that has passed the reader has seen
that epoch, or the node was stamped after the scan had begun, with an epoch that is no
smaller than the one the scan began with.  Either way the result of the scan does not
exceed the node's epoch.

The order of epochs is the order of 64-bit words, which the counter leaves after
`2 ^ 64 - 1` calls of `advance`.
-/

namespace SlabFlux.Core.EpochReclamation

open Lib Function Graveyard

universe u

variable {α : Type u} {maxThreads capacity : Nat} {node : α} (graveyard : Graveyard α)

namespace State

/-- A node with its epoch, in the graveyard or about to be put there. -/
def Deferred (capacity : Nat) (state : State α maxThreads) (node : DeferredNode α) : Prop :=
  (∃ position, state.graveyard.egressCursor ≤ position ∧ position < state.graveyard.ingressCursor ∧
      state.graveyard.slot capacity position = some node) ∨
    state.retiring = some ⟨node.ptr, some node.retirementEpoch⟩

/-- What every move keeps. -/
structure Guarded (capacity : Nat) (state : State α maxThreads) : Prop where
  positive : state.globalEpoch ≠ 0
  entering : ∀ thread current, state.readers thread = .entering current →
    current ≠ 0 ∧ current ≤ state.globalEpoch
  announced : ∀ thread held, state.readers thread = .inside held →
    state.activeEpoch thread ≠ 0 ∧ state.activeEpoch thread ≤ state.globalEpoch
  scanned : ∀ scan, state.scan = some scan → scan.oldestActive ≤ state.globalEpoch
  consumed : state.graveyard.egressCursor ≤ state.graveyard.cachedIngressCursor
  horizon : state.graveyard.cachedIngressCursor ≤ state.graveyard.ingressCursor
  linked : ∀ node, state.shared = some node →
    (∀ retiring, state.retiring = some retiring → retiring.ptr ≠ node) ∧
      ∀ deferred, state.Deferred capacity deferred → deferred.ptr ≠ node
  covered : ∀ deferred, state.Deferred capacity deferred → ∀ thread,
    deferred.ptr ∈ (state.readers thread).held →
      state.activeEpoch thread ≤ deferred.retirementEpoch ∧
        ∀ scan, state.scan = some scan → thread.val < scan.threadsRead →
          scan.oldestActive ≤ deferred.retirementEpoch

theorem guarded_initial (shared : Option α) :
    Guarded capacity (initial shared : State α maxThreads) where
  positive := show (1 : BitVec 64) ≠ 0 by decide
  entering := by simp [initial]
  announced := by simp [initial]
  scanned := by simp [initial]
  consumed := Nat.le_refl 0
  horizon := Nat.le_refl 0
  linked := by
    intro node _
    refine ⟨by simp [initial], ?_⟩
    rintro deferred (⟨position, _, below, _⟩ | retiring)
    · exact absurd below (Nat.not_lt_zero position)
    · simp [initial] at retiring
  covered := by
    intro deferred _ thread held
    simp [initial, Reader.held] at held

namespace Guarded

variable {state : State α maxThreads}

theorem advance (guarded : state.Guarded capacity) (fits : state.globalEpoch.toNat + 1 < 2 ^ 64) :
    Guarded capacity (state.step capacity .advance) := by
  have value : (state.globalEpoch + 1).toNat = state.globalEpoch.toNat + 1 :=
    (BitVec.toNat_add _ _).trans (Nat.mod_eq_of_lt fits)
  have grows : state.globalEpoch ≤ state.globalEpoch + 1 := by
    rw [BitVec.le_def, value]
    exact Nat.le_succ _
  constructor
  · intro zero
    have wrapped : state.globalEpoch + 1 = 0 := zero
    rw [wrapped] at value
    exact Nat.succ_ne_zero _ value.symm
  · intro thread current entering
    obtain ⟨nonzero, below⟩ := guarded.entering thread current entering
    exact ⟨nonzero, BitVec.le_trans below grows⟩
  · intro thread held inside
    obtain ⟨nonzero, below⟩ := guarded.announced thread held inside
    exact ⟨nonzero, BitVec.le_trans below grows⟩
  · intro scan current
    exact BitVec.le_trans (guarded.scanned scan current) grows
  · exact guarded.consumed
  · exact guarded.horizon
  · exact guarded.linked
  · exact guarded.covered

/-! ## Readers -/

section

variable (guarded : state.Guarded capacity)
include guarded

/-- A move of one reader: what the invariant says of the reader's new point is enough. -/
theorem moveReader {thread : Fin maxThreads} {active : BitVec 64} {reader : Reader α}
    (entering : ∀ current, reader = .entering current → current ≠ 0 ∧ current ≤ state.globalEpoch)
    (announced : ∀ held, reader = .inside held → active ≠ 0 ∧ active ≤ state.globalEpoch)
    (covered : ∀ deferred, state.Deferred capacity deferred → deferred.ptr ∈ reader.held →
      active ≤ deferred.retirementEpoch ∧
        ∀ scan, state.scan = some scan → thread.val < scan.threadsRead →
          scan.oldestActive ≤ deferred.retirementEpoch) :
    Guarded capacity { state with
      activeEpoch := update state.activeEpoch thread active
      readers := update state.readers thread reader } := by
  constructor
  · exact guarded.positive
  · intro other current point
    by_cases same : other = thread
    · subst same
      simp only [update_self] at point
      exact entering current point
    · simp only [update_of_ne same] at point
      exact guarded.entering other current point
  · intro other held point
    by_cases same : other = thread
    · subst same
      simp only [update_self] at point ⊢
      exact announced held point
    · simp only [update_of_ne same] at point ⊢
      exact guarded.announced other held point
  · exact guarded.scanned
  · exact guarded.consumed
  · exact guarded.horizon
  · exact guarded.linked
  · intro deferred isDeferred other held
    by_cases same : other = thread
    · subst same
      simp only [update_self] at held ⊢
      exact covered deferred isDeferred held
    · simp only [update_of_ne same] at held ⊢
      exact guarded.covered deferred isDeferred other held

variable (thread : Fin maxThreads)

theorem loadGlobal :
    Guarded capacity (state.step capacity (.loadGlobal thread)) := by
  rw [step]
  split
  next outside =>
    have moved : Guarded capacity { state with
        activeEpoch := update state.activeEpoch thread (state.activeEpoch thread)
        readers := update state.readers thread (.entering state.globalEpoch) } := by
      apply guarded.moveReader
      · rintro current ⟨⟩
        exact ⟨guarded.positive, BitVec.le_refl _⟩
      · rintro held ⟨⟩
      · intro deferred _ held
        exact absurd held List.not_mem_nil
    rwa [update_eq_self] at moved
  next => exact guarded

theorem publish :
    Guarded capacity (state.step capacity (.publish thread)) := by
  rw [step]
  split
  next current entering =>
    apply guarded.moveReader
    · rintro current ⟨⟩
    · rintro held ⟨⟩
      exact guarded.entering thread current entering
    · intro deferred _ held
      exact absurd held List.not_mem_nil
  next => exact guarded

/-- A node that is read is linked, so it is neither in the graveyard nor on its way
there. -/
theorem read : Guarded capacity (state.step capacity (.read thread)) := by
  rw [step]
  split
  next held inside =>
    have moved : Guarded capacity { state with
        activeEpoch := update state.activeEpoch thread (state.activeEpoch thread)
        readers := update state.readers thread
          (.inside (state.shared.toList ++ held)) } := by
      apply guarded.moveReader
      · rintro current ⟨⟩
      · rintro held' ⟨⟩
        exact guarded.announced thread held inside
      · intro deferred isDeferred member
        rcases List.mem_append.mp member with isShared | before
        · rw [Option.mem_toList] at isShared
          exact absurd rfl ((guarded.linked _ isShared).2 deferred isDeferred)
        · refine guarded.covered deferred isDeferred thread ?_
          rw [inside]
          exact before
    rwa [update_eq_self] at moved
  next => exact guarded

theorem leave :
    Guarded capacity (state.step capacity (.leave thread)) := by
  rw [step]
  split
  next held inside =>
    apply guarded.moveReader
    · rintro current ⟨⟩
    · rintro held' ⟨⟩
    · intro deferred _ member
      exact absurd member List.not_mem_nil
  next => exact guarded

/-- A reader that holds a node has announced an epoch. -/
theorem announced_of_held {thread : Fin maxThreads} (held : node ∈ (state.readers thread).held) :
    state.activeEpoch thread ≠ 0 ∧ state.activeEpoch thread ≤ state.globalEpoch := by
  cases point : state.readers thread with
  | outside =>
      rw [point] at held
      exact absurd held List.not_mem_nil
  | entering current =>
      rw [point] at held
      exact absurd held List.not_mem_nil
  | inside nodes => exact guarded.announced thread nodes point

end

/-! ## The writer -/

/-- A move of the writer that stamps no node. -/
theorem moveWriter (guarded : state.Guarded capacity) {shared : Option α}
    {retiring : Option (Retiring α)} {graveyard : Graveyard α}
    (deferred : ∀ node, State.Deferred capacity { state with
      shared := shared, retiring := retiring, graveyard := graveyard } node →
        state.Deferred capacity node)
    (consumed : graveyard.egressCursor ≤ graveyard.cachedIngressCursor)
    (horizon : graveyard.cachedIngressCursor ≤ graveyard.ingressCursor)
    (linked : ∀ node, shared = some node →
      (∀ unlinked, retiring = some unlinked → unlinked.ptr ≠ node) ∧
        ∀ buried, State.Deferred capacity { state with
          shared := shared, retiring := retiring, graveyard := graveyard } buried →
            buried.ptr ≠ node) :
    Guarded capacity { state with
      shared := shared, retiring := retiring, graveyard := graveyard } := by
  constructor
  · exact guarded.positive
  · exact guarded.entering
  · exact guarded.announced
  · exact guarded.scanned
  · exact consumed
  · exact horizon
  · exact linked
  · intro node isDeferred
    exact guarded.covered node (deferred node isDeferred)

/-- A free node is not deferred. -/
theorem ptr_ne_of_free (free : state.Free capacity node) {deferred : DeferredNode α}
    (isDeferred : state.Deferred capacity deferred) :
    deferred.ptr ≠ node := by
  obtain ⟨-, notRetiring, notBuried⟩ := free
  rcases isDeferred with ⟨position, low, high, slot⟩ | retiring
  · refine notBuried (position - state.graveyard.egressCursor) ?_ deferred ?_
    · unfold pending
      omega
    · rw [Nat.add_sub_cancel' low]
      exact slot
  · exact notRetiring _ retiring

section

variable (guarded : state.Guarded capacity)
include guarded

/-- A node that has been replaced is not stamped yet. -/
theorem unlink {replacement : Option α} (free : state.WriterAllows capacity (.unlink replacement)) :
    Guarded capacity (state.step capacity (.unlink replacement)) := by
  have isFree : ∀ node, replacement = some node → state.Free capacity node := by
    rintro node rfl
    exact free
  rw [step]
  split
  next node shared retiring =>
    apply guarded.moveWriter
    · rintro deferred (buried | stamped)
      · exact .inl buried
      · cases stamped
    · exact guarded.consumed
    · exact guarded.horizon
    · intro fresh isShared
      have free := isFree fresh isShared
      constructor
      · rintro retiring' ⟨⟩ rfl
        exact free.1 shared
      · rintro deferred (buried | stamped)
        · exact ptr_ne_of_free free (.inl buried)
        · cases stamped
  next shared =>
    apply guarded.moveWriter
    · exact fun _ isDeferred => isDeferred
    · exact guarded.consumed
    · exact guarded.horizon
    · intro fresh isShared
      have free := isFree fresh isShared
      exact ⟨free.2.1, fun _ isDeferred => ptr_ne_of_free free isDeferred⟩
  next => exact guarded

/-- The epoch read for an unlinked node is not smaller than any that a reader or a scan
has read before. -/
theorem loadEpoch : Guarded capacity (state.step capacity .loadEpoch) := by
  rw [step]
  split
  next node retiring =>
    constructor
    · exact guarded.positive
    · exact guarded.entering
    · exact guarded.announced
    · exact guarded.scanned
    · exact guarded.consumed
    · exact guarded.horizon
    · intro linked isShared
      obtain ⟨notRetiring, notDeferred⟩ := guarded.linked linked isShared
      have unlinked := notRetiring _ retiring
      constructor
      · rintro retiring' ⟨⟩
        exact unlinked
      · rintro deferred (buried | stamped)
        · exact notDeferred deferred (.inl buried)
        · simp only [Option.some.injEq, Retiring.mk.injEq] at stamped
          rw [← stamped.1]
          exact unlinked
    · rintro deferred (buried | stamped) thread held
      · exact guarded.covered deferred (.inl buried) thread held
      · simp only [Option.some.injEq, Retiring.mk.injEq] at stamped
        rw [← stamped.2]
        exact ⟨(guarded.announced_of_held held).2, fun scan current _ =>
          guarded.scanned scan current⟩
  next => exact guarded

theorem retire (room : state.WriterAllows capacity .retire) :
    Guarded capacity (state.step capacity .retire) := by
  have room : state.graveyard.pending < capacity := room
  rw [step]
  split
  next node epoch retiring =>
    have consumed := guarded.consumed
    have horizon := guarded.horizon
    have deferred : ∀ deferred, State.Deferred capacity { state with
        retiring := none
        graveyard := state.graveyard.retire capacity node epoch } deferred →
        state.Deferred capacity deferred := by
      rintro deferred (⟨position, low, high, slot⟩ | stamped)
      · simp only [Graveyard.retire, Graveyard.slot] at low high slot
        by_cases last : position = state.graveyard.ingressCursor
        · rw [last, update_self] at slot
          cases slot
          exact .inr retiring
        · rw [update_of_ne] at slot
          · exact .inl ⟨position, low, by omega, slot⟩
          · unfold Graveyard.pending at room
            exact Ring.slot_ne (by omega) (by omega)
      · cases stamped
    apply guarded.moveWriter deferred
    · exact consumed
    · exact Nat.le_succ_of_le horizon
    · intro linked isShared
      refine ⟨?_, fun buried isDeferred =>
        (guarded.linked linked isShared).2 buried (deferred buried isDeferred)⟩
      rintro retiring' ⟨⟩
  next => exact guarded

theorem beginScan : Guarded capacity (state.step capacity .beginScan) := by
  constructor
  · exact guarded.positive
  · exact guarded.entering
  · exact guarded.announced
  · rintro scan ⟨⟩
    exact BitVec.le_refl _
  · exact guarded.consumed
  · exact guarded.horizon
  · exact guarded.linked
  · intro deferred isDeferred thread held
    refine ⟨(guarded.covered deferred isDeferred thread held).1, ?_⟩
    rintro scan ⟨⟩ read
    exact absurd read (Nat.not_lt_zero _)

end

/-- One load of a scan lowers its result to the thread's epoch, if it has one. -/
theorem scanStep_spec (state : State α maxThreads) (scan : Scan) :
    (state.scanStep scan).oldestActive ≤ scan.oldestActive ∧
      ∀ thread : Fin maxThreads, thread.val < (state.scanStep scan).threadsRead →
        thread.val < scan.threadsRead ∨ (state.activeEpoch thread ≠ 0 →
            (state.scanStep scan).oldestActive ≤ state.activeEpoch thread) := by
  unfold scanStep
  split
  next inBounds =>
    constructor
    · dsimp only
      split_ifs with older
      · exact BitVec.le_of_lt older.2
      · exact BitVec.le_refl _
    · intro thread read
      by_cases before : thread.val < scan.threadsRead
      · exact .inl before
      · refine .inr ?_
        intro active
        obtain rfl : thread = ⟨scan.threadsRead, inBounds⟩ := by
          apply Fin.ext
          dsimp only at read ⊢
          omega
        dsimp only
        split_ifs with older
        · exact BitVec.le_refl _
        · exact BitVec.not_lt.mp fun less => older ⟨active, less⟩
  next => exact ⟨BitVec.le_refl _, fun thread read => .inl read⟩

theorem scanThread (guarded : state.Guarded capacity) :
    Guarded capacity (state.step capacity .scanThread) := by
  constructor
  · exact guarded.positive
  · exact guarded.entering
  · exact guarded.announced
  · intro scan current
    obtain ⟨before, beforeEq, rfl⟩ := Option.map_eq_some_iff.mp current
    exact BitVec.le_trans (scanStep_spec state before).1 (guarded.scanned before beforeEq)
  · exact guarded.consumed
  · exact guarded.horizon
  · exact guarded.linked
  · intro deferred isDeferred thread held
    obtain ⟨active, scanned⟩ := guarded.covered deferred isDeferred thread held
    refine ⟨active, ?_⟩
    intro scan current read
    obtain ⟨before, beforeEq, rfl⟩ := Option.map_eq_some_iff.mp current
    obtain ⟨lower, loads⟩ := scanStep_spec state before
    rcases loads thread read with earlier | now
    · exact BitVec.le_trans lower (scanned before beforeEq earlier)
    · exact BitVec.le_trans (now (guarded.announced_of_held held).1) active

end Guarded

end State

namespace Graveyard

theorem length_reclaim_le (capacity : Nat) (safeEpoch : BitVec 64) (available position : Nat) :
    (graveyard.reclaim capacity safeEpoch available position).length ≤ available := by
  induction available generalizing position with
  | zero => exact Nat.le_refl 0
  | succ available ih =>
      rw [reclaim]
      split
      · exact Nat.zero_le _
      · split_ifs
        · exact Nat.succ_le_succ (ih (position + 1))
        · exact Nat.zero_le _

/-- A released node sits in a slot that can be peeked at, with an epoch below the safe
one. -/
theorem mem_reclaim {graveyard : Graveyard α} {safeEpoch : BitVec 64} {available position : Nat}
    (member : node ∈ graveyard.reclaim capacity safeEpoch available position) :
    ∃ place deferred, position ≤ place ∧ place < position + available ∧
      graveyard.slot capacity place = some deferred ∧ deferred.ptr = node ∧
      deferred.retirementEpoch < safeEpoch := by
  induction available generalizing position with
  | zero => exact absurd member List.not_mem_nil
  | succ available ih =>
      rw [reclaim] at member
      split at member
      next => exact absurd member List.not_mem_nil
      next deferred slot =>
        split_ifs at member with old
        · rcases List.mem_cons.mp member with rfl | later
          · exact ⟨position, deferred, Nat.le_refl _, by omega, slot, rfl, old⟩
          · obtain ⟨place, found, low, high, rest⟩ := ih later
            exact ⟨place, found, by omega, by omega, rest⟩
        · exact absurd member List.not_mem_nil

@[simp] theorem refresh_ring : graveyard.refresh.ring = graveyard.ring := by
  unfold refresh
  split_ifs
  · rfl
  · rfl

@[simp] theorem refresh_ingressCursor :
    graveyard.refresh.ingressCursor = graveyard.ingressCursor := by
  unfold refresh
  split_ifs
  · rfl
  · rfl

@[simp] theorem refresh_egressCursor : graveyard.refresh.egressCursor = graveyard.egressCursor := by
  unfold refresh
  split_ifs
  · rfl
  · rfl

theorem refresh_bounds {graveyard : Graveyard α}
    (consumed : graveyard.egressCursor ≤ graveyard.cachedIngressCursor)
    (horizon : graveyard.cachedIngressCursor ≤ graveyard.ingressCursor) :
    graveyard.egressCursor ≤ graveyard.refresh.cachedIngressCursor ∧
      graveyard.refresh.cachedIngressCursor ≤ graveyard.ingressCursor := by
  unfold refresh
  split_ifs with usedUp
  · exact ⟨Nat.le_trans consumed horizon, Nat.le_refl _⟩
  · exact ⟨consumed, horizon⟩

end Graveyard

namespace State

namespace Guarded

variable {state : State α maxThreads}

theorem scavenge (guarded : state.Guarded capacity) :
    Guarded capacity (state.step capacity .scavenge) := by
  rw [step]
  split
  next => exact guarded
  next safeEpoch _ =>
    obtain ⟨consumed, horizon⟩ := refresh_bounds guarded.consumed guarded.horizon
    have few := state.graveyard.refresh.length_reclaim_le capacity safeEpoch
      state.graveyard.refresh.available state.graveyard.refresh.egressCursor
    have deferred : ∀ deferred, State.Deferred capacity { state with
        graveyard := state.graveyard.scavenge capacity safeEpoch } deferred →
        state.Deferred capacity deferred := by
      rintro deferred (⟨position, low, high, slot⟩ | stamped)
      · simp only [Graveyard.scavenge, Graveyard.slot, Graveyard.refresh_ring,
          Graveyard.refresh_ingressCursor] at low high slot
        exact .inl ⟨position, by omega, high, slot⟩
      · exact .inr stamped
    apply guarded.moveWriter deferred
    · simp only [Graveyard.scavenge, Graveyard.released]
      rw [available, refresh_egressCursor] at few
      rw [available, refresh_egressCursor]
      omega
    · simp only [Graveyard.scavenge, Graveyard.refresh_ingressCursor]
      exact horizon
    · intro linked isShared
      obtain ⟨notRetiring, notDeferred⟩ := guarded.linked linked isShared
      exact ⟨notRetiring, fun buried isDeferred =>
        notDeferred buried (deferred buried isDeferred)⟩

theorem step (guarded : state.Guarded capacity) {move : Move α maxThreads}
    (allowed : state.WriterAllows capacity move)
    (fits : state.globalEpoch.toNat + advances [move] < 2 ^ 64) :
    Guarded capacity (state.step capacity move) := by
  cases move with
  | advance => exact guarded.advance fits
  | loadGlobal thread => exact guarded.loadGlobal thread
  | publish thread => exact guarded.publish thread
  | read thread => exact guarded.read thread
  | leave thread => exact guarded.leave thread
  | unlink replacement => exact guarded.unlink allowed
  | loadEpoch => exact guarded.loadEpoch
  | retire => exact guarded.retire allowed
  | beginScan => exact guarded.beginScan
  | scanThread => exact guarded.scanThread
  | scavenge => exact guarded.scavenge

end Guarded

/-- Only `advance` moves the epoch. -/
theorem step_globalEpoch (capacity : Nat) (state : State α maxThreads) (move : Move α maxThreads) :
    (state.step capacity move).globalEpoch =
      state.globalEpoch + BitVec.ofNat 64 (advances [move]) := by
  cases move with
  | advance => rfl
  | _ =>
      rw [step]
      try split
      all_goals exact (BitVec.add_zero _).symm

theorem guarded_execute (schedule : List (Move α maxThreads)) {state : State α maxThreads}
    (guarded : state.Guarded capacity)
    (allowed : Admissible (step capacity) (WriterAllows capacity) state schedule)
    (fits : state.globalEpoch.toNat + advances schedule < 2 ^ 64) :
    (execute (step capacity) state schedule).Guarded capacity := by
  induction schedule generalizing state with
  | nil => exact guarded
  | cons move schedule ih =>
      obtain ⟨here, rest⟩ := allowed
      have split : advances (move :: schedule) = advances [move] + advances schedule := by
        rw [advances, ← List.singleton_append, List.countP_append]
        rfl
      apply ih (guarded.step here (by omega)) rest
      rw [step_globalEpoch, BitVec.toNat_add, BitVec.toNat_ofNat]
      omega

theorem released_not_held_of_guarded {state : State α maxThreads} (guarded : state.Guarded capacity)
    (member : node ∈ state.released capacity) (thread : Fin maxThreads) :
    node ∉ (state.readers thread).held := by
  intro held
  rw [released] at member
  split at member
  next => exact absurd member List.not_mem_nil
  next safeEpoch result =>
    obtain ⟨scan, current, complete⟩ := Option.bind_eq_some_iff.mp result
    split_ifs at complete with whole
    obtain rfl : scan.oldestActive = safeEpoch := Option.some.inj complete
    obtain ⟨place, deferred, low, high, slot, rfl, old⟩ := mem_reclaim member
    obtain ⟨-, horizon⟩ := refresh_bounds guarded.consumed guarded.horizon
    rw [available, refresh_egressCursor] at high
    rw [refresh_egressCursor] at low
    rw [Graveyard.slot, Graveyard.refresh_ring] at slot
    have isDeferred : state.Deferred capacity deferred :=
      .inl ⟨place, low, by omega, slot⟩
    have seen := (guarded.covered deferred isDeferred thread held).2 scan current (by
      rw [whole]
      exact thread.isLt)
    exact BitVec.not_lt.mpr seen old

/-- In every interleaving with fewer than `2 ^ 64 - 1` calls of `advance`, a call of
`scavenge` releases only nodes that no reader has obtained in the section it is in. -/
theorem released_not_held (shared : Option α) (schedule : List (Move α maxThreads))
    (allowed : Admissible (step capacity) (WriterAllows capacity) (initial shared) schedule)
    (few : advances schedule < 2 ^ 64 - 1) (node : α)
    (member : node ∈ (execute (step capacity) (initial shared) schedule).released capacity)
    (thread : Fin maxThreads) :
    node ∉ ((execute (step capacity) (initial shared) schedule).readers thread).held := by
  have first : (initial shared : State α maxThreads).globalEpoch.toNat = 1 := rfl
  have guarded := guarded_execute schedule (guarded_initial shared) allowed (by omega)
  exact released_not_held_of_guarded guarded member thread

/-- A reader holds node `7` while the writer replaces and retires it; the epoch advances
and the writer scans. -/
def heldSchedule : List (Move Nat 2) :=
  [.loadGlobal 0, .publish 0, .read 0, .unlink (some 8), .loadEpoch, .retire, .advance,
    .beginScan, .scanThread, .scanThread]

/-- The reader leaves, and the writer scans again. -/
def leftSchedule : List (Move Nat 2) :=
  heldSchedule ++ [.leave 0, .beginScan, .scanThread, .scanThread]

theorem released_not_held_left :
    Admissible (step 4) (WriterAllows 4) (initial (some 7)) leftSchedule ∧
      advances leftSchedule < 2 ^ 64 - 1 ∧
      (execute (step 4) (initial (some 7)) heldSchedule).released 4 = [] ∧
      7 ∈ (execute (step 4) (initial (some 7)) leftSchedule).released 4 ∧
      7 ∉ ((execute (step 4) (initial (some 7)) leftSchedule).readers 0).held := by
  have free : (execute (step 4) (initial (some 7))
      [.loadGlobal 0, .publish 0, .read 0] : State Nat 2).Free 4 8 := by
    refine ⟨by decide +kernel, ?_, ?_⟩
    · rintro retiring ⟨⟩
    · intro offset below
      exact absurd below (Nat.not_lt_zero offset)
  have allowed : Admissible (step 4) (WriterAllows 4) (initial (some 7)) leftSchedule :=
    ⟨trivial, trivial, trivial, free, trivial, show 0 < 4 by decide, trivial, trivial,
      trivial, trivial, trivial, trivial, trivial, trivial, trivial⟩
  have few : advances leftSchedule < 2 ^ 64 - 1 := by decide +kernel
  have member : 7 ∈ (execute (step 4) (initial (some 7)) leftSchedule).released 4 := by
    decide +kernel
  exact ⟨allowed, few, by decide +kernel, member,
    released_not_held (some 7) leftSchedule allowed few 7 member 0⟩

/-! ## The end of the epoch counter -/

theorem execute_replicate_advance (capacity count : Nat) (state : State α maxThreads) :
    execute (step capacity) state (List.replicate count .advance) =
      { state with globalEpoch := state.globalEpoch + BitVec.ofNat 64 count } := by
  induction count generalizing state with
  | zero => simp
  | succ count ih =>
      rw [List.replicate_succ, execute_cons, ih, step, Nat.add_comm count 1,
        BitVec.ofNat_add, ← BitVec.add_assoc]
      rfl

theorem allowed_replicate_advance (capacity count : Nat) (state : State α maxThreads) :
    Admissible (step capacity) (WriterAllows capacity) state
      (List.replicate count .advance) := by
  induction count generalizing state with
  | zero => trivial
  | succ count ih => exact ⟨trivial, ih _⟩

/-- A reader obtains node `7` in the last epoch before the counter wraps; the writer
retires the node in epoch `0` and scans in epoch `1`. -/
def wrappingSchedule : List (Move Nat 1) :=
  [.loadGlobal 0, .publish 0, .read 0, .advance, .unlink none, .loadEpoch, .retire,
    .advance, .beginScan, .scanThread]

/-- After `2 ^ 64` calls of `advance` a node is released under its reader. -/
theorem released_under_reader :
    Admissible (step 4) (WriterAllows 4) (initial (some 7))
        (List.replicate (2 ^ 64 - 2) .advance ++ wrappingSchedule) ∧
      7 ∈ (execute (step 4) (initial (some 7))
        (List.replicate (2 ^ 64 - 2) .advance ++ wrappingSchedule)).released 4 ∧
      7 ∈ ((execute (step 4) (initial (some 7))
        (List.replicate (2 ^ 64 - 2) .advance ++ wrappingSchedule)).readers 0).held := by
  rw [Admissible.append_iff, execute_append, execute_replicate_advance]
  refine ⟨⟨allowed_replicate_advance _ _ _, ?_⟩, ?_, ?_⟩
  · exact ⟨trivial, trivial, trivial, trivial, trivial, trivial, show 0 < 4 by decide,
      trivial, trivial, trivial, trivial⟩
  · decide +kernel
  · decide +kernel

end State

end SlabFlux.Core.EpochReclamation
