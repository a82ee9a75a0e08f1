import SlabFlux.Lib.Execution
import SlabFlux.Net.Defragmenter.Datagrams

/-!
# Every datagram is reassembled

The probe matches and claims in one pass, so a slot that has become free in front of a
datagram's own slot is claimed by the datagram's next fragment.  While no such gap
opens, no slot of another datagram is taken for the fragment's own, no fragment is
empty and a datagram in one fragment finds a free slot, each datagram is handed on
once, with the call that brings the last of its fragments.
-/

namespace SlabFlux.Net.Defragmenter

open Lib Function
variable {arrivals : List Fragment}

/-- The payload of a returned frame. -/
def Reassembled.payload (returned : Reassembled) : Bytes :=
  returned.frame.bytes (14 + (headerLen returned.frame).toNat) returned.length

/-- The datagram is handed on by the call that brings the last of its fragments, and by
no other call. -/
def DeliveredOnce (arrivals : List Fragment) (results : List (Option Reassembled))
    (datagram : Datagram) : Prop :=
  ∃ done last rest returned, arrivals = done ++ last :: rest ∧ frameKey last.frame = datagram.key ∧
    (∀ later ∈ rest, frameKey later.frame ≠ datagram.key) ∧
    results[done.length]? = some (some returned) ∧
    frameKey returned.frame = datagram.key ∧ returned.payload = datagram.payload ∧
    ∀ (index : Nat) (other : Reassembled), results[index]? = some (some other) →
      frameKey other.frame = datagram.key → index = done.length

/-- A fragment is not empty; the slots of its window that match it carry its key; those
in front of its datagram's own slot are in use; and if it is a whole datagram, some slot
of its window is free. -/
@[mk_iff] structure Placed (platform : Platform) (state : System) (fragment : Fragment) :
    Prop where
  nonempty : 0 < (payloadLen fragment.frame).toNat
  sameKey : ∀ step < 8, let slot := state.defragmenter.slots (probe platform fragment.frame step)
    slot.isMatch fragment = true → slot.key = frameKey fragment.frame
  noGap : ∀ step < 8, let slot := state.defragmenter.slots (probe platform fragment.frame step)
    slot.active = true → slot.key = frameKey fragment.frame → ∀ earlier < step,
      (state.defragmenter.slots (probe platform fragment.frame earlier)).active = true
  room : offsetBytes fragment.frame = 0 → moreFragments fragment.frame = false → ∃ step < 8,
      (state.defragmenter.slots (probe platform fragment.frame step)).active = false

instance (platform : Platform) (state : System) (fragment : Fragment) :
    Decidable (Placed platform state fragment) :=
  decidable_of_iff _ (placed_iff platform state fragment).symm

/-! ## Facts about dissections -/

theorem Incomplete.step {done rest : List Fragment} {fragment : Fragment}
    {datagram : Datagram} (different : frameKey fragment.frame ≠ datagram.key) :
    Incomplete (done ++ [fragment]) rest datagram ↔
      Incomplete done (fragment :: rest) datagram := by
  simp [Incomplete, or_and_right, exists_or, different]

namespace Dissection

variable {datagrams : List Datagram} {done rest : List Fragment} {fragment : Fragment}
  {datagram : Datagram}

theorem eq_of_key (dissection : Dissection datagrams arrivals) {first second : Datagram}
    (firstIn : first ∈ datagrams) (secondIn : second ∈ datagrams) (same : first.key = second.key) :
    first = second :=
  List.inj_on_of_nodup_map (List.pairwise_map.mpr dissection.distinct) firstIn secondIn same

/-- A fragment with a datagram's key is a piece of it. -/
theorem piece_of_key (dissection : Dissection datagrams arrivals) (arrived : fragment ∈ arrivals)
    (isDatagram : datagram ∈ datagrams) (same : frameKey fragment.frame = datagram.key) :
    datagram.HasPiece fragment := by
  obtain ⟨owner, isOwner, piece⟩ := dissection.pieces fragment arrived
  rwa [dissection.eq_of_key isDatagram isOwner (same.symm.trans piece.key)]

/-- A fragment shares no position with those of its datagram that came before. -/
theorem disjoint_of_done (dissection : Dissection datagrams (done ++ fragment :: rest))
    {earlier : Fragment} (arrived : earlier ∈ done)
    (same : frameKey earlier.frame = frameKey fragment.frame) :
    Disjoint (covered earlier.frame) (covered fragment.frame) :=
  (List.pairwise_append.mp dissection.apart).2.2 earlier arrived fragment
    List.mem_cons_self same

/-- What has not arrived with the fragment is still to come, if the fragment is the
first of its datagram. -/
theorem exists_later (dissection : Dissection datagrams (done ++ fragment :: rest))
    (isDatagram : datagram ∈ datagrams)
    (first : ∀ earlier ∈ done, frameKey earlier.frame ≠ datagram.key)
    {position : Nat} (inside : position < datagram.payload.length)
    (missing : position ∉ covered fragment.frame) :
    ∃ later ∈ rest, frameKey later.frame = datagram.key := by
  obtain ⟨supplier, arrived, same, covers⟩ := dissection.covering datagram isDatagram _ inside
  rcases List.mem_append.mp arrived with before | fromNow
  · exact absurd same (first supplier before)
  · rcases List.mem_cons.mp fromNow with rfl | later
    · exact absurd covers missing
    · exact ⟨supplier, later, same⟩

/-- A fragment that is not the whole of its datagram leaves something out. -/
theorem exists_missing (piece : datagram.HasPiece fragment)
    (nonempty : 0 < (payloadLen fragment.frame).toNat)
    (part : ¬(offsetBytes fragment.frame = 0 ∧ moreFragments fragment.frame = false)) :
    ∃ position < datagram.payload.length, position ∉ covered fragment.frame := by
  have within := piece.within
  unfold endBytes at within
  by_cases atStart : offsetBytes fragment.frame = 0
  · have more : moreFragments fragment.frame = true :=
      Bool.not_eq_false _ ▸ fun last => part ⟨atStart, last⟩
    rw [piece.more, decide_eq_true_eq] at more
    refine ⟨endBytes fragment.frame, more, ?_⟩
    rw [mem_covered]
    unfold endBytes
    omega
  · have positive : (offsetBytes fragment.frame).toNat ≠ 0 := by
      intro zero
      exact atStart (BitVec.eq_of_toNat_eq zero)
    refine ⟨0, by omega, ?_⟩
    rw [mem_covered]
    omega

end Dissection

/-! ## The slots along a run -/

/-- Each slot in use belongs to an incomplete datagram and holds what has arrived of it,
and each incomplete datagram has exactly one slot. -/
structure Tracking (platform : Platform) (datagrams : List Datagram)
    (done rest : List Fragment) (state : SpatialDefragmenter) : Prop where
  accounted : ∀ index, (state.slots index).Accounted
  owned : ∀ index, (state.slots index).active = true → ∃ datagram ∈ datagrams,
    Incomplete done rest datagram ∧ (state.slots index).Holds datagram done
  inWindow : ∀ index, (state.slots index).active = true → ∃ earlier ∈ done,
    frameKey earlier.frame = (state.slots index).key ∧
      ∃ step < 8, index = probe platform earlier.frame step
  started : ∀ index, (state.slots index).active = true → ∃ earlier ∈ done,
    (state.slots index).firstActiveTs = earlier.now
  housed : ∀ datagram ∈ datagrams, Incomplete done rest datagram → ∃ index,
    (state.slots index).active = true ∧ (state.slots index).key = datagram.key
  single : ∀ first second, (state.slots first).active = true → (state.slots second).active = true →
    (state.slots first).key = (state.slots second).key → first = second

/-- The slot the probe ends at is the datagram's own, or a free one if this is its first
fragment. -/
structure Target (platform : Platform) (datagram : Datagram) (done : List Fragment)
    (fragment : Fragment) (state : SpatialDefragmenter) (index : Nat) (slot : Slot) :
    Prop where
  accounted : slot.Accounted
  holds : slot.Holds datagram done
  active : slot.active = true
  inWindow : ∃ step < 8, index = probe platform fragment.frame step
  started : ∃ earlier ∈ done ++ [fragment], slot.firstActiveTs = earlier.now
  own : ∀ other, (state.slots other).active = true →
    ((state.slots other).key = datagram.key ↔ other = index)

namespace Tracking

variable {platform : Platform} {datagrams : List Datagram} {done rest : List Fragment}
  {fragment : Fragment} {datagram : Datagram} {state : System}

theorem initial (platform : Platform) (datagrams : List Datagram) (arrivals : List Fragment)
    (scratch : Memory) :
    Tracking platform datagrams [] arrivals (.initial scratch) where
  accounted _ := Slot.Accounted.zeroed _
  owned _ active := by cases active
  inWindow _ active := by cases active
  started _ active := by cases active
  housed _ _ incomplete := by simp [Incomplete] at incomplete
  single _ _ active := by cases active

section

variable (tracking : Tracking platform datagrams done (fragment :: rest) state.defragmenter)
include tracking

/-- A slot in use that belongs to another datagram is passed over. -/
theorem inspect_eq_none (timely : Timely (done ++ fragment :: rest))
    (placed : Placed platform state fragment) {step : Nat} (inside : step < 8)
    (active : (state.defragmenter.slots (probe platform fragment.frame step)).active = true)
    (different : (state.defragmenter.slots (probe platform fragment.frame step)).key ≠
      frameKey fragment.frame) :
    state.defragmenter.inspect platform fragment step = none := by
  have noMatch : ¬(state.defragmenter.slots (probe platform fragment.frame step)).isMatch
      fragment = true :=
    fun isMatch => different (placed.sameKey step inside isMatch)
  obtain ⟨earlier, arrived, started⟩ := tracking.started _ active
  have fresh : fragment.now - earlier.now ≤ 30000 :=
    (List.pairwise_append.mp timely).2.2 earlier arrived fragment List.mem_cons_self
  have inUse : ¬(state.defragmenter.slots (probe platform fragment.frame step)).isClaimable
      fragment = true := by
    simp only [Slot.isClaimable, active, started, Bool.not_true, Bool.false_or,
      decide_eq_true_eq, BitVec.not_lt]
    exact fresh
  unfold SpatialDefragmenter.inspect
  rw [if_neg noMatch, if_neg inUse]

/-- No slot in use has the key of a datagram none of whose fragments has arrived. -/
theorem key_ne_of_first (first : ∀ earlier ∈ done, frameKey earlier.frame ≠ datagram.key)
    {index : Nat} (active : (state.defragmenter.slots index).active = true) :
    (state.defragmenter.slots index).key ≠ datagram.key := by
  intro same
  obtain ⟨earlier, arrived, sameKey, _⟩ := tracking.inWindow index active
  exact first earlier arrived (sameKey.trans same)

/-- With at most 8 incomplete datagrams, a new one finds a free slot. -/
theorem exists_free (few : FewIncomplete datagrams (done ++ fragment :: rest))
    (isDatagram : datagram ∈ datagrams) (sameKey : frameKey fragment.frame = datagram.key)
    (first : ∀ earlier ∈ done, frameKey earlier.frame ≠ datagram.key)
    (later : ∃ later ∈ rest, frameKey later.frame = datagram.key) :
    ∃ step < 8, (state.defragmenter.slots (probe platform fragment.frame step)).active = false := by
  by_contra full
  have active : ∀ step < 8, (state.defragmenter.slots
      (probe platform fragment.frame step)).active = true := by
    intro step inside
    by_contra free
    exact full ⟨step, inside, Bool.not_eq_true _ ▸ free⟩
  -- the keys of the window's eight slots, and the fragment's own, are nine keys of
  -- incomplete datagrams
  let windowKeys := (Finset.range 8).image fun step =>
    (state.defragmenter.slots (probe platform fragment.frame step)).key
  let incompleteKeys := ((datagrams.filter
    (Incomplete (done ++ [fragment]) rest ·)).map Datagram.key).toFinset
  have eight : windowKeys.card = 8 := by
    rw [Finset.card_image_of_injOn, Finset.card_range]
    intro left leftIn right rightIn same
    have leftBelow := Finset.mem_range.mp leftIn
    have rightBelow := Finset.mem_range.mp rightIn
    exact probe_injective platform fragment.frame leftBelow rightBelow
      (tracking.single _ _ (active _ leftBelow) (active _ rightBelow) same)
  have new : datagram.key ∉ windowKeys := by
    intro member
    obtain ⟨step, inside, same⟩ := Finset.mem_image.mp member
    exact tracking.key_ne_of_first first (active step (Finset.mem_range.mp inside)) same
  have contained : insert datagram.key windowKeys ⊆ incompleteKeys := by
    intro key member
    rw [List.mem_toFinset, List.mem_map]
    rcases Finset.mem_insert.mp member with rfl | inWindow
    · refine ⟨datagram, List.mem_filter.mpr ⟨isDatagram, decide_eq_true ⟨?_, later⟩⟩, rfl⟩
      exact ⟨fragment, by simp, sameKey⟩
    · obtain ⟨step, inside, rfl⟩ := Finset.mem_image.mp inWindow
      have isActive := active step (Finset.mem_range.mp inside)
      obtain ⟨owner, isOwner, incomplete, holds⟩ := tracking.owned _ isActive
      refine ⟨owner, List.mem_filter.mpr ⟨isOwner, decide_eq_true ?_⟩, holds.key.symm⟩
      rw [Incomplete.step]
      · exact incomplete
      · rw [sameKey, ← holds.key]
        exact (tracking.key_ne_of_first first isActive).symm
  have atMost : incompleteKeys.card ≤ 8 := by
    have count := few (done.length + 1) (by simp)
    have taken : (done ++ fragment :: rest).take (done.length + 1) = done ++ [fragment] := by
      simp [List.take_append]
    have dropped : (done ++ fragment :: rest).drop (done.length + 1) = rest := by
      simp [List.drop_append]
    rw [taken, dropped] at count
    refine Nat.le_trans (List.toFinset_card_le _) ?_
    rw [List.length_map]
    exact count
  have tooMany := Finset.card_le_card contained
  rw [Finset.card_insert_of_notMem new] at tooMany
  omega

section

variable (timely : Timely (done ++ fragment :: rest))
include timely

theorem target_of_housed (placed : Placed platform state fragment)
    (dissection : Dissection datagrams (done ++ fragment :: rest))
    (isDatagram : datagram ∈ datagrams) (sameKey : frameKey fragment.frame = datagram.key)
    {index : Nat} (active : (state.defragmenter.slots index).active = true)
    (key : (state.defragmenter.slots index).key = datagram.key) :
    state.defragmenter.lookup platform fragment = some (index, state.defragmenter.slots index) ∧
      Target platform datagram done fragment state.defragmenter index
        (state.defragmenter.slots index) := by
  obtain ⟨earlier, arrived, earlierKey, step, inside, found⟩ := tracking.inWindow index active
  have position : index = probe platform fragment.frame step :=
    found.trans (probe_congr platform (earlierKey.trans (key.trans sameKey.symm)) step)
  have isMatch : (state.defragmenter.slots index).isMatch fragment = true := by
    have same := key.trans sameKey.symm
    have src := congrArg Key.src same
    have id := congrArg Key.id same
    simp only [Slot.key, frameKey] at src id
    simp [Slot.isMatch, active, src, id]
  have own : ∀ other, (state.defragmenter.slots other).active = true →
      ((state.defragmenter.slots other).key = datagram.key ↔ other = index) := by
    intro other otherActive
    constructor
    · intro same
      exact tracking.single _ _ otherActive active (same.trans key.symm)
    · rintro rfl
      exact key
  constructor
  · apply lookup_of_inspect inside
    · intro before isBefore
      have inUse := placed.noGap step inside (position ▸ active)
        (position ▸ key.trans sameKey.symm) before isBefore
      apply tracking.inspect_eq_none timely placed (by omega) inUse
      intro same
      have equal := (own _ inUse).mp (same.trans sameKey)
      have steps := probe_injective platform fragment.frame (by omega) inside
        (equal.trans position)
      omega
    · unfold SpatialDefragmenter.inspect
      rw [← position, if_pos isMatch]
  · obtain ⟨owner, isOwner, _, holds⟩ := tracking.owned _ active
    obtain rfl := dissection.eq_of_key isDatagram isOwner (key.symm.trans holds.key)
    obtain ⟨starter, isStarter, started⟩ := tracking.started _ active
    exact ⟨tracking.accounted _, holds, active, ⟨step, inside, position⟩,
      ⟨starter, List.mem_append_left _ isStarter, started⟩, own⟩

/-- The probe for a datagram none of whose fragments has arrived. -/
theorem target_of_first (placed : Placed platform state fragment)
    (sameKey : frameKey fragment.frame = datagram.key)
    (first : ∀ earlier ∈ done, frameKey earlier.frame ≠ datagram.key)
    (free : ∃ step, step < 8 ∧ (state.defragmenter.slots
      (probe platform fragment.frame step)).active = false) :
    ∃ index slot, state.defragmenter.lookup platform fragment = some (index, slot) ∧
      Target platform datagram done fragment state.defragmenter index slot := by
  obtain ⟨inside, isFree⟩ := Nat.find_spec free
  have before : ∀ earlier < Nat.find free, (state.defragmenter.slots
      (probe platform fragment.frame earlier)).active = true := by
    intro earlier isEarlier
    have notFree := Nat.find_min free isEarlier
    by_contra inactive
    exact notFree ⟨by omega, Bool.not_eq_true _ ▸ inactive⟩
  refine ⟨probe platform fragment.frame (Nat.find free), (state.defragmenter.slots
    (probe platform fragment.frame (Nat.find free))).claim fragment, ?_, ?_⟩
  · apply lookup_of_inspect inside
    · intro earlier isEarlier
      have inUse := before earlier isEarlier
      apply tracking.inspect_eq_none timely placed (by omega) inUse
      rw [sameKey]
      exact tracking.key_ne_of_first first inUse
    · unfold SpatialDefragmenter.inspect
      rw [if_neg (by simp [Slot.isMatch, isFree]), if_pos (by simp [Slot.isClaimable, isFree])]
  · refine ⟨.claim _ _, .claim _ sameKey first, rfl, ⟨_, inside, rfl⟩, ⟨fragment, by simp, rfl⟩, ?_⟩
    intro other active
    constructor
    · intro same
      exact absurd same (tracking.key_ne_of_first first active)
    · rintro rfl
      rw [isFree] at active
      cases active

/-- The probe ends at the right slot. -/
theorem exists_target (few : FewIncomplete datagrams (done ++ fragment :: rest))
    (placed : Placed platform state fragment)
    (dissection : Dissection datagrams (done ++ fragment :: rest))
    (isDatagram : datagram ∈ datagrams) (piece : datagram.HasPiece fragment) :
    ∃ index slot, state.defragmenter.lookup platform fragment = some (index, slot) ∧
      Target platform datagram done fragment state.defragmenter index slot := by
  by_cases begun : ∃ earlier ∈ done, frameKey earlier.frame = datagram.key
  · have incomplete : Incomplete done (fragment :: rest) datagram :=
      ⟨begun, fragment, List.mem_cons_self, piece.key⟩
    obtain ⟨index, active, key⟩ := tracking.housed datagram isDatagram incomplete
    exact ⟨index, _,
      tracking.target_of_housed timely placed dissection isDatagram piece.key active key⟩
  · have first : ∀ earlier ∈ done, frameKey earlier.frame ≠ datagram.key :=
      fun earlier arrived same => begun ⟨earlier, arrived, same⟩
    apply tracking.target_of_first timely placed piece.key first
    by_cases whole : offsetBytes fragment.frame = 0 ∧ moreFragments fragment.frame = false
    · exact placed.room whole.1 whole.2
    · obtain ⟨position, inside, missing⟩ :=
        Dissection.exists_missing piece placed.nonempty whole
      exact tracking.exists_free few isDatagram piece.key first
        (dissection.exists_later isDatagram first inside missing)

end

end

end Tracking

namespace Target

variable {platform : Platform} {datagrams : List Datagram} {done rest : List Fragment}
  {fragment : Fragment} {datagram : Datagram} {state : SpatialDefragmenter} {index : Nat}
  {slot : Slot}

section

variable (target : Target platform datagram done fragment state index slot)
  (dissection : Dissection datagrams (done ++ fragment :: rest))
include target dissection

theorem accept (piece : datagram.HasPiece fragment)
    (nonempty : 0 < (payloadLen fragment.frame).toNat) :
    fragment.lengthsValid = true ∧ Disjoint slot.present (covered fragment.frame) := by
  refine ⟨piece.lengthsValid nonempty, Finset.disjoint_left.mpr ?_⟩
  intro position held inside
  obtain ⟨earlier, arrived, same, covers⟩ := (target.holds.held position).mp held
  have apart := dissection.disjoint_of_done arrived (same.trans piece.key.symm)
  exact Finset.disjoint_left.mp apart covers inside

/-- The trigger fires exactly when no fragment of the datagram is still to come. -/
theorem isComplete_iff
    (nonempty : ∀ arrival ∈ done ++ fragment :: rest, 0 < (payloadLen arrival.frame).toNat)
    (isDatagram : datagram ∈ datagrams) (piece : datagram.HasPiece fragment) :
    (slot.record fragment.frame).isComplete = true ↔
      ∀ later ∈ rest, frameKey later.frame ≠ datagram.key := by
  have ownLength := nonempty fragment (by simp)
  obtain ⟨valid, apart⟩ := target.accept dissection piece ownLength
  have accounted := target.accounted.record valid apart
  have holds := target.holds.record piece ownLength
  constructor
  · intro complete later isLater same
    have arrival : later ∈ done ++ fragment :: rest := by simp [isLater]
    have laterPiece := dissection.piece_of_key arrival isDatagram same
    -- the later fragment's first byte has not arrived
    have inside : (offsetBytes later.frame).toNat ∈ covered later.frame :=
      mem_covered.mpr ⟨Nat.le_refl _, Nat.lt_add_of_pos_right (nonempty later arrival)⟩
    have held := (holds.present_of_complete accounted complete).2 _
      (laterPiece.position_lt inside)
    obtain ⟨earlier, arrived, earlierKey, covers⟩ := (holds.held _).mp held
    have order : (done ++ [fragment] ++ rest).Pairwise fun first second =>
        frameKey first.frame = frameKey second.frame →
          Disjoint (covered first.frame) (covered second.frame) := by
      simpa using dissection.apart
    have disjoint := (List.pairwise_append.mp order).2.2 earlier arrived later isLater
      (earlierKey.trans same.symm)
    exact Finset.disjoint_left.mp disjoint covers inside
  · intro noneLater
    have within := piece.within
    unfold endBytes at within
    apply holds.complete_of_all accounted (by omega)
    intro position inside
    obtain ⟨supplier, arrived, same, covers⟩ :=
      dissection.covering datagram isDatagram position inside
    refine (holds.held position).mpr ⟨supplier, ?_, same, covers⟩
    rw [List.mem_append] at arrived ⊢
    rcases arrived with before | fromNow
    · exact Or.inl before
    · rcases List.mem_cons.mp fromNow with rfl | later
      · exact Or.inr (List.mem_singleton_self _)
      · exact absurd same (noneLater supplier later)

/-- The frame that is handed on carries the datagram. -/
theorem returned (piece : datagram.HasPiece fragment)
    (nonempty : 0 < (payloadLen fragment.frame).toNat)
    (complete : (slot.record fragment.frame).isComplete = true) (scratch : Memory) :
    let returned : Reassembled :=
      { frame := reassemble platform scratch (slot.record fragment.frame) fragment.frame
        length := (slot.record fragment.frame).totalExpectedLength.toNat }
    frameKey returned.frame = datagram.key ∧ returned.payload = datagram.payload := by
  obtain ⟨valid, apart⟩ := target.accept dissection piece nonempty
  have accounted := target.accounted.record valid apart
  have holds := target.holds.record piece nonempty
  obtain ⟨total, all⟩ := holds.present_of_complete accounted complete
  refine ⟨(reassemble_key _ _ _ _ piece.full).trans piece.key, ?_⟩
  unfold Reassembled.payload
  rw [reassemble_headerLen _ _ _ _ piece.full]
  apply List.ext_getElem
  · rw [Memory.length_bytes, total]
  · intro position inside inside'
    have byte := holds.bytes position (all position inside')
    rw [List.getElem?_eq_getElem inside', Option.some.injEq] at byte
    rw [byte]
    simp only [Memory.bytes, List.getElem_map, List.getElem_range]
    exact reassemble_payload _ _ _ _ piece.full (by omega)

end

end Target

/-! ## Calls and runs -/

/-- What a call reports for the datagram whose fragment it was given. -/
def Reported (datagram : Datagram) (rest : List Fragment) (result : Option Reassembled) : Prop :=
  ((∃ later ∈ rest, frameKey later.frame = datagram.key) ∧ result = none) ∨
    ((∀ later ∈ rest, frameKey later.frame ≠ datagram.key) ∧ ∃ returned,
      result = some returned ∧ frameKey returned.frame = datagram.key ∧
        returned.payload = datagram.payload)

namespace Tracking

variable {platform : Platform} {datagrams : List Datagram} {done rest : List Fragment}
  {fragment : Fragment} {datagram : Datagram}

/-- The slots after the probed one has been written. -/
theorem written {state : SpatialDefragmenter} {index : Nat} {slot recorded : Slot}
    (tracking : Tracking platform datagrams done (fragment :: rest) state)
    (target : Target platform datagram done fragment state index slot)
    (isDatagram : datagram ∈ datagrams) (sameKey : frameKey fragment.frame = datagram.key)
    (accounted : recorded.Accounted) (holds : recorded.Holds datagram (done ++ [fragment]))
    (started : recorded.firstActiveTs = slot.firstActiveTs)
    (active_iff : recorded.active = true ↔
      ∃ later ∈ rest, frameKey later.frame = datagram.key) (scratch : Memory) :
    Tracking platform datagrams (done ++ [fragment]) rest
      { slots := setSlot state.slots index recorded
        reassembledFrame := scratch } := by
  -- the other slots in use belong to other datagrams
  have otherKey : ∀ other ≠ index, (state.slots other).active = true →
      (state.slots other).key ≠ datagram.key :=
    fun other different active same => different ((target.own other active).mp same)
  rw [setSlot_eq]
  refine ⟨?_, ?_, ?_, ?_, ?_, ?_⟩
  · exact (forall_update_iff _ fun _ (slot : Slot) => slot.Accounted).mpr
      ⟨accounted, fun other _ => tracking.accounted other⟩
  · refine (forall_update_iff _ fun _ (slot : Slot) => slot.active = true →
      ∃ datagram ∈ datagrams, Incomplete (done ++ [fragment]) rest datagram ∧
        slot.Holds datagram (done ++ [fragment])).mpr ⟨fun active => ?_, ?_⟩
    · exact ⟨datagram, isDatagram, ⟨⟨fragment, by simp, sameKey⟩, active_iff.mp active⟩, holds⟩
    · intro other different active
      obtain ⟨owner, isOwner, incomplete, ownerHolds⟩ := tracking.owned other active
      have ownerKey : frameKey fragment.frame ≠ owner.key := by
        rw [sameKey, ← ownerHolds.key]
        exact (otherKey other different active).symm
      exact ⟨owner, isOwner, (Incomplete.step ownerKey).mpr incomplete, ownerHolds.other ownerKey⟩
  · refine (forall_update_iff _ fun place (slot : Slot) => slot.active = true →
      ∃ earlier ∈ done ++ [fragment], frameKey earlier.frame = slot.key ∧
        ∃ step < 8, place = probe platform earlier.frame step).mpr ⟨fun _ => ?_, ?_⟩
    · exact ⟨fragment, by simp, sameKey.trans holds.key.symm, target.inWindow⟩
    · intro other _ active
      obtain ⟨earlier, arrived, found⟩ := tracking.inWindow other active
      exact ⟨earlier, List.mem_append_left _ arrived, found⟩
  · refine (forall_update_iff _ fun _ (slot : Slot) => slot.active = true →
      ∃ earlier ∈ done ++ [fragment], slot.firstActiveTs = earlier.now).mpr ⟨fun _ => ?_, ?_⟩
    · rw [started]
      exact target.started
    · intro other _ active
      obtain ⟨earlier, arrived, began⟩ := tracking.started other active
      exact ⟨earlier, List.mem_append_left _ arrived, began⟩
  · intro other isOther incomplete
    by_cases same : other.key = datagram.key
    · refine ⟨index, ?_⟩
      dsimp only
      rw [update_self]
      obtain ⟨_, later, isLater, laterKey⟩ := incomplete
      exact ⟨active_iff.mpr ⟨later, isLater, laterKey.trans same⟩, holds.key.trans same.symm⟩
    · have different : frameKey fragment.frame ≠ other.key := by
        rw [sameKey]
        exact fun equal => same equal.symm
      obtain ⟨place, active, key⟩ :=
        tracking.housed other isOther ((Incomplete.step different).mp incomplete)
      have elsewhere : place ≠ index := by
        intro here
        exact same (key.symm.trans ((target.own place active).mpr here))
      refine ⟨place, ?_⟩
      dsimp only
      rw [update_of_ne elsewhere]
      exact ⟨active, key⟩
  · intro first second
    dsimp only
    by_cases firstHere : first = index <;> by_cases secondHere : second = index
    · intro _ _ _
      rw [firstHere, secondHere]
    · rw [firstHere, update_self, update_of_ne secondHere, holds.key]
      intro _ active same
      exact absurd same.symm (otherKey second secondHere active)
    · rw [secondHere, update_self, update_of_ne firstHere, holds.key]
      intro active _ same
      exact absurd same (otherKey first firstHere active)
    · rw [update_of_ne firstHere, update_of_ne secondHere]
      exact tracking.single first second

theorem step {state : System}
    (tracking : Tracking platform datagrams done (fragment :: rest) state.defragmenter)
    (timely : Timely (done ++ fragment :: rest))
    (few : FewIncomplete datagrams (done ++ fragment :: rest))
    (placed : Placed platform state fragment)
    (dissection : Dissection datagrams (done ++ fragment :: rest))
    (nonempty : ∀ arrival ∈ done ++ fragment :: rest, 0 < (payloadLen arrival.frame).toNat) :
    let outcome := state.defragmenter.processFragment platform fragment
    Tracking platform datagrams (done ++ [fragment]) rest outcome.1 ∧
      ∃ datagram ∈ datagrams, frameKey fragment.frame = datagram.key ∧
        Reported datagram rest outcome.2 := by
  obtain ⟨datagram, isDatagram, piece⟩ := dissection.pieces fragment (by simp)
  obtain ⟨index, slot, found, target⟩ :=
    tracking.exists_target timely few placed dissection isDatagram piece
  obtain ⟨valid, apart⟩ := target.accept dissection piece placed.nonempty
  have accepted : slot.accept fragment = some (slot.record fragment.frame) :=
    Slot.accept_eq_some_iff.mpr ⟨valid, apart, rfl⟩
  have accounted := target.accounted.record valid apart
  have holds := target.holds.record piece placed.nonempty
  have trigger := target.isComplete_iff dissection nonempty isDatagram piece
  unfold SpatialDefragmenter.processFragment
  rw [found]
  dsimp only
  rw [accepted]
  dsimp only
  by_cases complete : (slot.record fragment.frame).isComplete = true
  · rw [if_pos complete]
    have noneLater := trigger.mp complete
    refine ⟨?_, datagram, isDatagram, piece.key, Or.inr ⟨noneLater, _, rfl,
      target.returned dissection piece placed.nonempty complete _⟩⟩
    have released : Slot.Accounted { slot.record fragment.frame with active := false } :=
      ⟨accounted.counted, accounted.below, accounted.bounded⟩
    have stillHolds : Slot.Holds { slot.record fragment.frame with active := false } datagram
        (done ++ [fragment]) :=
      ⟨holds.key, holds.held, holds.bytes, holds.highest, holds.unfinished, holds.finished⟩
    refine tracking.written target isDatagram piece.key released stillHolds rfl ?_ _
    constructor
    · intro active
      cases active
    · rintro ⟨later, isLater, same⟩
      exact absurd same (noneLater later isLater)
  · rw [if_neg complete]
    have later : ∃ later ∈ rest, frameKey later.frame = datagram.key := by
      by_contra none
      exact complete (trigger.mpr fun later isLater same => none ⟨later, isLater, same⟩)
    refine ⟨?_, datagram, isDatagram, piece.key, Or.inl ⟨later, rfl⟩⟩
    exact tracking.written target isDatagram piece.key accounted holds rfl
      ⟨fun _ => later, fun _ => target.active⟩ _

/-- A whole run: each call reports on the datagram whose fragment it was given. -/
theorem run (dissection : Dissection datagrams arrivals) (timely : Timely arrivals)
    (few : FewIncomplete datagrams arrivals)
    (nonempty : ∀ arrival ∈ arrivals, 0 < (payloadLen arrival.frame).toNat) {state : System}
    (split : done ++ rest = arrivals)
    (tracking : Tracking platform datagrams done rest state.defragmenter)
    (placed : Admissible (System.step platform) (Placed platform) state rest) :
    ∃ outcomes, (execute (System.step platform) state rest).results =
        state.results ++ outcomes ∧ outcomes.length = rest.length ∧
      ∀ before fragment after, rest = before ++ fragment :: after →
        ∃ datagram ∈ datagrams, frameKey fragment.frame = datagram.key ∧
          ∃ result, outcomes[before.length]? = some result ∧ Reported datagram after result := by
  induction rest generalizing done state with
  | nil => exact ⟨[], by simp, rfl, fun before fragment after impossible => by simp at impossible⟩
  | cons fragment rest ih =>
      subst split
      obtain ⟨isPlaced, restPlaced⟩ := placed
      obtain ⟨tracked, reported⟩ := tracking.step timely few isPlaced dissection nonempty
      have next : Tracking platform datagrams (done ++ [fragment]) rest
          (state.step platform fragment).defragmenter := tracked
      obtain ⟨outcomes, results, length, each⟩ := ih (by simp) next restPlaced
      refine ⟨(state.defragmenter.processFragment platform fragment).2 :: outcomes, ?_,
        congrArg (· + 1) length, ?_⟩
      · rw [execute_cons, results]
        simp [System.step]
      · intro before current after isSplit
        cases before with
        | nil =>
            obtain ⟨rfl, rfl⟩ := List.cons.inj isSplit
            obtain ⟨datagram, isDatagram, sameKey, report⟩ := reported
            exact ⟨datagram, isDatagram, sameKey, _, rfl, report⟩
        | cons head before =>
            obtain ⟨rfl, restSplit⟩ := List.cons.inj isSplit
            obtain ⟨datagram, isDatagram, sameKey, result, here, report⟩ :=
              each before current after restSplit
            exact ⟨datagram, isDatagram, sameKey, result, by simpa using here, report⟩

end Tracking

/-- The last of the arrivals with a property. -/
theorem exists_last {property : Fragment → Prop} (some : ∃ arrival ∈ arrivals, property arrival) :
    ∃ done last rest, arrivals = done ++ last :: rest ∧ property last ∧
      ∀ later ∈ rest, ¬property later := by
  induction arrivals with
  | nil => simp at some
  | cons first arrivals ih =>
      by_cases later : ∃ arrival ∈ arrivals, property arrival
      · obtain ⟨done, last, rest, rfl, holds, none⟩ := ih later
        exact ⟨first :: done, last, rest, rfl, holds, none⟩
      · obtain ⟨arrival, member, holds⟩ := some
        rcases List.mem_cons.mp member with rfl | inRest
        · exact ⟨[], arrival, arrivals, rfl, holds,
            fun other isLater otherHolds => later ⟨other, isLater, otherHolds⟩⟩
        · exact absurd ⟨arrival, inRest, holds⟩ later

/-- Nothing with the property lies behind the last arrival that has it. -/
theorem length_le_of_last {property : Fragment → Prop}
    {arrivals done rest before after : List Fragment} {last arrival : Fragment}
    (split : arrivals = done ++ last :: rest) (noneLater : ∀ later ∈ rest, ¬property later)
    (otherSplit : arrivals = before ++ arrival :: after) (holds : property arrival) :
    before.length ≤ done.length := by
  by_contra behind
  have here : (done ++ last :: rest)[before.length]? = some arrival := by
    rw [← split, otherSplit]
    simp
  have ahead : before.length - done.length = before.length - done.length - 1 + 1 := by omega
  rw [List.getElem?_append_right (by omega), ahead] at here
  exact noneLater arrival (List.mem_of_getElem? here) holds

/-- In every run in which each fragment meets `Placed`, every datagram is handed on
exactly once, by the call that brings the last of its fragments, with its payload. -/
theorem delivered_once (platform : Platform) (scratch : Memory) (datagrams : List Datagram)
    (arrivals : List Fragment) (dissection : Dissection datagrams arrivals)
    (timely : Timely arrivals) (few : FewIncomplete datagrams arrivals)
    (placed : Admissible (System.step platform) (Placed platform) (.initial scratch) arrivals) :
    ∀ datagram ∈ datagrams, DeliveredOnce arrivals
      (execute (System.step platform) (.initial scratch) arrivals).results datagram := by
  intro datagram isDatagram
  have nonempty : ∀ arrival ∈ arrivals, 0 < (payloadLen arrival.frame).toNat :=
    placed.forall_mem fun _ _ isPlaced => isPlaced.nonempty
  obtain ⟨outcomes, results, length, each⟩ :=
    Tracking.run dissection timely few nonempty (List.nil_append arrivals)
      (.initial platform datagrams arrivals scratch) placed
  rw [results, show (System.initial scratch).results = [] from rfl, List.nil_append]
  obtain ⟨done, last, rest, split, sameKey, noneLater⟩ :=
    exists_last (dissection.present datagram isDatagram)
  obtain ⟨owner, isOwner, ownerKey, result, here, report⟩ := each done last rest split
  obtain rfl := dissection.eq_of_key isDatagram isOwner (sameKey.symm.trans ownerKey)
  rcases report with ⟨⟨later, isLater, same⟩, _⟩ | ⟨_, returned, rfl, returnedKey, payload⟩
  · exact absurd same (noneLater later isLater)
  · refine ⟨done, last, rest, returned, split, sameKey, noneLater, here, returnedKey, payload,
      fun index other isResult otherKey => ?_⟩
    obtain ⟨inOutcomes, _⟩ := List.getElem?_eq_some_iff.mp isResult
    have otherSplit : arrivals =
        arrivals.take index ++ arrivals[index] :: arrivals.drop (index + 1) := by simp
    have position : (arrivals.take index).length = index := by
      rw [List.length_take]
      omega
    obtain ⟨otherOwner, _, otherOwnerKey, otherResult, there, otherReport⟩ :=
      each _ _ _ otherSplit
    rw [position, isResult, Option.some.injEq] at there
    subst there
    rcases otherReport with ⟨_, impossible⟩ | ⟨otherNoneLater, _, same, sameOwner, _⟩
    · cases impossible
    · cases same
      rw [← sameOwner, otherKey] at otherOwnerKey otherNoneLater
      have order := length_le_of_last split noneLater otherSplit otherOwnerKey
      have reverse := length_le_of_last otherSplit otherNoneLater split sameKey
      omega

/-- A datagram of nine bytes. -/
def firstDatagram : Datagram where
  key := ⟨1, 2, 6, 7⟩
  payload := List.replicate 8 0xAA ++ [0xAB]
  bounded := by decide

/-- A datagram of nine bytes from another source. -/
def secondDatagram : Datagram where
  key := ⟨3, 2, 6, 8⟩
  payload := List.replicate 8 0xBB ++ [0xBC]
  bounded := by decide

/-- A datagram's first eight bytes. -/
def Datagram.front (datagram : Datagram) (now : BitVec 64) : Fragment :=
  .ofPayload datagram.key 0 true (datagram.payload.take 8) now

/-- The bytes behind them. -/
def Datagram.back (datagram : Datagram) (now : BitVec 64) : Fragment :=
  .ofPayload datagram.key 8 false (datagram.payload.drop 8) now

/-- The second datagram comes while the first one is incomplete. -/
def nestedArrivals : List Fragment :=
  [firstDatagram.front 0, secondDatagram.front 1, secondDatagram.back 2, firstDatagram.back 3]

theorem delivered_once_nested :
    Dissection [firstDatagram, secondDatagram] nestedArrivals ∧ Timely nestedArrivals ∧
      FewIncomplete [firstDatagram, secondDatagram] nestedArrivals ∧
      ∀ datagram ∈ [firstDatagram, secondDatagram], DeliveredOnce nestedArrivals
        (execute (System.step smallPlatform) (.initial fun _ => 0) nestedArrivals).results
        datagram :=
  have dissection : Dissection [firstDatagram, secondDatagram] nestedArrivals := by
    decide +kernel
  have timely : Timely nestedArrivals := by decide +kernel
  have few : FewIncomplete [firstDatagram, secondDatagram] nestedArrivals := by decide +kernel
  ⟨dissection, timely, few, delivered_once smallPlatform (fun _ => 0) _ _ dissection timely few
    (by decide +kernel)⟩

/-- The first datagram is complete before the second one, whose slot lies behind it. -/
def staggeredArrivals : List Fragment :=
  [firstDatagram.front 0, secondDatagram.front 1, firstDatagram.back 2, secondDatagram.back 3]

/-- The slot that the first datagram gives back is claimed by the second one's last
fragment, and the second datagram is never handed on. -/
theorem undelivered_staggered :
    Dissection [firstDatagram, secondDatagram] staggeredArrivals ∧ Timely staggeredArrivals ∧
      FewIncomplete [firstDatagram, secondDatagram] staggeredArrivals ∧
      ¬∀ datagram ∈ [firstDatagram, secondDatagram], DeliveredOnce staggeredArrivals
        (execute (System.step smallPlatform) (.initial fun _ => 0) staggeredArrivals).results
        datagram := by
  refine ⟨by decide +kernel, by decide +kernel, by decide +kernel, fun every => ?_⟩
  obtain ⟨_, _, _, returned, _, _, _, isResult, sameKey, _⟩ :=
    every secondDatagram (by simp)
  have absent : ∀ result ∈ (execute (System.step smallPlatform) (.initial fun _ => 0)
      staggeredArrivals).results, ∀ other ∈ result,
      frameKey other.frame ≠ secondDatagram.key := by decide +kernel
  exact absent _ (List.mem_of_getElem? isResult) returned rfl sameKey

end SlabFlux.Net.Defragmenter
