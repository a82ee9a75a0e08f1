import Mathlib.Data.List.Basic

/-!
# Reserving slots of a ring

A producer of a ring writes the slot its ingress cursor points at and commits it, and the
consumer gives slots back.  A log of such events spares the ring if no write hits a slot
that is committed and not consumed, and no commit happens while the ring is full.

Without the consumer a log spares a ring exactly if the ring has room for what the log
demands.
-/

namespace SlabFlux.Lib.Reservation

/-- What happens to a ring: the reserved slot is written, it is committed, or the oldest
entry is consumed. -/
inductive Event where
  | write
  | commit
  | consume
deriving DecidableEq

/-- How many entries were committed and consumed since construction. -/
structure Cursors where
  ingress : Nat
  egress : Nat
deriving DecidableEq

namespace Cursors

/-- The number of entries committed and not consumed. -/
def occupancy (cursors : Cursors) : Nat := cursors.ingress - cursors.egress

/-- No more is consumed than committed, and no more is committed than there are slots. -/
structure Fits (capacity : Nat) (cursors : Cursors) : Prop where
  ordered : cursors.egress ≤ cursors.ingress
  room : cursors.occupancy ≤ capacity

/-- The cursors after an event. -/
def after (cursors : Cursors) : Event → Cursors
  | .write => cursors
  | .commit => { cursors with ingress := cursors.ingress + 1 }
  | .consume => { cursors with egress := cursors.egress + 1 }

/-- The reserved slot is that of an entry committed and not consumed. -/
def Overwrites (capacity : Nat) (cursors : Cursors) : Prop :=
  ∃ entry, cursors.egress ≤ entry ∧ entry < cursors.ingress ∧
    entry % capacity = cursors.ingress % capacity

/-- A write hits no committed slot, and a commit finds a free one. -/
def Allows (capacity : Nat) (cursors : Cursors) : Event → Prop
  | .write => ¬ cursors.Overwrites capacity
  | .commit => cursors.occupancy < capacity
  | .consume => True

/-- The slots repeat with the capacity, so a write hits a committed one exactly if all of
them are. -/
theorem overwrites_iff {capacity : Nat} {cursors : Cursors} (fits : cursors.Fits capacity)
    (positive : 0 < capacity) :
    cursors.Overwrites capacity ↔ capacity ≤ cursors.occupancy := by
  have room := fits.room
  unfold occupancy at room ⊢
  constructor
  · rintro ⟨entry, committed, before, same⟩
    by_contra short
    have gap : cursors.ingress - entry < capacity := by omega
    have multiple : (cursors.ingress - entry) % capacity = 0 :=
      Nat.sub_mod_eq_zero_of_mod_eq same.symm
    rw [Nat.mod_eq_of_lt gap] at multiple
    omega
  · intro full
    refine ⟨cursors.ingress - capacity, by omega, by omega, ?_⟩
    exact (Nat.mod_eq_sub_mod (by omega)).symm

end Cursors

/-- Every event is allowed when it happens, and in the end the ring holds no more than it
has slots. -/
def Spares (capacity : Nat) : List Event → Cursors → Prop
  | [], cursors => cursors.occupancy ≤ capacity
  | event :: rest, cursors =>
      cursors.Allows capacity event ∧ Spares capacity rest (cursors.after event)

/-- The cursors after a log. -/
def replay (log : List Event) (cursors : Cursors) : Cursors := log.foldl Cursors.after cursors

theorem replay_append (log later : List Event) (cursors : Cursors) :
    replay (log ++ later) cursors = replay later (replay log cursors) :=
  List.foldl_append

/-- The number of free slots a log needs: one for each commit, and one for a last write
that is not committed. -/
def demand : List Event → Nat
  | [] => 0
  | .write :: rest => max 1 (demand rest)
  | .commit :: rest => demand rest + 1
  | .consume :: rest => demand rest

/-- Without a consumer, a ring is spared exactly if there is room for what is demanded. -/
theorem spares_iff_demand {capacity : Nat} (positive : 0 < capacity) {log : List Event}
    (producing : .consume ∉ log) {cursors : Cursors} (fits : cursors.Fits capacity) :
    Spares capacity log cursors ↔ cursors.occupancy + demand log ≤ capacity := by
  induction log generalizing cursors with
  | nil => exact ⟨fun _ => fits.room, fun _ => fits.room⟩
  | cons event rest ih =>
      have producing' : .consume ∉ rest := fun member => producing (List.mem_cons_of_mem _ member)
      rw [Spares]
      cases event with
      | write =>
          have step := ih producing' fits
          dsimp only [Cursors.Allows, Cursors.after, demand]
          rw [step, Cursors.overwrites_iff fits positive]
          omega
      | commit =>
          dsimp only [Cursors.Allows, Cursors.after, demand]
          have ordered := fits.ordered
          have grown : ({ cursors with ingress := cursors.ingress + 1 } : Cursors).occupancy =
              cursors.occupancy + 1 := by
            unfold Cursors.occupancy
            dsimp only
            omega
          constructor
          · rintro ⟨room, later⟩
            have fits' : ({ cursors with ingress := cursors.ingress + 1 } : Cursors).Fits
                capacity := ⟨Nat.le_succ_of_le ordered, by omega⟩
            have bound := (ih producing' fits').mp later
            omega
          · intro bound
            have fits' : ({ cursors with ingress := cursors.ingress + 1 } : Cursors).Fits
                capacity := ⟨Nat.le_succ_of_le ordered, by omega⟩
            exact ⟨by omega, (ih producing' fits').mpr (by omega)⟩
      | consume => exact absurd List.mem_cons_self producing

/-- A consumer alone does no harm. -/
theorem spares_replicate_consume {capacity : Nat} (count : Nat) {cursors : Cursors}
    (room : cursors.occupancy ≤ capacity) :
    Spares capacity (List.replicate count .consume) cursors := by
  induction count generalizing cursors with
  | zero => exact room
  | succ count ih =>
      refine ⟨trivial, ih ?_⟩
      unfold Cursors.occupancy at room ⊢
      dsimp only [Cursors.after]
      omega

end SlabFlux.Lib.Reservation
