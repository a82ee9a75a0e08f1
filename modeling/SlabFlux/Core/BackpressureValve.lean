import Mathlib.Data.BitVec
import Mathlib.Data.Fintype.Card
import SlabFlux.Lib.Execution

/-!
# The backpressure valve

`backpressure_valve` is a token bucket that is refilled by the clock.  Any number of threads use
it; one move is one access to an atomic word.  `update`, which overwrites the bucket, is not
called.

The bucket is a signed word, and nothing in the code keeps it from wrapping: a burst near `2 ^ 63`
overflows when it is refilled, and each thread inside `try_ingest` may take one token too many.
With a burst and a number of threads up to `2 ^ 62` it never wraps.
-/

namespace SlabFlux.Core.BackpressureValve

open Lib Function

universe u

/-- The template arguments. -/
structure Valve where
  burstLimit : BitVec 64
  refillRate : BitVec 64

/-- The tokens that a number of clock cycles is worth. -/
def Valve.gain (valve : Valve) (delta : BitVec 64) : BitVec 64 := delta * valve.refillRate / 1000000

theorem toNat_gain_lt (valve : Valve) (delta : BitVec 64) : (valve.gain delta).toNat < 2 ^ 45 := by
  have word := (delta * valve.refillRate).isLt
  have million : (1000000 : BitVec 64).toNat = 1000000 := rfl
  rw [Valve.gain, BitVec.toNat_udiv, million]
  omega

/-- The next access of a thread: `fetch_sub` in `try_ingest`; or the load of the bucket, its
exchange and the store of the clock in `refill`. -/
inductive Pc where
  | idle
  | take
  | load (tsc delta : BitVec 64)
  | exchange (tsc delta expected : BitVec 64)
  | stamp (tsc : BitVec 64)
  deriving DecidableEq

/-- The two words and the threads, with the calls admitted and the tokens that refills gained. -/
structure State (Thread : Type u) where
  tokens : BitVec 64
  lastTsc : BitVec 64 := 0
  pc : Thread → Pc := fun _ => .idle
  admitted : Nat := 0
  gained : Nat := 0

/-- The first access of a call, or the next one of the call a thread is in. -/
inductive Move (Thread : Type u) where
  | tryIngest (thread : Thread)
  | refill (thread : Thread) (currentTsc : BitVec 64)
  | next (thread : Thread) (spurious : Bool)

variable {Thread : Type u} [DecidableEq Thread] (valve : Valve)

/-- The constructor. -/
def initial (initialTokens : BitVec 64) : State Thread :=
  { tokens := if valve.burstLimit < initialTokens then valve.burstLimit else initialTokens }

def State.goto (state : State Thread) (thread : Thread) (pc : Pc) : State Thread :=
  { state with pc := update state.pc thread pc }

def next (state : State Thread) (thread : Thread) (spurious : Bool) : State Thread :=
  match state.pc thread with
  | .idle => state
  | .take =>
      { state.goto thread .idle with
        tokens := state.tokens - 1
        admitted := state.admitted + if 0 < state.tokens.toInt then 1 else 0 }
  | .load tsc delta => state.goto thread (.exchange tsc delta state.tokens)
  | .exchange tsc delta expected =>
      if state.tokens = expected ∧ spurious = false then
        { state.goto thread (.stamp tsc) with
          tokens :=
            if (expected + valve.gain delta).toInt < valve.burstLimit.toInt then
              expected + valve.gain delta
            else valve.burstLimit
          gained := state.gained + (valve.gain delta).toNat }
      else state.goto thread (.exchange tsc delta state.tokens)
  | .stamp tsc => { state.goto thread .idle with lastTsc := tsc }

def step (state : State Thread) : Move Thread → State Thread
  | .tryIngest thread =>
      if state.pc thread = .idle ∧ 0 < state.tokens.toInt then state.goto thread .take else state
  | .refill thread currentTsc =>
      if state.pc thread = .idle ∧ state.lastTsc < currentTsc ∧
          0 < (valve.gain (currentTsc - state.lastTsc)).toInt then
        state.goto thread (.load currentTsc (currentTsc - state.lastTsc))
      else state
  | .next thread spurious => next valve state thread spurious

/-! ## The bucket never wraps -/

variable {valve} (tokens : BitVec 64)

theorem toInt_sub_one (above : -2 ^ 62 < tokens.toInt) :
    (tokens - 1).toInt = tokens.toInt - 1 := by
  have top := tokens.toInt_lt
  rw [BitVec.toInt_sub]
  exact Int.bmod_eq_of_le (by simp; omega) (by simp; omega)

theorem toInt_add_gain (below : tokens.toInt ≤ 2 ^ 62) (delta : BitVec 64) :
    (tokens + valve.gain delta).toInt = tokens.toInt + (valve.gain delta).toNat := by
  have bottom := tokens.le_toInt
  have small := toNat_gain_lt valve delta
  rw [BitVec.toInt_add, BitVec.toInt_eq_toNat_of_lt (x := valve.gain delta) (by omega)]
  exact Int.bmod_eq_of_le (by simp at bottom ⊢; omega) (by simp; omega)

/-! ## Every interleaving -/

variable [Fintype Thread] {pc : Thread → Pc}

/-- The threads whose next access takes a token. -/
def takers (pc : Thread → Pc) : Finset Thread := Finset.univ.filter (pc · = .take)

theorem takers_update (thread : Thread) {access : Pc} (other : access ≠ .take) :
    takers (update pc thread access) = (takers pc).erase thread := by
  ext thread'
  by_cases same : thread' = thread <;> simp [takers, same, other]

/-- The bucket keeps to the burst, no more was taken than put in, and the bucket can pay for the
threads inside `try_ingest` but for one token each. -/
structure Covered (valve : Valve) (initialTokens : Nat) (state : State Thread) : Prop where
  bounded : state.tokens.toInt ≤ valve.burstLimit.toNat
  paid : max 0 state.tokens.toInt + state.admitted ≤ initialTokens + state.gained
  lent : (takers state.pc).card ≤ state.tokens.toInt + Fintype.card Thread

section Moves

variable {initialTokens : Nat} {state : State Thread}
variable (covered : Covered valve initialTokens state)
include covered

theorem covered_goto (thread : Thread) {access : Pc} (other : access ≠ .take) :
    Covered valve initialTokens (state.goto thread access) := by
  refine ⟨covered.bounded, covered.paid, ?_⟩
  have fewer := takers_update thread other ▸ Finset.card_erase_le (s := takers state.pc)
  exact (Int.ofNat_le.mpr fewer).trans covered.lent

/-- A thread begins only if there is a token, whatever the others are about to take. -/
theorem covered_tryIngest (thread : Thread) (left : 0 < state.tokens.toInt) :
    Covered valve initialTokens (state.goto thread .take) := by
  refine ⟨covered.bounded, covered.paid, ?_⟩
  have few := (takers (state.goto thread .take).pc).card_le_univ
  change _ ≤ state.tokens.toInt + _
  omega

theorem covered_take (threads : Fintype.card Thread ≤ 2 ^ 62) {thread : Thread}
    (taking : state.pc thread = .take) (spurious : Bool) :
    Covered valve initialTokens (next valve state thread spurious) := by
  obtain ⟨bounded, paid, lent⟩ := covered
  have fewer : (takers (update state.pc thread .idle)).card + 1 = (takers state.pc).card := by
    rw [takers_update thread (by decide)]
    exact Finset.card_erase_add_one (by simp [takers, taking])
  have less := toInt_sub_one state.tokens (by omega)
  simp only [next, taking, State.goto]
  constructor <;> dsimp only <;> grind

theorem covered_exchange (burst : valve.burstLimit.toNat ≤ 2 ^ 62) {thread : Thread}
    {tsc delta expected : BitVec 64} (exchanging : state.pc thread = .exchange tsc delta expected)
    (spurious : Bool) : Covered valve initialTokens (next valve state thread spurious) := by
  simp only [next, exchanging]
  split
  next same =>
    obtain ⟨bounded, paid, lent⟩ := covered_goto covered thread (Pc.noConfusion : .stamp tsc ≠ _)
    obtain ⟨rfl, -⟩ := same
    dsimp only [State.goto] at bounded paid lent ⊢
    have more : (state.tokens + valve.gain delta).toInt = _ :=
      toInt_add_gain state.tokens (by omega) delta
    have limit : valve.burstLimit.toInt = valve.burstLimit.toNat :=
      BitVec.toInt_eq_toNat_of_lt (by omega)
    constructor <;> dsimp only <;> split <;> omega
  · exact covered_goto covered thread nofun

end Moves

theorem covered_step (burst : valve.burstLimit.toNat ≤ 2 ^ 62)
    (threads : Fintype.card Thread ≤ 2 ^ 62) {initialTokens : Nat} (state : State Thread)
    (move : Move Thread) (covered : Covered valve initialTokens state) :
    Covered valve initialTokens (step valve state move) := by
  cases move with
  | tryIngest thread =>
      dsimp only [step]
      split_ifs with begins
      · exact covered_tryIngest covered thread begins.2
      · exact covered
  | refill thread currentTsc =>
      dsimp only [step]
      split_ifs
      · exact covered_goto covered thread nofun
      · exact covered
  | next thread spurious =>
      change Covered valve initialTokens (next valve state thread spurious)
      cases access : state.pc thread with
      | take => exact covered_take covered threads access spurious
      | exchange => exact covered_exchange covered burst access spurious
      | idle => simpa only [next, access] using covered
      | load =>
          simp only [next, access]
          exact covered_goto covered thread nofun
      | stamp =>
          obtain ⟨bounded, paid, lent⟩ := covered_goto covered thread (nofun : Pc.idle ≠ .take)
          simp only [next, access]
          exact ⟨bounded, paid, lent⟩

omit [DecidableEq Thread] in
theorem covered_initial (burst : valve.burstLimit.toNat ≤ 2 ^ 62) (initialTokens : BitVec 64) :
    Covered valve (min initialTokens.toNat valve.burstLimit.toNat)
      (initial valve initialTokens : State Thread) := by
  have full : (initial valve initialTokens : State Thread).tokens.toInt =
      (min initialTokens.toNat valve.burstLimit.toNat : Nat) := by
    dsimp only [initial]
    split
    · rw [BitVec.toInt_eq_toNat_of_lt] <;> bv_omega
    · rw [BitVec.toInt_eq_toNat_of_lt] <;> bv_omega
  refine ⟨by omega, ?_, ?_⟩
  · change _ + ((0 : Nat) : Int) ≤ _ + ((0 : Nat) : Int)
    omega
  · have none : takers (initial valve initialTokens : State Thread).pc = ∅ := by
      simp [takers, initial]
    rw [none, Finset.card_empty]
    omega

/-- With a burst and a number of threads up to `2 ^ 62`, in every interleaving the bucket keeps to
the burst, and no more calls are admitted than there were tokens in it and refills have gained. -/
theorem admitted_le_gained (valve : Valve) (initialTokens : BitVec 64)
    (schedule : List (Move Thread)) (burst : valve.burstLimit.toNat ≤ 2 ^ 62)
    (threads : Fintype.card Thread ≤ 2 ^ 62) :
    let final := execute (step valve) (initial valve initialTokens) schedule
    final.tokens.toInt ≤ valve.burstLimit.toNat ∧
      final.admitted ≤ min initialTokens.toNat valve.burstLimit.toNat + final.gained := by
  obtain ⟨bounded, paid, -⟩ := execute_invariant (covered_step burst threads)
    (covered_initial burst initialTokens) schedule
  exact ⟨bounded, by omega⟩

/-- The last token is taken by two threads; the bucket is then below zero, and one call is
admitted. -/
theorem admitted_le_gained_last :
    let final := execute (step ⟨4096, 100⟩) (initial ⟨4096, 100⟩ 1 : State (Fin 2))
      [.tryIngest 0, .tryIngest 1, .next 0 false, .next 1 false]
    final.tokens.toInt = -1 ∧ final.admitted = 1 ∧
      final.tokens.toInt ≤ (4096#64).toNat ∧ final.admitted ≤ 1 + final.gained := by
  intro final
  exact ⟨by decide, by decide, admitted_le_gained ⟨4096, 100⟩ 1 _ (by decide) (by decide)⟩

end SlabFlux.Core.BackpressureValve
