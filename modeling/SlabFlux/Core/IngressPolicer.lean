import Mathlib.Data.BitVec
import SlabFlux.Lib.Execution

/-!
# The ingress policer

`ingress_policer` is a token bucket in one atomic word.  A clock thread fills it with a load
and a store, any number of threads take from it with a compare-exchange loop.  One move is
one access to the word.
-/

namespace SlabFlux.Core.IngressPolicer

open Lib Function

universe u

variable {Thread : Type u} [DecidableEq Thread]

/-- The constants of a policer. -/
structure Policer where
  tokensPerTick : BitVec 64
  maxBurst : BitVec 64

/-- The bucket, what the clock has loaded inside `replenish`, the cost and the loaded value of
each thread inside `allow`, the number of finished `replenish` calls and the cost admitted. -/
structure State (Thread : Type u) where
  availableTokens : BitVec 64
  clock : Option (BitVec 64)
  calls : Thread → Option (BitVec 64 × BitVec 64)
  replenished : Nat
  admitted : Nat

def initial : State Thread := ⟨0, none, fun _ => none, 0, 0⟩

/-- The next access of the clock, or of a thread; `cost` is the argument of a new call. -/
inductive Move (Thread : Type u) where
  | clock
  | thread (thread : Thread) (cost : BitVec 64)

/-- `replenish`: the load, then the store. -/
def replenish (policer : Policer) (state : State Thread) : State Thread :=
  match state.clock with
  | none => { state with clock := some state.availableTokens }
  | some current =>
      { state with
        availableTokens :=
          if current + policer.tokensPerTick < policer.maxBurst then
            current + policer.tokensPerTick
          else policer.maxBurst
        clock := none
        replenished := state.replenished + 1 }

/-- `allow`: the load, then a turn of the loop, which returns or loads the word anew. -/
def allow (state : State Thread) (thread : Thread) (cost : BitVec 64) : State Thread :=
  match state.calls thread with
  | none => { state with calls := update state.calls thread (some (cost, state.availableTokens)) }
  | some (cost, current) =>
      if current < cost then { state with calls := update state.calls thread none }
      else if state.availableTokens = current then
        { state with
          availableTokens := current - cost
          calls := update state.calls thread none
          admitted := state.admitted + cost.toNat }
      else
        { state with calls := update state.calls thread (some (cost, state.availableTokens)) }

def step (policer : Policer) (state : State Thread) : Move Thread → State Thread
  | .clock => replenish policer state
  | .thread thread cost => allow state thread cost

/-- The next access of the thread is a compare-exchange that takes tokens. -/
def State.takes (state : State Thread) (thread : Thread) : Bool :=
  match state.calls thread with
  | none => false
  | some (cost, current) => ¬ current < cost ∧ state.availableTokens = current ∧ cost ≠ 0

/-- No thread takes tokens between the load and the store of `replenish`. -/
def Undisturbed (state : State Thread) : Move Thread → Prop
  | .clock => True
  | .thread thread _ => state.clock.isSome → state.takes thread = false

instance (state : State Thread) (move : Move Thread) : Decidable (Undisturbed state move) := by
  cases move <;> unfold Undisturbed <;> infer_instance

variable {policer : Policer}

theorem availableTokens_le_step (state : State Thread) (move : Move Thread)
    (full : state.availableTokens ≤ policer.maxBurst) :
    (step policer state move).availableTokens ≤ policer.maxBurst := by
  cases move with
  | clock =>
      dsimp only [step, replenish]
      split
      · exact full
      · split <;> bv_omega
  | thread thread cost =>
      dsimp only [step, allow]
      split
      · exact full
      · split_ifs <;> bv_omega

/-- What was admitted and what is left are covered by the finished calls of `replenish`, and
the clock's copy of the bucket is up to date. -/
structure Covered (policer : Policer) (state : State Thread) : Prop where
  paid : state.admitted + state.availableTokens.toNat ≤
    policer.tokensPerTick.toNat * state.replenished
  loaded : ∀ current ∈ state.clock, current = state.availableTokens

theorem covered_step (state : State Thread) (move : Move Thread) (covered : Covered policer state)
    (undisturbed : Undisturbed state move) : Covered policer (step policer state move) := by
  have paid := covered.paid
  cases move with
  | clock =>
      dsimp only [step, replenish]
      split
      · exact ⟨paid, by simp⟩
      next current loading =>
        have same := covered.loaded current loading
        refine ⟨?_, nofun⟩
        rw [Nat.mul_succ]
        split <;> bv_omega
  | thread thread cost =>
      dsimp only [step, allow]
      split
      · exact ⟨paid, covered.loaded⟩
      next cost current calling =>
        split_ifs with short same
        · exact ⟨paid, covered.loaded⟩
        · refine ⟨by bv_omega, fun loaded clock => ?_⟩
          have free : cost = 0 := by
            have takes := undisturbed (Option.isSome_of_mem clock)
            simpa [State.takes, calling, short, same] using takes
          simp [covered.loaded loaded clock, same, free]
        · exact ⟨paid, covered.loaded⟩

/-- In every interleaving the bucket keeps to the burst; and if no thread takes tokens between
the load and the store of `replenish`, no more is admitted than was put in. -/
theorem admitted_le (policer : Policer) (schedule : List (Move Thread)) :
    (execute (step policer) initial schedule).availableTokens ≤ policer.maxBurst ∧
      (Admissible (step policer) Undisturbed initial schedule →
        (execute (step policer) initial schedule).admitted ≤ policer.tokensPerTick.toNat *
          (execute (step policer) initial schedule).replenished) := by
  constructor
  · have empty : (initial : State Thread).availableTokens ≤ policer.maxBurst :=
      BitVec.le_def.mpr (Nat.zero_le _)
    exact execute_invariant availableTokens_le_step empty schedule
  · intro undisturbed
    have covered := execute_invariant_of_admissible covered_step
      (⟨Nat.zero_le _, nofun⟩ : Covered policer initial) undisturbed
    exact (Nat.le_add_right _ _).trans covered.paid

/-- One `replenish` and one `allow` after it. -/
theorem admitted_le_tick :
    let schedule := [.clock, .clock, .thread () 10, .thread () 10]
    Admissible (step ⟨10, 100⟩) Undisturbed (initial : State Unit) schedule ∧
      (execute (step ⟨10, 100⟩) (initial : State Unit) schedule).admitted ≤
        (10#64).toNat * (execute (step ⟨10, 100⟩) (initial : State Unit) schedule).replenished := by
  intro schedule
  have undisturbed : Admissible (step ⟨10, 100⟩) Undisturbed initial schedule := by decide
  exact ⟨undisturbed, (admitted_le ⟨10, 100⟩ schedule).2 undisturbed⟩

/-- With 10 tokens a tick, an admission of 10 inside the second `replenish` is undone by its
store, and 30 are admitted in two ticks. -/
theorem overAdmits :
    ¬ (execute (step ⟨10, 100⟩) (initial : State Unit) [.clock, .clock, .clock, .thread () 10,
        .thread () 10, .clock, .thread () 20, .thread () 20]).admitted ≤
      10 * (execute (step ⟨10, 100⟩) (initial : State Unit) [.clock, .clock, .clock,
        .thread () 10, .thread () 10, .clock, .thread () 20, .thread () 20]).replenished := by
  decide

end SlabFlux.Core.IngressPolicer
