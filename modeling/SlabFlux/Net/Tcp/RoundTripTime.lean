import Mathlib.Tactic.Linarith
import SlabFlux.Net.Tcp.ControlBlock

/-!
# Round-trip times

`record_coordinate` and `record_ack_rtt` smooth the measured round-trip times: both move `srtt`
an eighth of the way towards the sample, and `rttvar` a quarter of the way towards the distance
that was left.  The ways are rounded down by an arithmetic shift, also when they are negative,
and a negative way is added to an unsigned word.
-/

namespace SlabFlux.Net.Tcp

open Lib

variable {Mbuf : Type}

/-! ## The two functions -/

/-- `record_coordinate`, with the manifold switched off as in the source. -/
def Tcb.recordCoordinate (tcb : Tcb Mbuf) (tTx tRx : BitVec 64) : Tcb Mbuf :=
  if tcb.temporal TemporalFlag.retransmit then tcb
  else
    let deltaT := tRx - tTx
    if tcb.srtt = 0 then { tcb with srtt := deltaT, rttvar := deltaT >>> 1 }
    else
      let err := deltaT - tcb.srtt
      let absErr := if err.toInt < 0 then -err else err
      let varErr := absErr - tcb.rttvar
      { tcb with
        srtt := tcb.srtt + err.sshiftRight 3
        rttvar := tcb.rttvar + varErr.sshiftRight 2 }

/-- `rto_tracker`. -/
structure RtoTracker where
  srtt : BitVec 64
  rttvar : BitVec 64
  rto : BitVec 32

def RtoTracker.recordAckRtt (tracker : RtoTracker) (deltaT : BitVec 64) : RtoTracker :=
  let tracker :=
    if tracker.srtt = 0 then { tracker with srtt := deltaT, rttvar := deltaT >>> 1 }
    else
      let err := deltaT - tracker.srtt
      let absErr := if err.toInt < 0 then -err else err
      let varErr := absErr - tracker.rttvar
      { tracker with
        srtt := tracker.srtt + err.sshiftRight 3
        rttvar := tracker.rttvar + varErr.sshiftRight 2 }
  { tracker with rto := (tracker.srtt + (tracker.rttvar <<< 2)).setWidth 32 }

/-! ## Moving a part of the way -/

/-- Part of the way, rounded down, does not lead past the target. -/
theorem between_add_ediv (value target : Int) {parts : Int} (positive : 0 < parts) :
    min value target ≤ value + (target - value) / parts ∧
      value + (target - value) / parts ≤ max value target := by
  have floor : (target - value) / parts * parts ≤ target - value :=
    Int.ediv_mul_le _ (Int.ne_of_gt positive)
  rcases Int.le_total value target with up | down
  · have forward : 0 ≤ (target - value) / parts := Int.ediv_nonneg (by omega) (by omega)
    have short : (target - value) / parts ≤ target - value := Int.ediv_le_self _ (by omega)
    omega
  · have backward : (target - value) / parts ≤ 0 := by nlinarith
    have short : target - value ≤ (target - value) / parts := by
      rw [Int.le_ediv_iff_mul_le positive]
      nlinarith
    omega

theorem toInt_sub_of_lt {value target : BitVec 64} (small : value.toNat < 2 ^ 61)
    (near : target.toNat < 2 ^ 61) :
    (target - value).toInt = (target.toNat : Int) - value.toNat := by
  rw [BitVec.toInt_eq_toNat_cond, BitVec.toNat_sub]
  split <;> omega

/-- A signed word is added to an unsigned one. -/
theorem toNat_add_toInt (value change : BitVec 64) (nonneg : 0 ≤ (value.toNat : Int) + change.toInt)
    (fits : (value.toNat : Int) + change.toInt < 2 ^ 64) :
    ((value + change).toNat : Int) = value.toNat + change.toInt := by
  rw [BitVec.toInt_eq_toNat_cond] at nonneg fits ⊢
  rw [BitVec.toNat_add]
  split at nonneg <;> split at fits <;> split <;> omega

/-- A word is moved part of the way towards another one: the machine's sum is the exact one,
and lies between the two. -/
theorem toNat_add_sshiftRight {value target : BitVec 64} (small : value.toNat < 2 ^ 61)
    (near : target.toNat < 2 ^ 61) (shift : Nat) :
    ((value + (target - value).sshiftRight shift).toNat : Int) =
        value.toNat + ((target.toNat : Int) - value.toNat) / 2 ^ shift ∧
      min value.toNat target.toNat ≤ (value + (target - value).sshiftRight shift).toNat ∧
      (value + (target - value).sshiftRight shift).toNat ≤ max value.toNat target.toNat := by
  have way : ((target - value).sshiftRight shift).toInt =
      ((target.toNat : Int) - value.toNat) / 2 ^ shift := by
    rw [BitVec.toInt_sshiftRight, Int.shiftRight_eq_div_pow, toInt_sub_of_lt small near]
    simp
  obtain ⟨low, high⟩ := between_add_ediv value.toNat target.toNat
    (show (0 : Int) < 2 ^ shift by positivity)
  have exact := toNat_add_toInt value ((target - value).sshiftRight shift) (by omega) (by omega)
  omega

/-! ## One sample -/

/-- The error of a sample without its sign, as an unsigned word. -/
def absErr (srtt deltaT : BitVec 64) : BitVec 64 :=
  if (deltaT - srtt).toInt < 0 then -(deltaT - srtt) else deltaT - srtt

/-- No operation on a sample overflows: the signed differences, the negation and the sums are
the ones of the integers. -/
structure NoOverflow (srtt rttvar deltaT : BitVec 64) : Prop where
  difference : (deltaT - srtt).toInt = (deltaT.toNat : Int) - srtt.toNat
  magnitude : ((absErr srtt deltaT).toNat : Int) = |(deltaT - srtt).toInt|
  srttSum : ((srtt + (deltaT - srtt).sshiftRight 3).toNat : Int) =
    srtt.toNat + (deltaT - srtt).toInt / 8
  varDifference : (absErr srtt deltaT - rttvar).toInt =
    ((absErr srtt deltaT).toNat : Int) - rttvar.toNat
  rttvarSum : ((rttvar + (absErr srtt deltaT - rttvar).sshiftRight 2).toNat : Int) =
    rttvar.toNat + (absErr srtt deltaT - rttvar).toInt / 4

/-- The two smoothed values, for samples between `lo` and `hi`. -/
structure Within (lo hi : Nat) (srtt rttvar : BitVec 64) : Prop where
  low : lo ≤ srtt.toNat
  high : srtt.toNat ≤ hi
  spread : rttvar.toNat ≤ max (hi / 2) (hi - lo)

/-- What both functions make of a sample. -/
def smoothed (srtt rttvar deltaT : BitVec 64) : BitVec 64 × BitVec 64 :=
  if srtt = 0 then (deltaT, deltaT >>> 1)
  else
    (srtt + (deltaT - srtt).sshiftRight 3, rttvar + (absErr srtt deltaT - rttvar).sshiftRight 2)

theorem recordCoordinate_eq (tcb : Tcb Mbuf) (tTx tRx : BitVec 64)
    (unflagged : tcb.temporal TemporalFlag.retransmit = false) :
    tcb.recordCoordinate tTx tRx = { tcb with
        srtt := (smoothed tcb.srtt tcb.rttvar (tRx - tTx)).1
        rttvar := (smoothed tcb.srtt tcb.rttvar (tRx - tTx)).2 } := by
  unfold Tcb.recordCoordinate smoothed
  rw [unflagged, if_neg Bool.false_ne_true]
  split
  · rfl
  · rfl

theorem recordAckRtt_eq (tracker : RtoTracker) (deltaT : BitVec 64) :
    ((tracker.recordAckRtt deltaT).srtt, (tracker.recordAckRtt deltaT).rttvar) =
      smoothed tracker.srtt tracker.rttvar deltaT := by
  unfold RtoTracker.recordAckRtt smoothed
  split
  · rfl
  · rfl

section Sample

variable {lo hi : Nat} {srtt rttvar deltaT : BitVec 64}

theorem toNat_absErr (small : srtt.toNat < 2 ^ 61) (near : deltaT.toNat < 2 ^ 61) :
    ((absErr srtt deltaT).toNat : Int) = |(deltaT.toNat : Int) - srtt.toNat| := by
  have err := toInt_sub_of_lt small near
  unfold absErr
  split
  · next negative =>
    rw [abs_of_neg (by omega), BitVec.toNat_neg, BitVec.toNat_sub]
    omega
  · next nonneg =>
    rw [abs_of_nonneg (by omega), BitVec.toNat_sub]
    omega

/-- The first sample. -/
theorem within_first (sample : lo ≤ deltaT.toNat ∧ deltaT.toNat ≤ hi) :
    Within lo hi deltaT (deltaT >>> 1) := by
  refine ⟨sample.1, sample.2, ?_⟩
  rw [BitVec.toNat_ushiftRight]
  omega

namespace Within

variable (within : Within lo hi srtt rttvar) (high : hi < 2 ^ 61)

include within high

theorem srtt_lt : srtt.toNat < 2 ^ 61 := Nat.lt_of_le_of_lt within.high high

theorem rttvar_lt : rttvar.toNat < 2 ^ 61 := by
  have spread := within.spread
  omega

theorem timeOut_eq : (srtt + (rttvar <<< 2)).toNat = srtt.toNat + 4 * rttvar.toNat := by
  have small := within.srtt_lt high
  have spread := within.rttvar_lt high
  rw [BitVec.toNat_add, BitVec.toNat_shiftLeft]
  omega

variable (sample : lo ≤ deltaT.toNat ∧ deltaT.toNat ≤ hi)

include sample

theorem absErr_le : (absErr srtt deltaT).toNat ≤ hi - lo := by
  have near : deltaT.toNat < 2 ^ 61 := by omega
  have value := toNat_absErr (within.srtt_lt high) near
  obtain ⟨low, below, -⟩ := within
  rcases abs_cases ((deltaT.toNat : Int) - srtt.toNat) with ⟨same, -⟩ | ⟨negated, -⟩
  · omega
  · omega

theorem noOverflow : NoOverflow srtt rttvar deltaT := by
  have small := within.srtt_lt high
  have spread := within.rttvar_lt high
  have near : deltaT.toNat < 2 ^ 61 := by omega
  have error : (absErr srtt deltaT).toNat < 2 ^ 61 := by
    have bound := within.absErr_le high sample
    omega
  have difference := toInt_sub_of_lt small near
  have varDifference := toInt_sub_of_lt spread error
  refine ⟨difference, ?_, ?_, varDifference, ?_⟩
  · rw [toNat_absErr small near, difference]
  · rw [(toNat_add_sshiftRight small near 3).1, difference]
    rfl
  · rw [(toNat_add_sshiftRight spread error 2).1, varDifference]
    rfl

theorem next :
    Within lo hi (srtt + (deltaT - srtt).sshiftRight 3)
      (rttvar + (absErr srtt deltaT - rttvar).sshiftRight 2) := by
  have small := within.srtt_lt high
  have spread := within.rttvar_lt high
  have near : deltaT.toNat < 2 ^ 61 := by omega
  have bound := within.absErr_le high sample
  have error : (absErr srtt deltaT).toNat < 2 ^ 61 := by omega
  obtain ⟨-, up, down⟩ := toNat_add_sshiftRight small near 3
  obtain ⟨-, -, wide⟩ := toNat_add_sshiftRight spread error 2
  obtain ⟨low, below, most⟩ := within
  exact ⟨by omega, by omega, by omega⟩

end Within

end Sample

/-! ## Samples one after the other -/

/-- A connection and a tracker that are given the same samples. -/
structure Estimators (Mbuf : Type) where
  tcb : Tcb Mbuf
  tracker : RtoTracker

namespace Estimators

/-- A segment that was sent at one time and acknowledged at another. -/
def measure (estimators : Estimators Mbuf) (times : BitVec 64 × BitVec 64) : Estimators Mbuf where
  tcb := estimators.tcb.recordCoordinate times.1 times.2
  tracker := estimators.tracker.recordAckRtt (times.2 - times.1)

/-- No sample yet, and the connection does not retransmit. -/
structure Fresh (estimators : Estimators Mbuf) : Prop where
  unflagged : estimators.tcb.temporal TemporalFlag.retransmit = false
  tcb : estimators.tcb.srtt = 0
  tracker : estimators.tracker.srtt = 0

/-- The estimates lie within the samples, both functions have the same, and neither the time
out of the tracker nor anything that is computed from a further sample overflows. -/
structure Lawful (lo hi : Nat) (estimators : Estimators Mbuf) : Prop where
  within : Within lo hi estimators.tcb.srtt estimators.tcb.rttvar
  srtt : estimators.tracker.srtt = estimators.tcb.srtt
  rttvar : estimators.tracker.rttvar = estimators.tcb.rttvar
  timeOut : (estimators.tracker.srtt + (estimators.tracker.rttvar <<< 2)).toNat =
    estimators.tracker.srtt.toNat + 4 * estimators.tracker.rttvar.toNat
  noOverflow : ∀ deltaT : BitVec 64, lo ≤ deltaT.toNat ∧ deltaT.toNat ≤ hi →
    NoOverflow estimators.tcb.srtt estimators.tcb.rttvar deltaT

variable {lo hi : Nat} {estimators : Estimators Mbuf} {times : BitVec 64 × BitVec 64}

/-- After a sample both functions have the same values, if they had the same before or none. -/
theorem lawful_measure (high : hi < 2 ^ 61)
    (unflagged : estimators.tcb.temporal TemporalFlag.retransmit = false)
    (same : smoothed estimators.tracker.srtt estimators.tracker.rttvar (times.2 - times.1) =
      smoothed estimators.tcb.srtt estimators.tcb.rttvar (times.2 - times.1))
    (within : Within lo hi
      (smoothed estimators.tcb.srtt estimators.tcb.rttvar (times.2 - times.1)).1
      (smoothed estimators.tcb.srtt estimators.tcb.rttvar (times.2 - times.1)).2) :
    (estimators.measure times).tcb.temporal TemporalFlag.retransmit = false ∧
      (estimators.measure times).Lawful lo hi := by
  have tcb := recordCoordinate_eq estimators.tcb times.1 times.2 unflagged
  have tracker := (recordAckRtt_eq estimators.tracker (times.2 - times.1)).trans same
  have srtt := congrArg Prod.fst tracker
  have rttvar := congrArg Prod.snd tracker
  dsimp only at srtt rttvar
  refine ⟨?_, ?_⟩
  · rw [measure, tcb]
    exact unflagged
  · constructor
    all_goals simp only [measure, tcb, srtt, rttvar]
    · exact within
    · exact within.timeOut_eq high
    · exact fun deltaT sample => within.noOverflow high sample

theorem Fresh.measure (fresh : estimators.Fresh) (high : hi < 2 ^ 61)
    (sample : lo ≤ (times.2 - times.1).toNat ∧ (times.2 - times.1).toNat ≤ hi) :
    (estimators.measure times).tcb.temporal TemporalFlag.retransmit = false ∧
      (estimators.measure times).Lawful lo hi := by
  apply lawful_measure high fresh.unflagged
  · rw [smoothed, smoothed, if_pos fresh.tracker, if_pos fresh.tcb]
  · rw [smoothed, if_pos fresh.tcb]
    exact within_first sample

theorem Lawful.measure (lawful : estimators.Lawful lo hi) (low : 1 ≤ lo) (high : hi < 2 ^ 61)
    (unflagged : estimators.tcb.temporal TemporalFlag.retransmit = false)
    (sample : lo ≤ (times.2 - times.1).toNat ∧ (times.2 - times.1).toNat ≤ hi) :
    (estimators.measure times).tcb.temporal TemporalFlag.retransmit = false ∧
      (estimators.measure times).Lawful lo hi := by
  have measured : estimators.tcb.srtt ≠ 0 := by
    intro zero
    have atLeast := lawful.within.low
    rw [zero] at atLeast
    simp at atLeast
    omega
  apply lawful_measure high unflagged
  · rw [lawful.srtt, lawful.rttvar]
  · rw [smoothed, if_neg measured]
    exact lawful.within.next high sample

end Estimators

/-- After every sample of a row of samples between `lo` and `hi`, the smoothed round-trip time is
between `lo` and `hi`, its deviation is at most the larger of `hi / 2` and `hi - lo`, both
functions have the same values, and nothing overflows. -/
theorem estimates_within_samples {lo hi : Nat} (low : 1 ≤ lo) (high : hi < 2 ^ 61)
    {estimators : Estimators Mbuf} (fresh : estimators.Fresh)
    {samples : List (BitVec 64 × BitVec 64)} (measured : samples ≠ [])
    (within : ∀ times ∈ samples, lo ≤ (times.2 - times.1).toNat ∧ (times.2 - times.1).toNat ≤ hi) :
    (execute Estimators.measure estimators samples).Lawful lo hi := by
  obtain ⟨first, rest, rfl⟩ := List.exists_cons_of_ne_nil measured
  rw [List.forall_mem_cons] at within
  obtain ⟨unflagged, lawful⟩ := fresh.measure high within.1
  rw [execute_cons]
  have later := within.2
  clear within measured fresh
  generalize estimators.measure first = estimators at unflagged lawful
  induction rest generalizing estimators with
  | nil => exact lawful
  | cons times rest ih =>
      rw [List.forall_mem_cons] at later
      obtain ⟨unflagged, lawful⟩ := lawful.measure low high unflagged later.1
      exact ih later.2 _ unflagged lawful

theorem estimates_within_samples_descending :
    (execute Estimators.measure (⟨{}, ⟨0, 0, 0⟩⟩ : Estimators Unit)
      [(0, 100), (7, 57), (20, 50)]).Lawful 30 100 :=
  estimates_within_samples (by decide) (by decide) ⟨by decide, rfl, rfl⟩ (by decide) (by simp)

end SlabFlux.Net.Tcp
