import SlabFlux.Net.Tcp.Options
import SlabFlux.Net.Tcp.Outbound
import SlabFlux.Net.Tcp.TemporalWheel

/-!
# Waiting for an address

`connect` leaves a connection whose peer has no address yet in `SYN_SENT`, with a flag that it
waits.  Section 6 of `on_tick` is to close it after three seconds.  It shares its deadline with
the retransmission timer, which section 1 of the same tick has just written: it is zero if
nothing is in flight, and lies behind the time of the tick if the timer was not armed or had
expired.  So section 6 arms the deadline in every tick, and never finds it passed.  What closes
the connection is another timer, if any.
-/

namespace SlabFlux.Net.Tcp

open Lib

variable {Mbuf : Type}

/-- The arguments of a call of `on_tick`, with what the call takes from outside. -/
structure Tick where
  platform : Platform
  now : BitVec 64
  trackerRto : BitVec 32

namespace Tcb

/-- A call of `on_tick`. -/
def tick (tcb : Tcb Mbuf) (call : Tick) : Tcb Mbuf :=
  tcb.onTick call.platform call.now call.trackerRto

/-! ## What closes a connection that waits -/

/-- A segment waits for its acknowledgement and can be sent again. -/
def segmentWaits (tcb : Tcb Mbuf) : Bool :=
  match tcb.txUnackedRing, tcb.txEgressConduit with
  | some ring, some _ => 0 < ring.refresh.available
  | _, _ => false

/-- The retransmission timer gives up: it expires after 15 retries, or the segment it would send
again has too many references. -/
def RetransmissionGivesUp (platform : Platform) (now : BitVec 64) (tcb : Tcb Mbuf) : Prop :=
  tcb.sndUna ≠ tcb.sndNxt ∧ tcb.rtoDeadlineTsc ≠ 0 ∧ tcb.rtoDeadlineTsc ≤ now ∧
    (15 ≤ tcb.rtoRetries ∨ tcb.segmentWaits = true ∧ platform.retains = false)

/-- The persist timer gives up: it expires after 5 probes. -/
def PersistGivesUp (now : BitVec 64) (tcb : Tcb Mbuf) : Prop :=
  tcb.sndWnd = 0 ∧ tcb.temporal TemporalFlag.zwpActive = true ∧
    tcb.persistDeadlineTsc ≠ 0 ∧ tcb.persistDeadlineTsc ≤ now ∧ 5 ≤ tcb.zwpRetries

/-- The deadline that section 1 arms: later by the time out, which has grown if the timer had
expired. -/
def armedDeadline (now : BitVec 64) (tcb : Tcb Mbuf) : BitVec 64 :=
  if tcb.rtoDeadlineTsc = 0 then now + tcb.extractRtoBoundary
  else now + ({ tcb with rtoRetries := tcb.rtoRetries + 1 }).extractRtoBoundary

/-- The deadline that section 1 arms does not lie behind the time, because the sum wraps around
or the time out is zero. -/
def DeadlineWraps (now : BitVec 64) (tcb : Tcb Mbuf) : Prop :=
  tcb.sndUna ≠ tcb.sndNxt ∧ tcb.rtoDeadlineTsc ≤ now ∧
    tcb.armedDeadline now ≠ 0 ∧ tcb.armedDeadline now ≤ now

/-- A tick closes the connection. -/
def Closes (tcb : Tcb Mbuf) (call : Tick) : Prop :=
  tcb.RetransmissionGivesUp call.platform call.now ∨ tcb.PersistGivesUp call.now ∨
    tcb.DeadlineWraps call.now

/-! ## The sections of a tick -/

/-- The deadline of the retransmission timer after section 1. -/
def deadlineAfter (now : BitVec 64) (tcb : Tcb Mbuf) : BitVec 64 :=
  if tcb.sndUna = tcb.sndNxt then 0
  else if tcb.rtoDeadlineTsc ≤ now then tcb.armedDeadline now
  else tcb.rtoDeadlineTsc

theorem deadlineWraps_iff (now : BitVec 64) (tcb : Tcb Mbuf) :
    tcb.DeadlineWraps now ↔ tcb.deadlineAfter now ≠ 0 ∧ tcb.deadlineAfter now ≤ now := by
  unfold DeadlineWraps deadlineAfter
  split
  · next idle => simp [idle]
  · next flight =>
    split
    · next due => simp [flight, due]
    · next early => simp [early]

/-- The persist timer and section 6 find the same in both blocks. -/
structure SameTimers (tcb after : Tcb Mbuf) : Prop where
  phase : after.phase = tcb.phase
  sndUna : after.sndUna = tcb.sndUna
  sndNxt : after.sndNxt = tcb.sndNxt
  sndWnd : after.sndWnd = tcb.sndWnd
  persistDeadlineTsc : after.persistDeadlineTsc = tcb.persistDeadlineTsc
  zwpRetries : after.zwpRetries = tcb.zwpRetries
  zwpActive : after.temporal TemporalFlag.zwpActive = tcb.temporal TemporalFlag.zwpActive
  arpWait : after.temporal TemporalFlag.arpWait = tcb.temporal TemporalFlag.arpWait

theorem available_clearSacked (ring : UnackedRing) :
    (clearSacked ring).refresh.available = ring.refresh.available := by
  have marks (offsets : List Nat) (ring : UnackedRing) :
      (offsets.foldl (fun ring offset => ring.modifyPeekSlot offset fun segment =>
        { segment with isSacked := false }) ring).refresh.available = ring.refresh.available := by
    induction offsets generalizing ring with
    | nil => rfl
    | cons offset offsets ih => rw [List.foldl_cons, ih, available_refresh_modifyPeekSlot]
  rw [clearSacked, marks, refresh_refresh_available]

section Sections

variable (platform : Platform) (now : BitVec 64) (tcb : Tcb Mbuf)

theorem retransmitFirst_spec :
    Ensures (tcb.retransmitFirst platform)
      (fun after => ¬(tcb.segmentWaits = true ∧ platform.retains = false) ∧
        SameTimers tcb after ∧ after.rtoDeadlineTsc = tcb.rtoDeadlineTsc)
      fun after => after.phase = .closed ∧ tcb.segmentWaits = true ∧ platform.retains = false := by
  unfold retransmitFirst segmentWaits
  cases tcb.txUnackedRing with
  | none => exact ⟨by simp, by constructor <;> rfl, rfl⟩
  | some ring =>
      cases tcb.txEgressConduit with
      | none => exact ⟨by simp, by constructor <;> rfl, rfl⟩
      | some egress =>
          dsimp only
          rw [available_clearSacked]
          split
          · next waits =>
            split
            · next retains => exact ⟨by simp [retains], by constructor <;> rfl, rfl⟩
            · next refused => exact ⟨rfl, by simpa using waits, by simpa using refused⟩
          · next empty => exact ⟨by simp [empty], by constructor <;> rfl, rfl⟩

/-- A block whose retransmission timer has expired, as far as the other timers see it. -/
theorem sameTimers_backOff :
    SameTimers tcb (({ tcb with idleStartMs := 0 }).backOff now) ∧
      (({ tcb with idleStartMs := 0 }).backOff now).rtoDeadlineTsc =
        now + ({ tcb with rtoRetries := tcb.rtoRetries + 1 }).extractRtoBoundary ∧
      (({ tcb with idleStartMs := 0 }).backOff now).segmentWaits = tcb.segmentWaits := by
  refine ⟨?_, rfl, rfl⟩
  constructor <;> try rfl
  · exact has_or_of_disjoint (by decide) tcb.temporalFlags
  · exact has_or_of_disjoint (by decide) tcb.temporalFlags

theorem SameTimers.trans {tcb middle after : Tcb Mbuf} (first : SameTimers tcb middle)
    (second : SameTimers middle after) : SameTimers tcb after where
  phase := second.phase.trans first.phase
  sndUna := second.sndUna.trans first.sndUna
  sndNxt := second.sndNxt.trans first.sndNxt
  sndWnd := second.sndWnd.trans first.sndWnd
  persistDeadlineTsc := second.persistDeadlineTsc.trans first.persistDeadlineTsc
  zwpRetries := second.zwpRetries.trans first.zwpRetries
  zwpActive := second.zwpActive.trans first.zwpActive
  arpWait := second.arpWait.trans first.arpWait

theorem tickFlight_spec (flight : tcb.sndUna ≠ tcb.sndNxt) :
    Ensures (tcb.tickFlight platform now)
      (fun after => ¬tcb.RetransmissionGivesUp platform now ∧ SameTimers tcb after ∧
        after.rtoDeadlineTsc = tcb.deadlineAfter now)
      fun after => after.phase = .closed ∧ tcb.RetransmissionGivesUp platform now := by
  unfold tickFlight RetransmissionGivesUp deadlineAfter armedDeadline
  rw [if_neg flight]
  by_cases unarmed : tcb.rtoDeadlineTsc = 0
  · rw [if_pos unarmed, if_pos unarmed, if_pos (by simp [unarmed, BitVec.le_def])]
    exact ⟨by simp [unarmed], by constructor <;> rfl, rfl⟩
  rw [if_neg unarmed, if_neg unarmed]
  by_cases due : tcb.rtoDeadlineTsc ≤ now
  · rw [if_pos due, if_pos due]
    by_cases exhausted : 15 ≤ tcb.rtoRetries
    · rw [if_pos exhausted]
      exact ⟨rfl, flight, unarmed, due, .inl exhausted⟩
    · rw [if_neg exhausted]
      obtain ⟨same, deadline, waits⟩ := tcb.sameTimers_backOff now
      refine (retransmitFirst_spec platform _).mono ?_ ?_
      · rintro after ⟨kept, sameAfter, deadlineAfter⟩
        exact ⟨fun gives => kept (gives.2.2.2.resolve_left exhausted), same.trans sameAfter,
          deadlineAfter.trans deadline⟩
      · rintro after ⟨closed, refused⟩
        exact ⟨closed, flight, unarmed, due, .inr refused⟩
  · rw [if_neg due, if_neg due]
    exact ⟨by simp [due], by constructor <;> rfl, rfl⟩

variable (trackerRto : BitVec 32)

theorem tickRetransmission_spec :
    Ensures (tcb.tickRetransmission platform now trackerRto)
      (fun after => ¬tcb.RetransmissionGivesUp platform now ∧ SameTimers tcb after ∧
        after.rtoDeadlineTsc = tcb.deadlineAfter now)
      fun after => after.phase = .closed ∧ tcb.RetransmissionGivesUp platform now := by
  unfold tickRetransmission
  by_cases flight : tcb.sndUna ≠ tcb.sndNxt
  · rw [if_pos flight]
    exact tcb.tickFlight_spec platform now flight
  · rw [if_neg flight]
    have idle := not_not.mp flight
    refine ⟨fun gives => gives.1 idle, ?_, ?_⟩
    · unfold tickIdle
      dsimp only
      split_ifs <;> constructor <;> rfl
    · unfold tickIdle deadlineAfter
      dsimp only
      split_ifs <;> rfl

theorem tickDelayedAck_spec :
    SameTimers tcb (tcb.tickDelayedAck now) ∧
      (tcb.tickDelayedAck now).rtoDeadlineTsc = tcb.rtoDeadlineTsc := by
  unfold tickDelayedAck
  split_ifs
  · exact ⟨by constructor <;> rfl, rfl⟩
  · refine ⟨?_, rfl⟩
    constructor <;> try rfl
    · exact has_and_of_subset (by decide) tcb.temporalFlags
    · exact has_and_of_subset (by decide) tcb.temporalFlags
  · exact ⟨by constructor <;> rfl, rfl⟩
  · exact ⟨by constructor <;> rfl, rfl⟩

theorem tickPersist_spec :
    Ensures (tcb.tickPersist now)
      (fun after => ¬tcb.PersistGivesUp now ∧ after.phase = tcb.phase ∧
        after.temporal TemporalFlag.arpWait = tcb.temporal TemporalFlag.arpWait ∧
        after.rtoDeadlineTsc = tcb.rtoDeadlineTsc)
      fun after => after.phase = .closed ∧ tcb.PersistGivesUp now := by
  unfold tickPersist PersistGivesUp
  split
  · next probing =>
    split
    · next starts =>
      refine ⟨?_, rfl, has_or_of_disjoint (by decide) tcb.temporalFlags, rfl⟩
      rintro ⟨-, active, armed, -⟩
      rcases starts with inactive | unarmed
      · rw [active] at inactive
        cases inactive
      · exact armed unarmed
    · next running =>
      obtain ⟨active, armed⟩ := not_or.mp running
      split
      · next due =>
        split
        · next exhausted =>
          exact ⟨rfl, probing.1, by simpa using active, armed, due, exhausted⟩
        · next probes => exact ⟨fun gives => probes gives.2.2.2.2, rfl, rfl, rfl⟩
      · next early => exact ⟨fun gives => early gives.2.2.2.1, rfl, rfl, rfl⟩
  · next unblocked =>
    refine ⟨fun gives => unblocked ⟨gives.1, .inr gives.2.1⟩, rfl,
      has_and_of_subset (by decide) tcb.temporalFlags, rfl⟩

/-- Section 6 of a connection that waits. -/
theorem tickArp_spec (waits : tcb.temporal TemporalFlag.arpWait = true)
    (opened : tcb.phase = .synSent) :
    ((tcb.tickArp now).phase = .closed ∧ tcb.rtoDeadlineTsc ≠ 0 ∧ tcb.rtoDeadlineTsc ≤ now) ∨
    ((tcb.tickArp now).phase = .synSent ∧ (tcb.tickArp now).temporal TemporalFlag.arpWait = true ∧
      ¬(tcb.rtoDeadlineTsc ≠ 0 ∧ tcb.rtoDeadlineTsc ≤ now)) := by
  unfold tickArp
  split_ifs with unarmed due
  · refine .inr ⟨opened, ?_, fun passed => passed.1 unarmed⟩
    unfold temporal at waits ⊢
    exact waits
  · exact .inl ⟨rfl, unarmed, due⟩
  · exact .inr ⟨opened, waits, fun passed => due passed.2⟩

end Sections

/-! ## Ticks -/

/-- The connection waits for an address. -/
def Waits (tcb : Tcb Mbuf) : Prop :=
  tcb.phase = .synSent ∧ tcb.temporal TemporalFlag.arpWait = true

/-- What becomes of a connection that waits. -/
def Outcome (tcb : Tcb Mbuf) (call : Tick) (after : Tcb Mbuf) : Prop :=
  after.phase = .closed ∧ tcb.Closes call ∨ after.Waits ∧ ¬tcb.Closes call

theorem outcome_tick {tcb : Tcb Mbuf} (waits : tcb.Waits) (call : Tick) :
    tcb.Outcome call (tcb.tick call) := by
  obtain ⟨opened, waits⟩ := waits
  have sections : Ensures (tcb.tickSections call.platform call.now call.trackerRto)
      (tcb.Outcome call) (tcb.Outcome call) := by
    refine Ensures.bind ((tcb.tickRetransmission_spec _ _ _).mono (fun _ => id)
      fun after early => .inl ⟨early.1, .inl early.2⟩) fun timed => ?_
    rintro ⟨armed, same, deadline⟩
    obtain ⟨sameAck, deadlineAck⟩ := timed.tickDelayedAck_spec call.now
    have same := same.trans sameAck
    have persist : (timed.tickDelayedAck call.now).PersistGivesUp call.now ↔
        tcb.PersistGivesUp call.now := by
      unfold PersistGivesUp
      rw [same.sndWnd, same.zwpActive, same.persistDeadlineTsc, same.zwpRetries]
    refine Ensures.bind (((timed.tickDelayedAck call.now).tickPersist_spec call.now).mono
      (fun _ => id) fun after early => .inl ⟨early.1, .inr (.inl (persist.mp early.2))⟩)
      fun probing => ?_
    rintro ⟨unblocked, phase, flag, deadlineProbing⟩
    have opened : probing.phase = .synSent := phase.trans (same.phase.trans opened)
    have waits : probing.temporal TemporalFlag.arpWait = true :=
      flag.trans (same.arpWait.trans waits)
    have waited : probing.tickTimeWait call.now = probing := by
      simp [tickTimeWait, opened]
    have probed : probing.tickKeepalive call.now = .ok probing := by
      simp [tickKeepalive, opened]
    have wraps : tcb.DeadlineWraps call.now ↔
        probing.rtoDeadlineTsc ≠ 0 ∧ probing.rtoDeadlineTsc ≤ call.now := by
      rw [deadlineWraps_iff, deadlineProbing, deadlineAck, deadline]
    rw [waited, probed]
    rcases probing.tickArp_spec call.now waits opened with ⟨closed, passed⟩ | ⟨still, flag, ahead⟩
    · exact .inl ⟨closed, .inr (.inr (wraps.mpr passed))⟩
    · refine .inr ⟨⟨still, flag⟩, ?_⟩
      rintro (gives | gives | wrapped)
      · exact armed gives
      · exact unblocked (persist.mpr gives)
      · exact ahead (wraps.mp wrapped)
  unfold tick onTick
  rw [if_neg (by simp [opened])]
  cases outcome : tcb.tickSections call.platform call.now call.trackerRto with
  | error after =>
      rw [outcome] at sections
      exact sections
  | ok after =>
      rw [outcome] at sections
      exact sections

theorem tick_of_closed {tcb : Tcb Mbuf} (closed : tcb.phase = .closed) (call : Tick) :
    tcb.tick call = tcb := by
  rw [tick, onTick, if_pos closed]

/-- A connection that waits goes on waiting until it is closed. -/
theorem closed_or_waits_tick (tcb : Tcb Mbuf) (call : Tick)
    (kept : tcb.phase = .closed ∨ tcb.Waits) :
    (tcb.tick call).phase = .closed ∨ (tcb.tick call).Waits := by
  rcases kept with closed | waits
  · exact .inl (by rw [tick_of_closed closed, closed])
  · exact (outcome_tick waits call).imp And.left And.left

/-- The connection is closed after a tick that comes three seconds after the first or later. -/
def ClosedInTime (first : BitVec 64) (tcb : Tcb Mbuf) (call : Tick) : Prop :=
  first.toNat + 3000 ≤ call.now.toNat → (tcb.tick call).phase = .closed

/-- A tick that comes three seconds after the first or later finds the connection closed, or
another timer closes it. -/
def ClosedByOthers (first : BitVec 64) (tcb : Tcb Mbuf) (call : Tick) : Prop :=
  first.toNat + 3000 ≤ call.now.toNat → tcb.phase = .closed ∨ tcb.Closes call

theorem closedInTime_iff (first : BitVec 64) (tcb : Tcb Mbuf) (call : Tick)
    (kept : tcb.phase = .closed ∨ tcb.Waits) :
    tcb.ClosedInTime first call ↔ tcb.ClosedByOthers first call := by
  unfold ClosedInTime ClosedByOthers
  rcases kept with closed | waits
  · simp [tick_of_closed, closed]
  · have opened : tcb.phase ≠ .closed := by simp [waits.1]
    rcases outcome_tick waits call with ⟨closed, closes⟩ | ⟨still, stays⟩
    · simp [closed, closes]
    · simp [still.1, opened, stays]

end Tcb

/-- A connection that `connect` has left waiting for an address is closed by the first tick that
comes three seconds after the first tick or later, if and only if another timer closes it. -/
theorem timesOut_iff (platform : Platform) (targetIp : BitVec 32) (targetPort : BitVec 16)
    (before : Tcb Mbuf) (waits : (before.connect platform targetIp targetPort).1.Waits)
    (first : Tick) (later : List Tick) :
    Admissible Tcb.tick (Tcb.ClosedInTime first.now)
        (before.connect platform targetIp targetPort).1 (first :: later) ↔
      Admissible Tcb.tick (Tcb.ClosedByOthers first.now)
        (before.connect platform targetIp targetPort).1 (first :: later) :=
  Admissible.congr_of_invariant Tcb.closed_or_waits_tick (Tcb.closedInTime_iff first.now)
    (.inr waits) _

namespace AddressTimeout

/-- A new block with an egress conduit and a pool. -/
def newBlock : Tcb Unit := { txEgressConduit := some [], txMbufPool := true, sndWnd := 65535 }

/-- The block after `connect`. -/
def waiting : Tcb Unit := (newBlock.connect {} 0x0100007F 80).1

/-- A call of `on_tick` at a time. -/
def tickAt (now : BitVec 64) : Tick := ⟨{}, now, 200⟩

theorem timesOut_iff_waiting :
    waiting.Waits ∧
      (Admissible Tcb.tick (Tcb.ClosedInTime 1000) waiting [tickAt 1000, tickAt 4000] ↔
        Admissible Tcb.tick (Tcb.ClosedByOthers 1000) waiting [tickAt 1000, tickAt 4000]) := by
  have waits : waiting.Waits := ⟨by decide, by decide⟩
  exact ⟨waits, timesOut_iff {} 0x0100007F 80 newBlock waits (tickAt 1000) [tickAt 4000]⟩

/-- Ticks after one and after four seconds, and after a day, leave the connection waiting. -/
theorem not_closedInTime_waiting :
    ¬Admissible Tcb.tick (Tcb.ClosedInTime 1000) waiting
      [tickAt 1000, tickAt 4000, tickAt 7001, tickAt 86400000] := by
  rintro ⟨-, closed, -⟩
  have now := closed (by decide)
  revert now
  decide

end AddressTimeout

end SlabFlux.Net.Tcp
