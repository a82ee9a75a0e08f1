import SlabFlux.Net.SynCookie.Completeness

/-!
# Which accepted cookies are genuine

The MAC covers the connection and the five bits of the period, but neither the bits of the
segment size nor the period itself, and the table of accepted cookies forgets.  Where none
of this is exploited, an accepted cookie is one that was issued for the connection less than
two periods ago and has not been accepted before.
-/

namespace SlabFlux.Net.SynCookie

open Lib State

variable {mac : Mac} {time : Time}

/-- The cookie that has its MAC in a place of the registry. -/
def lastIssued (issued : List Issued) (index : BitVec 16) : Option Issued :=
  issued.reverse.find? fun entry => entry.flow.registryIndex entry.clientIsn == index

/-- If the call accepts, the cookie was issued for the connection with the segment size
reported, less than two periods before, and has not been accepted yet. -/
def Genuine (state : State mac) (flow : Flow) (serverIsn clientIsn : BitVec 32)
    (time : Time) : Prop :=
  ∀ mss, (state.tables.validateFor flow serverIsn clientIsn time).1 = ⟨true, mss⟩ →
    (∃ entry ∈ state.issued, entry.flow = flow ∧ entry.clientIsn = clientIsn ∧
      entry.serverIsn = serverIsn ∧ entry.mss = mss ∧
      entry.period ≤ time.period ∧ time.period < entry.period + 2) ∧
    (⟨flow, serverIsn, clientIsn⟩ : Accepted) ∉ state.accepted

/-- Times do not decrease, and the clock has run for less than `2 ^ 38` seconds. -/
abbrev Timely (state : State mac) (time : Time) : Prop :=
  state.now ≤ time.period ∧ time.tvSec < 2 ^ 38

/-- The condition under which only genuine cookies are accepted.  A validation comes less
than 32 periods after the generation it answers and presents the same bits for the segment
size; a cookie accepted before is still known; and where nothing was generated, the MAC is
not the value the registry starts with. -/
def Unforged (state : State mac) : Call → Prop
  | .generate _ _ _ time => Timely state time
  | .validate flow serverIsn clientIsn time =>
      Timely state time ∧
      (lastIssued state.issued (flow.registryIndex clientIsn) = none →
        mac.compute flow clientIsn (cookieTime (serverIsn - clientIsn)) ≠ mac.zero) ∧
      (∀ entry ∈ lastIssued state.issued (flow.registryIndex clientIsn),
        entry.flow = flow → entry.clientIsn = clientIsn →
          time.period < entry.period + 32 ∧
          cookieMss (serverIsn - clientIsn) = cookieMss (entry.serverIsn - clientIsn)) ∧
      ((⟨flow, serverIsn, clientIsn⟩ : Accepted) ∈ state.accepted →
        state.tables.replayCache ((cookieMac (serverIsn - clientIsn)).setWidth 12) =
          cookieMac (serverIsn - clientIsn))

/-- The cookie of an entry, with its MAC in the registry. -/
structure Registered (mac : Mac) (entry : Issued) (digest : mac.Digest) (mssIdx : Nat) :
    Prop where
  small : mssIdx < 8
  digest_eq : digest =
    mac.compute entry.flow entry.clientIsn (BitVec.ofNat 32 (entry.period % 32))
  serverIsn_eq : entry.serverIsn = entry.clientIsn +
    packCookie (BitVec.ofNat 32 (entry.period % 32)) mssIdx (mac.low digest)
  mss_eq : entry.mss = mssTable.getD mssIdx 0

/-- The invariant: the registry holds the MACs of the cookies last issued in each place. -/
structure Traced (state : State mac) : Prop where
  untouched : ∀ index, lastIssued state.issued index = none →
    state.tables.macRegistry index = mac.zero
  registered : ∀ index entry, lastIssued state.issued index = some entry →
    ∃ mssIdx, Registered mac entry (state.tables.macRegistry index) mssIdx
  past : ∀ entry ∈ state.issued, entry.period ≤ state.now
  clock : state.tables.globalTemporalRegistry.toNat ≤ state.now

theorem traced_initial (mac : Mac) : Traced (initial mac) where
  untouched := fun _ _ => rfl
  registered := by
    intro index entry found
    cases found
  past := by
    intro entry member
    cases member
  clock := Nat.le_refl 0

/-- The counter of a timely call has the five bits of its period. -/
theorem counterAt_timely {state : State mac} (traced : Traced state) (timely : Timely state time) :
    (state.tables.counterAt time).1 &&& 0x1F = BitVec.ofNat 32 (time.period % 32) ∧
      (state.tables.counterAt time).2.globalTemporalRegistry.toNat ≤ time.period := by
  have clock := traced.clock
  obtain ⟨later, small⟩ := timely
  unfold Tables.counterAt Tables.getTimeCounter
  unfold Time.period at later ⊢
  by_cases given : 0 < time.currentTimeMs
  · rw [if_pos given, if_pos given] at *
    refine ⟨?_, clock.trans later⟩
    apply BitVec.eq_of_toNat_eq
    rw [toNat_and_five, BitVec.toNat_ofNat]
    change time.currentTimeMs.toNat / 64000 % 2 ^ 32 % 32 = _
    omega
  · rw [if_neg given] at *
    rw [if_neg given]
    have current : (BitVec.ofNat 32 (time.tvSec / 64)).toNat = time.tvSec / 64 := by
      rw [BitVec.toNat_ofNat]
      omega
    have ahead : ¬BitVec.ofNat 32 (time.tvSec / 64) < state.tables.globalTemporalRegistry := by
      rw [BitVec.lt_def]
      omega
    rw [if_neg ahead]
    refine ⟨?_, Nat.le_of_eq current⟩
    apply BitVec.eq_of_toNat_eq
    rw [toNat_and_five, current, BitVec.toNat_ofNat]
    omega

theorem lastIssued_append (issued : List Issued) (entry : Issued) (index : BitVec 16) :
    lastIssued (issued ++ [entry]) index =
      if entry.flow.registryIndex entry.clientIsn = index then some entry
      else lastIssued issued index := by
  rw [lastIssued, List.reverse_append, List.reverse_singleton, List.singleton_append,
    List.find?_cons]
  by_cases same : entry.flow.registryIndex entry.clientIsn = index
  · rw [if_pos same, same, beq_self_eq_true]
  · rw [if_neg same, beq_false_of_ne same]
    rfl

theorem mem_of_lastIssued {issued : List Issued} {index : BitVec 16} {entry : Issued}
    (found : lastIssued issued index = some entry) : entry ∈ issued :=
  List.mem_reverse.mp (List.mem_of_find?_eq_some found)

theorem cookieTime_and_five (cookie : BitVec 32) :
    cookieTime cookie &&& 0x1F = cookieTime cookie := by
  apply BitVec.eq_of_toNat_eq
  rw [toNat_and_five, toNat_cookieTime]
  omega

namespace Tables

/-- Validation touches neither the registry nor, beyond reading it, the clock. -/
theorem validateFor_tables (tables : Tables mac) (flow : Flow) (serverIsn clientIsn : BitVec 32)
    (time : Time) :
    (tables.validateFor flow serverIsn clientIsn time).2.macRegistry = tables.macRegistry ∧
      (tables.validateFor flow serverIsn clientIsn time).2.globalTemporalRegistry =
        (tables.counterAt time).2.globalTemporalRegistry := by
  have registry := (tables.counterAt_tables time).1
  unfold validateFor
  dsimp only
  split_ifs
  · exact ⟨registry, rfl⟩
  · exact ⟨registry, rfl⟩
  · exact ⟨registry, rfl⟩
  · exact ⟨registry, rfl⟩
  · exact ⟨registry, rfl⟩

theorem of_accepted {tables : Tables mac} {flow : Flow} {serverIsn clientIsn : BitVec 32}
    {mss : BitVec 16}
    (accepted : (tables.validateFor flow serverIsn clientIsn time).1 = ⟨true, mss⟩) :
    (((tables.counterAt time).1 &&& 0x1F) - cookieTime (serverIsn - clientIsn) &&& 0x1F) < 2 ∧
      tables.macRegistry (flow.registryIndex clientIsn) =
        mac.compute flow clientIsn (cookieTime (serverIsn - clientIsn)) ∧
      cookieMac (serverIsn - clientIsn) =
        (mac.low (tables.macRegistry (flow.registryIndex clientIsn))).setWidth 32 ∧
      tables.replayCache ((cookieMac (serverIsn - clientIsn)).setWidth 12) ≠
        cookieMac (serverIsn - clientIsn) ∧
      mss = mssTable.getD (cookieMss (serverIsn - clientIsn)).toNat 0 := by
  obtain ⟨registry, replay⟩ := tables.counterAt_tables time
  have original : (((tables.counterAt time).1 &&& 0x1F) -
      ((((tables.counterAt time).1 &&& 0x1F) - cookieTime (serverIsn - clientIsn)) &&& 0x1F)) &&&
        0x1F = cookieTime (serverIsn - clientIsn) := by
    have bits := @originalT_eq (cookieTime (serverIsn - clientIsn))
      ((tables.counterAt time).1 &&& 0x1F)
    rw [cookieTime_and_five] at bits
    exact bits
  unfold validateFor at accepted
  dsimp only at accepted
  rw [original, registry, replay] at accepted
  split_ifs at accepted with old same differs replayed
  · cases accepted
  · cases accepted
  · cases accepted
  · cases accepted
    rw [not_not.mp differs]
    exact ⟨BitVec.not_le.mp old, rfl, same, replayed, rfl⟩
  · cases accepted

end Tables

namespace Traced

variable {state : State mac}

theorem generate (traced : Traced state) (flow : Flow) (clientIsn : BitVec 32)
    (clientMss : BitVec 16) (timely : Timely state time) :
    Traced (state.step (.generate flow clientIsn clientMss time)) := by
  obtain ⟨bits, clock⟩ := counterAt_timely traced timely
  have registry := (state.tables.counterAt_tables time).1
  have inside := mssIndex_lt clientMss (show 0 < 8 by decide)
  rw [step]
  unfold Tables.generateFor
  dsimp only
  rw [bits, registry]
  refine ⟨?_, ?_, ?_, clock⟩
  · intro index untouched
    dsimp only at untouched ⊢
    rw [lastIssued_append] at untouched
    split_ifs at untouched with here
    rw [Function.update_of_ne (Ne.symm here)]
    exact traced.untouched index untouched
  · intro index entry found
    dsimp only at found ⊢
    rw [lastIssued_append] at found
    split_ifs at found with here
    · cases found
      rw [← here, Function.update_self]
      exact ⟨_, inside, rfl, rfl, rfl⟩
    · rw [Function.update_of_ne (Ne.symm here)]
      exact traced.registered index entry found
  · intro entry member
    rcases List.mem_append.mp member with earlier | last
    · exact (traced.past entry earlier).trans timely.1
    · rw [List.mem_singleton.mp last]

theorem validate (traced : Traced state) (flow : Flow) (serverIsn clientIsn : BitVec 32)
    (timely : Timely state time) :
    Traced (state.step (.validate flow serverIsn clientIsn time)) := by
  obtain ⟨registry, clock⟩ := state.tables.validateFor_tables flow serverIsn clientIsn time
  have forward := (counterAt_timely traced timely).2
  rw [← clock] at forward
  refine ⟨?_, ?_, ?_, forward⟩
  · intro index untouched
    refine (congrFun registry index).trans (traced.untouched index untouched)
  · intro index entry found
    obtain ⟨mssIdx, registered⟩ := traced.registered index entry found
    exact ⟨mssIdx, (congrFun registry index).symm ▸ registered⟩
  · intro entry member
    exact (traced.past entry member).trans timely.1

theorem step (traced : Traced state) (call : Call) (unforged : Unforged state call) :
    Traced (state.step call) := by
  cases call with
  | generate flow clientIsn clientMss time => exact traced.generate _ _ _ unforged
  | validate flow serverIsn clientIsn time => exact traced.validate _ _ _ unforged.1

/-- A cookie that was issued is the one presented when they agree in the bits of the segment
size. -/
theorem serverIsn_eq {entry : Issued} {digest : mac.Digest} {mssIdx : Nat}
    (registered : Registered mac entry digest mssIdx) {serverIsn : BitVec 32}
    (time : cookieTime (serverIsn - entry.clientIsn) = BitVec.ofNat 32 (entry.period % 32))
    (bits : cookieMac (serverIsn - entry.clientIsn) = (mac.low digest).setWidth 32)
    (size : cookieMss (serverIsn - entry.clientIsn) =
      cookieMss (entry.serverIsn - entry.clientIsn)) :
    entry.serverIsn = serverIsn ∧ (cookieMss (serverIsn - entry.clientIsn)).toNat = mssIdx := by
  have issued : entry.serverIsn - entry.clientIsn =
      packCookie (BitVec.ofNat 32 (entry.period % 32)) mssIdx (mac.low digest) := by
    rw [registered.serverIsn_eq, BitVec.add_comm, BitVec.add_sub_cancel]
  have sizeBits : (cookieMss (serverIsn - entry.clientIsn)).toNat = mssIdx := by
    rw [size, issued, toNat_cookieMss_packCookie registered.small]
  have presented := packCookie_fields (serverIsn - entry.clientIsn) bits
  rw [time, sizeBits, ← issued] at presented
  refine ⟨?_, sizeBits⟩
  calc entry.serverIsn = entry.serverIsn - entry.clientIsn + entry.clientIsn :=
        (BitVec.sub_add_cancel _ _).symm
    _ = serverIsn - entry.clientIsn + entry.clientIsn := by rw [presented]
    _ = serverIsn := BitVec.sub_add_cancel _ _

theorem genuine (traced : Traced state)
    (injective : Function.Injective fun input : Flow × BitVec 32 × BitVec 32 =>
      mac.compute input.1 input.2.1 input.2.2) {flow : Flow} {serverIsn clientIsn : BitVec 32}
    (unforged : Unforged state (.validate flow serverIsn clientIsn time)) :
    Genuine state flow serverIsn clientIsn time := by
  obtain ⟨timely, unissued, answered, known⟩ := unforged
  intro mss accepted
  obtain ⟨young, stored, bits, unknown, rfl⟩ := Tables.of_accepted accepted
  refine ⟨?_, fun before => unknown (known before)⟩
  cases found : lastIssued state.issued (flow.registryIndex clientIsn) with
  | none =>
    rw [traced.untouched _ found] at stored
    exact absurd stored.symm (unissued found)
  | some entry =>
    obtain ⟨mssIdx, registered⟩ := traced.registered _ _ found
    have inputs : (entry.flow, entry.clientIsn, BitVec.ofNat 32 (entry.period % 32)) =
        (flow, clientIsn, cookieTime (serverIsn - clientIsn)) :=
      injective (registered.digest_eq.symm.trans stored)
    obtain ⟨rfl, rest⟩ := Prod.mk.inj inputs
    obtain ⟨rfl, period⟩ := Prod.mk.inj rest
    obtain ⟨recent, size⟩ := answered entry found rfl rfl
    obtain ⟨same, sizeBits⟩ := serverIsn_eq registered period.symm bits size
    have past := (traced.past entry (mem_of_lastIssued found)).trans timely.1
    refine ⟨entry, mem_of_lastIssued found, rfl, rfl, same, ?_, past, ?_⟩
    · rw [sizeBits, registered.mss_eq]
    · rw [(counterAt_timely traced timely).1, ← period, BitVec.lt_def, toNat_and_five,
        BitVec.toNat_sub, BitVec.toNat_ofNat, BitVec.toNat_ofNat] at young
      change _ < 2 at young
      omega

end Traced

/-- With a MAC that tells all inputs apart, only genuine cookies are accepted in a run in
which nothing is forged. -/
theorem genuine_of_unforged (mac : Mac)
    (injective : Function.Injective fun input : Flow × BitVec 32 × BitVec 32 =>
      mac.compute input.1 input.2.1 input.2.2)
    (calls : List Call) (flow : Flow) (serverIsn clientIsn : BitVec 32) (time : Time)
    (unforged : Admissible step Unforged (initial mac)
      (calls ++ [.validate flow serverIsn clientIsn time])) :
    Genuine (execute step (initial mac) calls) flow serverIsn clientIsn time := by
  rw [Admissible.append_iff] at unforged
  have preserved : ∀ (state : State mac) call, Traced state → Unforged state call →
      Traced (state.step call) :=
    fun _ call traced unforged => traced.step call unforged
  have traced := execute_invariant_of_admissible preserved (traced_initial mac) unforged.1
  exact traced.genuine injective unforged.2.1

/-- A MAC whose digest is its input. -/
def idealMac : Mac where
  Digest := Option (Flow × BitVec 32 × BitVec 32)
  decidableEq := inferInstance
  compute := fun flow clientIsn t => some (flow, clientIsn, t)
  low := fun digest => (digest.elim 0 fun input => input.2.1).setWidth 24
  zero := none

theorem idealMac_injective : Function.Injective fun input : Flow × BitVec 32 × BitVec 32 =>
    idealMac.compute input.1 input.2.1 input.2.2 := by
  intro left right same
  exact Option.some.inj same

instance (state : State mac) (call : Call) : Decidable (Unforged state call) := by
  cases call <;> unfold Unforged <;> infer_instance

theorem genuine_of_unforged_answered :
    let issued := execute step (initial idealMac)
      [.generate (client 1) 5 1460 (secondsAfter 0)]
    (issued.tables.validateFor (client 1) (5 + packCookie 0 6 5) 5 (secondsAfter 100)).1 =
        ⟨true, 1460⟩ ∧
      Genuine issued (client 1) (5 + packCookie 0 6 5) 5 (secondsAfter 100) :=
  ⟨by decide +kernel,
    genuine_of_unforged idealMac idealMac_injective
      [.generate (client 1) 5 1460 (secondsAfter 0)] (client 1) (5 + packCookie 0 6 5) 5
      (secondsAfter 100) (by decide +kernel)⟩

/-- A cookie with other bits for the segment size than the one issued; a cookie presented 32
periods after it was issued; and a cookie presented again after another one with the same
place in the replay cache. -/
theorem forged_accepted :
    ¬Genuine (execute step (initial idealMac)
      [.generate (client 1) 5 64 (secondsAfter 0)])
      (client 1) (5 + packCookie 0 1 5) 5 (secondsAfter 1) ∧
    ¬Genuine (execute step (initial idealMac)
      [.generate (client 1) 5 64 (secondsAfter 0)])
      (client 1) (5 + packCookie 0 0 5) 5 (secondsAfter (32 * 64)) ∧
    ¬Genuine (execute step (initial idealMac)
      [.generate (client 1) 1 64 (secondsAfter 0), .generate (client 2) 0x1001 64 (secondsAfter 0),
        .validate (client 1) (1 + packCookie 0 0 1) 1 (secondsAfter 1),
        .validate (client 2) (0x1001 + packCookie 0 0 0x1001) 0x1001 (secondsAfter 1)])
      (client 1) (1 + packCookie 0 0 1) 1 (secondsAfter 2) := by
  refine ⟨?_, ?_, ?_⟩
  · intro genuine
    exact absurd (genuine 256 (by decide +kernel)) (by decide +kernel)
  · intro genuine
    exact absurd (genuine 64 (by decide +kernel)) (by decide +kernel)
  · intro genuine
    exact absurd (genuine 64 (by decide +kernel)) (by decide +kernel)

end SlabFlux.Net.SynCookie
