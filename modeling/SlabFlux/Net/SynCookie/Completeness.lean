import Mathlib.Data.Nat.Bitwise
import SlabFlux.Net.SynCookie.Model

/-!
# Which cookies are accepted

A packed cookie gives its fields back, and a cookie is determined by its fields.  The
fields are compared as numbers, since they do not overlap.

A fresh cookie passes the tests of its period and of its 24 bits.  Whether it is accepted
then depends on the two tables all flows share: another flow may have taken the place of
its MAC, and its 24 bits may be those of a cookie accepted before, or the zero the table
starts with.
-/

namespace SlabFlux.Net.SynCookie

open Lib
variable (cookie : BitVec 32)

theorem toNat_and_five (word : BitVec 32) : (word &&& 0x1F).toNat = word.toNat % 32 :=
  (BitVec.toNat_and word 0x1F).trans (Nat.and_two_pow_sub_one_eq_mod word.toNat 5)

theorem toNat_and_three (word : BitVec 32) : (word &&& 0x7).toNat = word.toNat % 8 :=
  (BitVec.toNat_and word 0x7).trans (Nat.and_two_pow_sub_one_eq_mod word.toNat 3)

theorem toNat_cookieTime : (cookieTime cookie).toNat = cookie.toNat / 2 ^ 27 := by
  rw [cookieTime, BitVec.toNat_ushiftRight, Nat.shiftRight_eq_div_pow]

theorem toNat_cookieMss : (cookieMss cookie).toNat = cookie.toNat / 2 ^ 24 % 8 := by
  rw [cookieMss, toNat_and_three, BitVec.toNat_ushiftRight, Nat.shiftRight_eq_div_pow]

theorem toNat_cookieMac : (cookieMac cookie).toNat = cookie.toNat % 2 ^ 24 :=
  (BitVec.toNat_and cookie 0x00FFFFFF).trans (Nat.and_two_pow_sub_one_eq_mod cookie.toNat 24)

theorem toNat_packCookie (t : BitVec 32) {mssIdx : Nat} (digest : BitVec 24) (small : mssIdx < 8) :
    (packCookie t mssIdx digest).toNat =
      2 ^ 27 * (t.toNat % 32) + (2 ^ 24 * mssIdx + digest.toNat) := by
  have lower : 2 ^ 24 * mssIdx + digest.toNat = 2 ^ 24 * mssIdx ||| digest.toNat :=
    Nat.two_pow_add_eq_or_of_lt digest.isLt mssIdx
  have upper := Nat.two_pow_add_eq_or_of_lt
    (show 2 ^ 24 * mssIdx + digest.toNat < 2 ^ 27 by omega) (t.toNat % 32)
  have time : ((t &&& 0x1F) <<< 27).toNat = 2 ^ 27 * (t.toNat % 32) := by
    rw [BitVec.toNat_shiftLeft, toNat_and_five]
    omega
  have size : ((BitVec.ofNat 32 mssIdx &&& 0x7) <<< 24).toNat = 2 ^ 24 * mssIdx := by
    rw [BitVec.toNat_shiftLeft, toNat_and_three, BitVec.toNat_ofNat]
    omega
  have mac : (digest.setWidth 32).toNat = digest.toNat := by
    rw [BitVec.toNat_setWidth]
    omega
  rw [packCookie, BitVec.toNat_or, BitVec.toNat_or, time, size, mac, upper, lower, Nat.or_assoc]

variable {t : BitVec 32} {mssIdx : Nat} {digest : BitVec 24}

theorem cookieTime_packCookie (small : mssIdx < 8) :
    cookieTime (packCookie t mssIdx digest) = t &&& 0x1F := by
  apply BitVec.eq_of_toNat_eq
  rw [toNat_cookieTime, toNat_packCookie t digest small, toNat_and_five]
  omega

theorem toNat_cookieMss_packCookie (small : mssIdx < 8) :
    (cookieMss (packCookie t mssIdx digest)).toNat = mssIdx := by
  rw [toNat_cookieMss, toNat_packCookie t digest small]
  omega

theorem cookieMac_packCookie (small : mssIdx < 8) :
    cookieMac (packCookie t mssIdx digest) = digest.setWidth 32 := by
  apply BitVec.eq_of_toNat_eq
  rw [toNat_cookieMac, toNat_packCookie t digest small, BitVec.toNat_setWidth]
  omega

/-- A cookie is the one packed from its fields. -/
theorem packCookie_fields (same : cookieMac cookie = digest.setWidth 32) :
    packCookie (cookieTime cookie) (cookieMss cookie).toNat digest = cookie := by
  have small : (cookieMss cookie).toNat < 8 := by
    rw [toNat_cookieMss]
    omega
  have mac := congrArg BitVec.toNat same
  rw [toNat_cookieMac, BitVec.toNat_setWidth] at mac
  apply BitVec.eq_of_toNat_eq
  rw [toNat_packCookie _ digest small, toNat_cookieTime, toNat_cookieMss]
  omega

/-! ## Period counters -/

/-- The five bits received are found again from the age they give. -/
theorem originalT_eq {tRx tLocal : BitVec 32} :
    (tLocal - ((tLocal - (tRx &&& 0x1F)) &&& 0x1F)) &&& 0x1F = tRx &&& 0x1F := by
  apply BitVec.eq_of_toNat_eq
  rw [toNat_and_five, BitVec.toNat_sub, toNat_and_five, BitVec.toNat_sub, toNat_and_five]
  omega

theorem toNat_age (t now : BitVec 32) :
    (((now &&& 0x1F) - (t &&& 0x1F)) &&& 0x1F).toNat = (now.toNat + 2 ^ 32 - t.toNat) % 32 := by
  rw [toNat_and_five, BitVec.toNat_sub, toNat_and_five, toNat_and_five]
  omega

/-! ## Segment sizes -/

/-- The largest table entry that is not larger than the client's segment size. -/
def FitsBest (clientMss mss : BitVec 16) : Prop :=
  mss ∈ mssTable ∧ mss ≤ clientMss ∧ ∀ entry ∈ mssTable, entry ≤ clientMss → entry ≤ mss

theorem mssIndex_lt (clientMss : BitVec 16) {count : Nat} (positive : 0 < count) :
    mssIndex clientMss count < count := by
  induction count with
  | zero => exact absurd positive (Nat.lt_irrefl 0)
  | succ count ih =>
      rw [mssIndex]
      split_ifs
      · exact Nat.lt_succ_self count
      · rcases Nat.eq_zero_or_pos count with rfl | more
        · exact Nat.one_pos
        · exact Nat.lt_succ_of_lt (ih more)

/-- The loop stops at an entry that fits, and every later entry is too large. -/
theorem mssIndex_spec (clientMss : BitVec 16) (smallest : mssTable.getD 0 0 ≤ clientMss)
    (count : Nat) :
    mssTable.getD (mssIndex clientMss count) 0 ≤ clientMss ∧
      ∀ later, mssIndex clientMss count < later → later < count →
        ¬mssTable.getD later 0 ≤ clientMss := by
  induction count with
  | zero => exact ⟨smallest, fun later _ bound => absurd bound (Nat.not_lt_zero later)⟩
  | succ count ih =>
      rw [mssIndex]
      split_ifs with fits
      · refine ⟨fits, ?_⟩
        intro later above below
        omega
      · refine ⟨ih.1, ?_⟩
        intro later above below
        by_cases last : later = count
        · rw [last]
          exact fits
        · exact ih.2 later above (by omega)

theorem mssTable_sorted : ∀ high < 8, ∀ low ≤ high, mssTable.getD low 0 ≤ mssTable.getD high 0 := by
  decide

theorem mssIndex_fitsBest {clientMss : BitVec 16} (large : 64 ≤ clientMss) :
    FitsBest clientMss (mssTable.getD (mssIndex clientMss 8) 0) := by
  have inside := mssIndex_lt clientMss (show 0 < 8 by decide)
  obtain ⟨fits, later⟩ := mssIndex_spec clientMss large 8
  refine ⟨?_, fits, ?_⟩
  · rw [List.getD_eq_getElem _ _ inside]
    exact List.getElem_mem inside
  · intro entry member small
    obtain ⟨index, bound, rfl⟩ := List.getElem_of_mem member
    rw [← List.getD_eq_getElem _ 0 bound] at small ⊢
    by_cases above : mssIndex clientMss 8 < index
    · exact absurd small (later index above bound)
    · exact mssTable_sorted _ inside index (by omega)

/-! ## Acceptance -/

variable {mac : Mac}

/-- The tables still know the MAC and do not take the cookie for a replay. -/
abbrev Undisturbed (tables : Tables mac) (flow : Flow) (clientIsn t : BitVec 32) : Prop :=
  tables.macRegistry (flow.registryIndex clientIsn) = mac.compute flow clientIsn t ∧
    tables.replayCache (((mac.low (mac.compute flow clientIsn t)).setWidth 32).setWidth 12) ≠
      (mac.low (mac.compute flow clientIsn t)).setWidth 32

namespace Tables

variable (tables : Tables mac)

/-- The two tables do not depend on the clock. -/
theorem counterAt_tables (time : Time) :
    (tables.counterAt time).2.macRegistry = tables.macRegistry ∧
      (tables.counterAt time).2.replayCache = tables.replayCache := by
  unfold counterAt getTimeCounter
  dsimp only
  split_ifs
  · exact ⟨rfl, rfl⟩
  · exact ⟨rfl, rfl⟩
  · exact ⟨rfl, rfl⟩

/-- What `validate` makes of a cookie packed at a counter less than two periods ago. -/
theorem validateFor_packCookie (flow : Flow) (clientIsn t : BitVec 32) {mssIdx : Nat}
    (small : mssIdx < 8) (time : Time) (recent : ((tables.counterAt time).1 - t).toNat < 2) :
    (tables.validateFor flow (clientIsn + packCookie (t &&& 0x1F) mssIdx
        (mac.low (mac.compute flow clientIsn (t &&& 0x1F)))) clientIsn time).1 =
      if Undisturbed tables flow clientIsn (t &&& 0x1F) then
        ⟨true, mssTable.getD mssIdx 0⟩ else ⟨false, 0⟩ := by
  have masked : (t &&& 0x1F) &&& 0x1F = t &&& 0x1F := by
    rw [BitVec.and_assoc]
    rfl
  have cookie : clientIsn + packCookie (t &&& 0x1F) mssIdx
      (mac.low (mac.compute flow clientIsn (t &&& 0x1F))) - clientIsn =
        packCookie (t &&& 0x1F) mssIdx (mac.low (mac.compute flow clientIsn (t &&& 0x1F))) := by
    rw [BitVec.add_comm, BitVec.add_sub_cancel]
  obtain ⟨registry, replay⟩ := tables.counterAt_tables time
  have young : ¬2 ≤ (((tables.counterAt time).1 &&& 0x1F) - (t &&& 0x1F)) &&& 0x1F := by
    rw [BitVec.le_def, toNat_age]
    rw [BitVec.toNat_sub] at recent
    change ¬2 ≤ _
    omega
  unfold validateFor
  dsimp only
  rw [cookie, cookieTime_packCookie small, cookieMac_packCookie small,
    toNat_cookieMss_packCookie small, masked, if_neg young, originalT_eq, if_pos rfl, registry,
    replay]
  by_cases stored : tables.macRegistry (flow.registryIndex clientIsn) =
      mac.compute flow clientIsn (t &&& 0x1F)
  · rw [if_neg (not_not.mpr stored)]
    by_cases replayed : tables.replayCache (((mac.low (mac.compute flow clientIsn
        (t &&& 0x1F))).setWidth 32).setWidth 12) =
          (mac.low (mac.compute flow clientIsn (t &&& 0x1F))).setWidth 32
    · have disturbed : ¬Undisturbed tables flow clientIsn (t &&& 0x1F) :=
        fun undisturbed => undisturbed.2 replayed
      rw [if_pos replayed, if_neg disturbed]
    · have undisturbed : Undisturbed tables flow clientIsn (t &&& 0x1F) := ⟨stored, replayed⟩
      rw [if_neg replayed, if_pos undisturbed]
  · have disturbed : ¬Undisturbed tables flow clientIsn (t &&& 0x1F) :=
      fun undisturbed => stored undisturbed.1
    rw [if_pos stored, if_neg disturbed]

end Tables

/-- A cookie is accepted, with the segment size that fits best, exactly when the tables have
not been disturbed since; the calls in between are arbitrary. -/
theorem accepted_iff_undisturbed (state : State mac) (flow : Flow) (clientIsn : BitVec 32)
    {clientMss : BitVec 16} (large : 64 ≤ clientMss) (time : Time) (calls : List Call)
    (time' : Time) :
    let t := (state.tables.counterAt time).1
    let serverIsn := (state.tables.generateFor flow clientIsn clientMss time).1
    let later := execute State.step (state.step (.generate flow clientIsn clientMss time)) calls
    -- less than two periods have passed
    ((later.tables.counterAt time').1 - t).toNat < 2 → ((∃ mss, FitsBest clientMss mss ∧
          (later.tables.validateFor flow serverIsn clientIsn time').1 = ⟨true, mss⟩) ↔
        Undisturbed later.tables flow clientIsn (t &&& 0x1F)) := by
  intro t serverIsn later recent
  have inside := mssIndex_lt clientMss (show 0 < 8 by decide)
  have outcome := later.tables.validateFor_packCookie flow clientIsn t inside time' recent
  change (later.tables.validateFor flow serverIsn clientIsn time').1 = _ at outcome
  rw [outcome]
  constructor
  · rintro ⟨mss, -, accepted⟩
    by_contra disturbed
    rw [if_neg disturbed] at accepted
    cases accepted
  · intro undisturbed
    rw [if_pos undisturbed]
    exact ⟨_, mssIndex_fitsBest large, rfl⟩

/-- A MAC of 64 bits that only looks at the sequence number. -/
def plainMac : Mac where
  Digest := BitVec 64
  decidableEq := inferInstance
  compute := fun _ clientIsn _ => clientIsn.setWidth 64
  low := fun digest => digest.setWidth 24
  zero := 0

/-- A client of a server. -/
def client (port : BitVec 16) : Flow := .ipv4 0x0A000001 port 0x0A000002 443

def secondsAfter (seconds : Nat) : Time where
  currentTimeMs := BitVec.ofNat 64 (1000 * (seconds + 1))
  tvSec := 0

theorem accepted_iff_undisturbed_alone :
    let later := (State.initial plainMac).step (.generate (client 1) 5 1220 (secondsAfter 0))
    Undisturbed later.tables (client 1) 5 0 ∧ ∃ mss, FitsBest 1220 mss ∧
        (later.tables.validateFor (client 1) (5 + packCookie 0 4 5) 5
          (secondsAfter 100)).1 = ⟨true, mss⟩ :=
  ⟨by decide +kernel,
    (accepted_iff_undisturbed (State.initial plainMac) (client 1) 5 (show 64 ≤ 1220#16 by decide)
      (secondsAfter 0) [] (secondsAfter 100) (by decide +kernel)).mpr (by decide +kernel)⟩

/-- Another flow with the same place in the registry, and a MAC whose 24 bits are zero. -/
theorem fresh_cookie_rejected :
    (let issue := Call.generate (client 1) 5 1460 (secondsAfter 0)
      let serverIsn := ((State.initial plainMac).tables.generateFor (client 1) 5 1460
        (secondsAfter 0)).1
      let later := execute State.step (State.initial plainMac)
        [issue, .generate (client 2) 6 1460 (secondsAfter 1)]
      (later.tables.validateFor (client 1) serverIsn 5 (secondsAfter 2)).1 = ⟨false, 0⟩) ∧
    (let issue := Call.generate (client 1) 0 1460 (secondsAfter 0)
      let serverIsn := ((State.initial plainMac).tables.generateFor (client 1) 0 1460
        (secondsAfter 0)).1
      let later := execute State.step (State.initial plainMac) [issue]
      (later.tables.validateFor (client 1) serverIsn 0 (secondsAfter 2)).1 = ⟨false, 0⟩) := by
  decide +kernel

end SlabFlux.Net.SynCookie
