import SlabFlux.Net.Quic.Model

/-!
# When QUIC ingress stays in bounds

What the function does not check: that a connection id has at most 20 bytes, that a byte is left
for the length of the source connection id, that the datagram fits into `packet_buf`, and that
the payload is long enough to hold the packet number.
-/

namespace SlabFlux.Net.Quic

open Lib Trace
open Lib.Trace (readAt keeps_readAt_bind keeps_writeAt_bind)

variable {config : Config} {Key : Type} {crypto : Crypto Key} {datagram : Datagram}

/-- The accesses that the function may make. -/
abbrev Allowed (datagram : Datagram) : Access Region → Prop :=
  Access.Allowed (size datagram) writable

/-! ## Variable-length integers -/

theorem outcome_decodeQuicVarint (pos : Nat) :
    (decodeQuicVarint datagram pos : Run config Key _).outcome = .ok (datagram.varint pos) := by
  rw [decodeQuicVarint]
  split
  · rfl
  · split <;> rfl

theorem keeps_decodeQuicVarint (pos : Nat) :
    (decodeQuicVarint datagram pos : Run config Key _).Keeps (Allowed datagram) := by
  rw [decodeQuicVarint]
  split
  · exact keeps_pure
  · case isFalse inside =>
    rw [keeps_readAt_bind, size]
    refine ⟨by omega, ?_⟩
    split
    · exact keeps_pure
    · case isFalse whole =>
      rw [keeps_readAt_bind, size]
      exact ⟨by omega, keeps_pure⟩

/-! ## Opening a packet -/

theorem keeps_unmaskNumber {mask packet : Memory} {pnOffset : Nat} {places : List Nat}
    {number : BitVec 32} (inside : ∀ i ∈ places, i < 4) (room : pnOffset + 4 ≤ 1500) :
    (unmaskNumber mask pnOffset places packet number : Run config Key _).Keeps
      (Allowed datagram) := by
  induction places generalizing packet number with
  | nil => exact keeps_pure
  | cons i places ih =>
    obtain ⟨first, later⟩ := List.forall_mem_cons.mp inside
    rw [unmaskNumber, keeps_readAt_bind, keeps_readAt_bind, keeps_writeAt_bind, size, size]
    exact ⟨by omega, by omega, ⟨by omega, rfl⟩, ih later⟩

theorem outcome_unmaskNumber (mask packet : Memory) (pnOffset : Nat) (places : List Nat)
    (number : BitVec 32) :
    ∃ unmasked, (unmaskNumber mask pnOffset places packet number : Run config Key _).outcome =
        .ok unmasked := by
  induction places generalizing packet number with
  | nil => exact ⟨_, rfl⟩
  | cons i places ih =>
    exact ih _ _

theorem pnLength_le (crypto : Crypto Key) (key : Key) (datagram : Datagram) (pnOffset : Nat)
    (flags : BitVec 8) : datagram.pnLength crypto key pnOffset flags ≤ 4 := by
  rw [Datagram.pnLength, BitVec.toNat_and]
  have low : (datagram.firstByte crypto key pnOffset flags).toNat &&& (0x03 : BitVec 8).toNat ≤ 3 :=
    Nat.and_le_right
  omega

theorem keeps_decryptQuic_iff (key : Key) (packet : Memory) (headerLen ctLen : Nat)
    (number : BitVec 32) :
    (decryptQuic crypto key packet headerLen ctLen number : Run config Key _).Keeps
        (Allowed datagram) ↔ headerLen + ctLen ≤ 1500 := by
  rw [decryptQuic, keeps_readAt_bind, keeps_readAt_bind, size]
  split
  · simp only [keeps_pure, and_true]
    omega
  · rw [keeps_writeAt_bind, size, and_iff_left (show writable .decryptedPayload = true from rfl),
      and_iff_left keeps_pure]
    omega

/-- The payload of an unmasked packet. -/
theorem keeps_payload_iff (aead : Key) {mask packet : Memory} {pnOffset pnLength : Nat}
    (encrypted : Nat) (short : pnLength ≤ 4) (room : pnOffset + 4 ≤ 1500) :
    (do
      let unmasked ← unmaskNumber mask pnOffset (List.range pnLength) packet 0
      let valid ← decryptQuic crypto aead unmasked.1 (pnOffset + pnLength) encrypted unmasked.2
      if valid then readAt .decryptedPayload 0 (encrypted - 16) else pure () :
        Run config Key Unit).Keeps (Allowed datagram) ↔
      pnOffset + pnLength + encrypted ≤ 1500 := by
  have places : ∀ i ∈ List.range pnLength, i < 4 := fun i member =>
    Nat.lt_of_lt_of_le (List.mem_range.mp member) short
  rw [keeps_bind, and_iff_right (keeps_unmaskNumber places room)]
  constructor
  · intro all
    obtain ⟨unmasked, ok⟩ := outcome_unmaskNumber mask packet pnOffset (List.range pnLength) 0
    have kept := all unmasked ok
    rw [keeps_bind] at kept
    exact (keeps_decryptQuic_iff aead _ _ _ _).mp kept.1
  · intro fits unmasked _
    rw [keeps_bind]
    refine ⟨(keeps_decryptQuic_iff aead _ _ _ _).mpr fits, fun valid _ => ?_⟩
    split
    · rw [keeps_readAt, size]
      omega
    · exact keeps_pure

/-- A packet is opened in bounds exactly if the datagram fits into the buffer and what is to be
decrypted does not reach beyond it. -/
theorem keeps_openPacket_iff (hp aead : Key) (flags : BitVec 8) {pnOffset : Nat}
    (encryptedLen : Nat → Nat) (sample : pnOffset + 4 + 16 ≤ datagram.len) :
    (openPacket crypto hp aead flags datagram pnOffset encryptedLen :
        Run config Key Unit).Keeps (Allowed datagram) ↔
      datagram.len ≤ 1500 ∧ pnOffset + datagram.pnLength crypto hp pnOffset flags +
          encryptedLen (datagram.pnLength crypto hp pnOffset flags) ≤ 1500 := by
  simp only [openPacket, keeps_readAt_bind, keeps_writeAt_bind, size]
  by_cases enough : datagram.len ≤ 1500
  · rw [keeps_payload_iff aead _ (pnLength_le crypto hp datagram pnOffset flags)
      (show pnOffset + 4 ≤ 1500 by omega)]
    simp only [writable, ne_eq, reduceCtorEq, not_false_eq_true, decide_true, and_true]
    omega
  · omega

/-! ## The function -/

variable {engine : Engine config Key}

namespace Datagram

/-- Where the token of an Initial packet ends. -/
def tokenEnd (datagram : Datagram) : Nat :=
  (datagram.varint datagram.afterScid).2 + (datagram.varint datagram.afterScid).1

/-- The length that an Initial packet declares for its payload. -/
def payloadLen (datagram : Datagram) : Nat := (datagram.varint datagram.tokenEnd).1

/-- Where the packet number of an Initial packet is. -/
def pnOffset (datagram : Datagram) : Nat := (datagram.varint datagram.tokenEnd).2

/-- The datagram has a long header, and its destination connection id does not reach beyond
its end. -/
def HasDcid (datagram : Datagram) : Prop :=
  21 ≤ datagram.len ∧ datagram.isLong = true ∧ datagram.version ≠ 0 ∧
    6 + datagram.dcidLen ≤ datagram.len

/-- The datagram is an Initial packet of a connection that is known or can be created, and its
token, its payload and its sample lie in the datagram. -/
def OpensInitial (crypto : Crypto Key) (engine : Engine config Key) (datagram : Datagram)
    (index : Fin config.maxConnections) : Prop :=
  datagram.packetType = 0 ∧ (connect crypto engine datagram.dcid).2 = some index ∧
    datagram.tokenEnd ≤ datagram.len ∧ datagram.pnOffset + datagram.payloadLen ≤ datagram.len ∧
    datagram.pnOffset + 4 + 16 ≤ datagram.len

/-- The number of bytes of an Initial packet's number. -/
def initialPnLength (crypto : Crypto Key) (engine : Engine config Key) (datagram : Datagram)
    (index : Fin config.maxConnections) : Nat :=
  datagram.pnLength crypto ((connect crypto engine datagram.dcid).1.tcbs index).rxInitialHp
    datagram.pnOffset 0x0F

/-- The datagram has a short header and belongs to a connection that is established. -/
def OpensShort (engine : Engine config Key) (datagram : Datagram)
    (index : Fin config.maxConnections) : Prop :=
  29 ≤ datagram.len ∧ datagram.isLong = false ∧
    engine.lookupConnection datagram.shortDcid = some index ∧
    (engine.tcbs index).phase = .oneRtt

end Datagram

theorem sizeSub_of_le {a b : Nat} (less : b ≤ a) (bound : a < 2 ^ 64) : sizeSub a b = a - b := by
  rw [sizeSub]
  omega

theorem le_sizeSub_of_lt {a b : Nat} (less : a < b) (bound : b ≤ 4) : 2 ^ 64 - 4 ≤ sizeSub a b := by
  rw [sizeSub]
  omega

theorem keeps_openInitial_iff (hp aead : Key)
    (payload : datagram.pnOffset + datagram.payloadLen ≤ datagram.len)
    (sample : datagram.pnOffset + 4 + 16 ≤ datagram.len) :
    (openPacket crypto hp aead 0x0F datagram datagram.pnOffset
        (fun pnLength => sizeSub datagram.payloadLen pnLength) : Run config Key Unit).Keeps
      (Allowed datagram) ↔
      datagram.len ≤ 1500 ∧
        datagram.pnLength crypto hp datagram.pnOffset 0x0F ≤ datagram.payloadLen := by
  rw [keeps_openPacket_iff hp aead _ _ sample]
  refine and_congr_right fun enough => ?_
  have short := pnLength_le crypto hp datagram datagram.pnOffset 0x0F
  by_cases long : datagram.pnLength crypto hp datagram.pnOffset 0x0F ≤ datagram.payloadLen
  · rw [sizeSub_of_le long (by omega)]
    omega
  · have huge := le_sizeSub_of_lt (Nat.lt_of_not_le long) short
    omega

theorem keeps_deriveKeys (dcid : datagram.dcidLen ≤ 20) :
    (deriveKeys engine datagram).Keeps (Allowed datagram) := by
  rw [deriveKeys]
  split
  · rw [keeps_readAt, size]
    omega
  · exact keeps_pure

theorem outcome_deriveKeys : (deriveKeys engine datagram).outcome = .ok () := by
  rw [deriveKeys]
  split <;> rfl

theorem keeps_processInitial_iff (dcid : datagram.dcidLen ≤ 20) (type : datagram.packetType = 0) :
    (processInitial crypto engine datagram).Keeps (Allowed datagram) ↔
      ∀ index, datagram.OpensInitial crypto engine index → datagram.len ≤ 1500 ∧
          datagram.initialPnLength crypto engine index ≤ datagram.payloadLen := by
  rw [processInitial]
  cases connected : (connect crypto engine datagram.dcid).2 with
  | none => simp [Datagram.OpensInitial, connected]
  | some index =>
    rw [keeps_bind_of_ok outcome_deriveKeys, and_iff_right (keeps_deriveKeys dcid),
      keeps_bind_of_ok (outcome_decodeQuicVarint _),
      and_iff_right (keeps_decodeQuicVarint _)]
    have opens : ∀ other, datagram.OpensInitial crypto engine other ↔ other = index ∧
        datagram.tokenEnd ≤ datagram.len ∧
        datagram.pnOffset + datagram.payloadLen ≤ datagram.len ∧
        datagram.pnOffset + 4 + 16 ≤ datagram.len := by
      intro other
      rw [Datagram.OpensInitial, connected, Option.some.injEq, eq_comm (a := index)]
      exact and_iff_right type
    simp only [opens, and_imp, forall_eq]
    change Keeps _ (if datagram.len < datagram.tokenEnd then _ else _) ↔ _
    split
    · case isTrue beyond => simp [Nat.not_le.mpr beyond]
    · case isFalse inside =>
      rw [imp_iff_right (Nat.le_of_not_lt inside), keeps_bind_of_ok (outcome_decodeQuicVarint _),
        and_iff_right (keeps_decodeQuicVarint _)]
      change Keeps _ (if datagram.len < datagram.pnOffset + datagram.payloadLen then _ else _) ↔ _
      split
      · case isTrue beyond => simp [Nat.not_le.mpr beyond]
      · case isFalse payload =>
        rw [imp_iff_right (Nat.le_of_not_lt payload)]
        change Keeps _ (if datagram.len < datagram.pnOffset + 4 + 16 then _ else _) ↔ _
        split
        · case isTrue beyond => simp [Nat.not_le.mpr beyond]
        · case isFalse sample =>
          rw [imp_iff_right (Nat.le_of_not_lt sample), keeps_bind]
          rw [and_iff_left fun _ _ => keeps_pure]
          exact keeps_openInitial_iff _ _ (Nat.le_of_not_lt payload) (Nat.le_of_not_lt sample)

theorem keeps_processLong_iff (enough : 21 ≤ datagram.len) :
    (processLong crypto engine datagram).Keeps (Allowed datagram) ↔
      (datagram.version ≠ 0 → 6 + datagram.dcidLen ≤ datagram.len →
        datagram.dcidLen ≤ 20 ∧ 6 + datagram.dcidLen < datagram.len ∧
          (datagram.afterScid ≤ datagram.len → datagram.scidLen ≤ 20 ∧
              ∀ index, datagram.OpensInitial crypto engine index → datagram.len ≤ 1500 ∧
                  datagram.initialPnLength crypto engine index ≤ datagram.payloadLen)) := by
  rw [processLong, keeps_readAt_bind, size, and_iff_right (by omega)]
  split
  · case isTrue negotiation => simp [negotiation]
  rw [keeps_readAt_bind, size, and_iff_right (by omega)]
  split
  · case isTrue beyond => simp [Nat.not_le.mpr beyond]
  · case isFalse version inside =>
    rw [imp_iff_right version, imp_iff_right (Nat.le_of_not_lt inside)]
    rw [keeps_readAt_bind, keeps_writeAt_bind, keeps_readAt_bind, size, size,
      and_iff_right (Nat.le_of_not_lt inside),
      and_iff_left (show writable .dcidData = true from rfl), Nat.zero_add]
    refine and_congr_right fun dcid => and_congr_right fun _ => ?_
    split
    · case isTrue beyond => simp [Nat.not_le.mpr beyond]
    · case isFalse scid =>
      rw [imp_iff_right (Nat.le_of_not_lt scid)]
      rw [keeps_readAt_bind, keeps_writeAt_bind, keeps_readAt_bind, size, size, size,
        and_iff_left (show writable .scidData = true from rfl), Nat.zero_add, Nat.zero_add,
        and_iff_right (by rw [Datagram.afterScid] at scid; omega)]
      refine and_congr_right fun _ => ?_
      rw [and_iff_right dcid]
      split
      · case isTrue type => exact keeps_processInitial_iff dcid type
      · case isFalse type =>
        rw [iff_true_left keeps_pure]
        rintro index ⟨initial, -⟩
        exact absurd initial type

theorem keeps_processShort_iff (enough : 21 ≤ datagram.len) (short : datagram.isLong = false) :
    (processShort crypto engine datagram).Keeps (Allowed datagram) ↔
      ∀ index, datagram.OpensShort engine index → datagram.len ≤ 1500 := by
  rw [processShort, if_neg (by omega), keeps_readAt_bind, keeps_writeAt_bind, keeps_readAt_bind,
    size, size, and_iff_right (by omega), and_iff_right ⟨by omega, rfl⟩, and_iff_right (by omega)]
  cases found : engine.lookupConnection datagram.shortDcid with
  | none => simp [Datagram.OpensShort, found]
  | some index =>
    dsimp only
    split
    · case isTrue closed => simp [Datagram.OpensShort, found, closed]
    split
    · case isTrue beyond =>
      simp only [keeps_stop, true_iff]
      rintro other ⟨long, -⟩
      omega
    · case isFalse established sample =>
      rw [keeps_bind, and_iff_left fun _ _ => keeps_pure,
        keeps_openPacket_iff _ _ _ _ (Nat.le_of_not_lt sample)]
      have pnLength := pnLength_le crypto (engine.tcbs index).rxAppHp datagram 9 0x1F
      constructor
      · rintro ⟨fits, -⟩ _ _
        exact fits
      · intro fits
        have fits := fits index
          ⟨by omega, short, found, not_not.mp established⟩
        rw [sizeSub_of_le (by omega) (by omega)]
        omega

/-- Ingress stays in bounds exactly if both connection ids of a long header have at most 20
bytes, a byte is left for the length of the second one, a packet that is opened is a datagram of
at most 1500 bytes, and the payload of an Initial packet has room for the packet number. -/
theorem processInboundQuic_inBounds_iff (crypto : Crypto Key) (engine : Engine config Key)
    (datagram : Datagram) :
    (processInboundQuic crypto engine datagram).Keeps (Allowed datagram) ↔ (datagram.HasDcid →
        datagram.dcidLen ≤ 20 ∧ 6 + datagram.dcidLen < datagram.len ∧
          (datagram.afterScid ≤ datagram.len → datagram.scidLen ≤ 20 ∧
              ∀ index, datagram.OpensInitial crypto engine index → datagram.len ≤ 1500 ∧
                  datagram.initialPnLength crypto engine index ≤ datagram.payloadLen)) ∧
      ∀ index, datagram.OpensShort engine index → datagram.len ≤ 1500 := by
  rw [processInboundQuic]
  split
  · case isTrue tooShort =>
    rw [iff_true_left keeps_stop]
    constructor
    · rintro ⟨enough, -⟩
      omega
    · rintro index ⟨enough, -⟩
      omega
  · case isFalse enough =>
    have enough := Nat.le_of_not_lt enough
    rw [keeps_readAt_bind, size, and_iff_right (by omega)]
    cases long : datagram.isLong with
    | true =>
      have notShort : ∀ index, datagram.OpensShort engine index → datagram.len ≤ 1500 := by
        rintro index ⟨-, short, -⟩
        rw [long] at short
        cases short
      rw [if_pos rfl, keeps_processLong_iff enough, and_iff_left notShort]
      simp only [Datagram.HasDcid, enough, long, true_and, and_imp]
    | false =>
      rw [if_neg Bool.false_ne_true, keeps_processShort_iff enough long, and_iff_right]
      rintro ⟨-, isLong, -⟩
      rw [long] at isLong
      cases isLong

/-- A long header with a connection id of 21 bytes, in a datagram of 64. -/
def longDcidDatagram : Datagram where
  data := fun place => [0xC0, 0, 0, 0, 1, 21].getD place 0
  len := 64

/-- The connection id of 21 bytes is written beyond the end of its `data`. -/
theorem longDcidDatagram_overflows :
    ¬(processInboundQuic
        (⟨fun _ => (), fun _ => (), fun _ _ _ => 0, fun _ _ _ _ => false⟩ : Crypto Unit)
        (⟨fun _ => [], fun _ => ⟨.closed, (), (), (), ()⟩, 0, 1⟩ : Engine ⟨1, by decide⟩ Unit)
        longDcidDatagram).Keeps (Allowed longDcidDatagram) := by
  rw [processInboundQuic, if_neg (by decide), keeps_readAt_bind, if_pos (by decide),
    keeps_processLong_iff (by decide)]
  rintro ⟨-, kept⟩
  have dcid := (kept (by decide) (by decide)).1
  revert dcid
  decide

end SlabFlux.Net.Quic
