import SlabFlux.Net.Tls.Socket

/-!
# Nonces of records

The sequence number is swapped to network order and folded into the second word of the
implicit IV, of which only the first four bytes reach the counter block.  These are the
four high bytes of the sequence number.
-/

namespace SlabFlux.Net.Tls

open Lib Lib.Simd Net.Tcp AesGcm128Engine
variable (aes : AesInstructions) (engine : AesGcm128Engine)

namespace AesGcm128Engine

/-- The engine when it has encrypted a number of records. -/
def atSequence (engine : AesGcm128Engine) (sequenceNumber : BitVec 64) : AesGcm128Engine :=
  { engine with sequenceNumber := sequenceNumber }

theorem recordNonce_eq :
    engine.recordNonce = toBytes 8 engine.implicitIv0 ++
      toBytes 4 (engine.implicitIv1 ^^^ byteSwap 8 engine.sequenceNumber) := by
  rw [recordNonce, List.take_append, length_toBytes,
    List.take_of_length_le (by rw [length_toBytes]; decide), take_toBytes _ (by decide)]

theorem length_recordNonce : engine.recordNonce.length = 12 := by
  rw [recordNonce_eq, List.length_append, length_toBytes, length_toBytes]

/-- Only the upper half of the sequence number enters the nonce. -/
theorem recordNonce_eq_iff (first second : BitVec 64) :
    (engine.atSequence first).recordNonce = (engine.atSequence second).recordNonce ↔
      first.toNat / 2 ^ 32 = second.toNat / 2 ^ 32 := by
  have swapped : ∀ (number : BitVec 64), ∀ index < 4,
      byteAt (engine.implicitIv1 ^^^ byteSwap 8 number) index =
        byteAt engine.implicitIv1 index ^^^ byteAt number (4 + (3 - index)) := by
    intro number index inside
    rw [byteAt_xor, byteAt_byteSwap number (by decide) (by omega)]
    congr 2
    omega
  have upper : ∀ number : BitVec 64,
      (number.extractLsb' (8 * 4) (8 * 4)).toNat = number.toNat / 2 ^ 32 := by
    intro number
    rw [BitVec.extractLsb'_toNat, Nat.shiftRight_eq_div_pow, Nat.mod_eq_of_lt (by omega)]
  rw [recordNonce_eq]
  calc
    _ ↔ ∀ index < 4, byteAt (engine.implicitIv1 ^^^ byteSwap 8 first) index =
          byteAt (engine.implicitIv1 ^^^ byteSwap 8 second) index :=
      (List.append_right_inj _).trans toBytes_eq_iff
    _ ↔ ∀ index < 4, byteAt first (4 + index) = byteAt second (4 + index) := by
      constructor
      · intro same index inside
        have mirrored := same (3 - index) (by omega)
        rw [swapped first _ (by omega), swapped second _ (by omega),
          BitVec.xor_right_inj, Nat.sub_sub_self (by omega)] at mirrored
        exact mirrored
      · intro same index inside
        rw [swapped first index inside, swapped second index inside,
          same (3 - index) (by omega)]
    _ ↔ first.extractLsb' (8 * 4) (8 * 4) = second.extractLsb' (8 * 4) (8 * 4) :=
      forall_byteAt_iff
    _ ↔ first.toNat / 2 ^ 32 = second.toNat / 2 ^ 32 := by
      rw [← BitVec.toNat_inj, upper, upper]

/-- Counter blocks of different nonces are different. -/
theorem counterBlock_ne {first second : Bytes} (lengthFirst : first.length = 12)
    (lengthSecond : second.length = 12) (different : first ≠ second) (c32 c32' : BitVec 32) :
    counterBlock first c32 ≠ counterBlock second c32' := by
  have whole : ∀ (nonce : Bytes) (counter : BitVec 32), nonce.length = 12 →
      (nonce ++ toBytes 4 (byteSwap 4 counter)).take 16 =
        nonce ++ toBytes 4 (byteSwap 4 counter) := by
    intro nonce counter length
    refine List.take_of_length_le ?_
    rw [List.length_append, length, length_toBytes]
  unfold counterBlock load
  rw [whole first c32 lengthFirst, whole second c32' lengthSecond, Ne,
    ofBytes_inj (by simp [lengthFirst]) (by simp [lengthFirst, lengthSecond])]
  intro same
  exact different (List.append_inj_left same (lengthFirst.trans lengthSecond.symm))

/-- The blocks that AES is applied to for one record: the first masks the tag, and all of
them carry the nonce of the record. -/
structure FedWith (nonce : Bytes) (fed : List Xmm) : Prop where
  mask : counterBlock nonce 1 ∈ fed
  nonce : ∀ block ∈ fed, ∃ c32, block = counterBlock nonce c32

theorem FedWith.snoc {nonce : Bytes} {fed : List Xmm} (fedWith : FedWith nonce fed)
    (c32 : BitVec 32) : FedWith nonce (fed ++ [counterBlock nonce c32]) where
  mask := List.mem_append_left _ fedWith.mask
  nonce := by
    intro block member
    rcases List.mem_append.mp member with old | new
    · exact fedWith.nonce block old
    · exact ⟨c32, List.mem_singleton.mp new⟩

theorem fedWith_encryptPayload {aes : AesInstructions} {engine : AesGcm128Engine}
    {nonce : Bytes} (plaintext : Bytes) (innerType : BitVec 8)
    {state : RecordState} (fedWith : FedWith nonce state.fed) :
    FedWith nonce (encryptPayload aes engine nonce plaintext innerType state).fed := by
  have blocks : ∀ (indices : List Nat) (state : RecordState), FedWith nonce state.fed →
      FedWith nonce (indices.foldl
        (fun state index =>
          encryptChunk aes engine nonce (wholeBlock plaintext innerType index)
            (BitVec.ofNat 32 (index + 2)) 16 state) state).fed := by
    intro indices
    induction indices with
    | nil => exact fun _ fedWith => fedWith
    | cons index rest ih => exact fun state fedWith => ih _ (fedWith.snoc _)
  unfold encryptPayload
  dsimp only
  split_ifs
  · exact (blocks _ state fedWith).snoc _
  · exact blocks _ state fedWith

theorem fedWith_encryptRecord (plaintext : Bytes) (innerType : BitVec 8) :
    FedWith engine.recordNonce (engine.encryptRecord aes plaintext innerType).fed :=
  fedWith_encryptPayload plaintext innerType
    { mask := List.mem_singleton_self _
      nonce := fun _ member => ⟨1, List.mem_singleton.mp member⟩ }

/-- Two records share no block exactly when their nonces differ. -/
theorem FedWith.disjoint_iff {first second : Bytes} {fed fed' : List Xmm}
    (fedWith : FedWith first fed) (fedWith' : FedWith second fed')
    (lengthFirst : first.length = 12) (lengthSecond : second.length = 12) :
    fed.Disjoint fed' ↔ first ≠ second := by
  constructor
  · rintro disjoint rfl
    exact disjoint fedWith.mask fedWith'.mask
  · intro different block member member'
    obtain ⟨c32, rfl⟩ := fedWith.nonce block member
    obtain ⟨c32', same⟩ := fedWith'.nonce _ member'
    exact counterBlock_ne lengthFirst lengthSecond different c32 c32' same

end AesGcm128Engine

/-! ## Runs -/

variable {Mbuf : Type}

/-- What `encrypt_record` leaves on record: the nonce and the blocks AES was applied to. -/
structure RecordTrace where
  nonce : Bytes
  fed : List Xmm

/-- A socket with the records it has encrypted. -/
structure TlsSession (Mbuf : Type) where
  socket : VirtualTlsSocket Mbuf
  records : List RecordTrace

/-- A call of `send`, or anything that happens to the connection in between. -/
inductive TlsMove (Mbuf : Type) where
  | send (platform : Platform) (buffer : Bytes)
  | connection (tcp : Tcb Mbuf)

def tlsStep (aes : AesInstructions) (session : TlsSession Mbuf) :
    TlsMove Mbuf → TlsSession Mbuf
  | .send platform buffer =>
      { socket := (session.socket.send aes platform buffer).1
        records :=
          if session.socket.encrypts buffer then
            session.records ++
              [{ nonce := session.socket.txEngine.recordNonce
                 fed := (session.socket.txEngine.encryptRecord aes buffer 0x17).fed }]
          else session.records }
  | .connection tcp => { session with socket := { session.socket with tcp := tcp } }

/-- The records are numbered from 0 on, and each was encrypted under its number. -/
structure Numbered (engine : AesGcm128Engine) (session : TlsSession Mbuf) : Prop where
  current : session.socket.txEngine =
    engine.atSequence (BitVec.ofNat 64 session.records.length)
  traced : ∀ index (inside : index < session.records.length),
    session.records[index].nonce = (engine.atSequence (BitVec.ofNat 64 index)).recordNonce ∧
      FedWith session.records[index].nonce session.records[index].fed

theorem numbered_tlsStep (session : TlsSession Mbuf) (move : TlsMove Mbuf)
    (numbered : Numbered engine session) :
    Numbered engine (tlsStep aes session move) := by
  obtain ⟨current, traced⟩ := numbered
  cases move with
  | connection tcp => exact ⟨current, traced⟩
  | send platform buffer =>
      unfold tlsStep VirtualTlsSocket.send
      dsimp only
      split_ifs
      · refine ⟨?_, fun index inside => ?_⟩
        · rw [current, List.length_append, BitVec.ofNat_add]
          rfl
        · rw [List.length_append] at inside
          rcases Nat.lt_succ_iff_lt_or_eq.mp inside with old | rfl
          · simpa only [List.getElem_append_left old] using traced index old
          · simp only [List.getElem_concat_length]
            exact ⟨congrArg recordNonce current,
              fedWith_encryptRecord aes session.socket.txEngine buffer 0x17⟩
      · exact ⟨current, traced⟩

/-- The engine a socket sends with after `set_traffic_keys`. -/
theorem sequenceNumber_setTrafficKeys (clientKey : Vector (BitVec 8) 16)
    (clientIv : Vector (BitVec 8) 12) (serverKey : Vector (BitVec 8) 16)
    (serverIv : Vector (BitVec 8) 12) (isServer : Bool) (socket : VirtualTlsSocket Mbuf) :
    (socket.setTrafficKeys aes clientKey clientIv serverKey serverIv
      isServer).txEngine.sequenceNumber = 0 := by
  unfold VirtualTlsSocket.setTrafficKeys
  split_ifs <;> rfl

/-- Two records sent after `set_traffic_keys` have different nonces, and share no block
that AES is applied to, exactly when the upper halves of their numbers differ. -/
theorem records_separate_iff (aes : AesInstructions) (socket : VirtualTlsSocket Mbuf)
    (clientKey : Vector (BitVec 8) 16) (clientIv : Vector (BitVec 8) 12)
    (serverKey : Vector (BitVec 8) 16) (serverIv : Vector (BitVec 8) 12) (isServer : Bool)
    (moves : List (TlsMove Mbuf)) {session : TlsSession Mbuf}
    (reached : session = execute (tlsStep aes)
      ⟨socket.setTrafficKeys aes clientKey clientIv serverKey serverIv isServer, []⟩ moves)
    (few : session.records.length < 2 ^ 64) {first second : Nat}
    (insideFirst : first < session.records.length)
    (insideSecond : second < session.records.length) :
    (session.records[first].nonce ≠ session.records[second].nonce ↔
        first / 2 ^ 32 ≠ second / 2 ^ 32) ∧
      (session.records[first].fed.Disjoint session.records[second].fed ↔
        first / 2 ^ 32 ≠ second / 2 ^ 32) := by
  have numbered : Numbered (socket.setTrafficKeys aes clientKey clientIv serverKey serverIv
      isServer).txEngine session := by
    rw [reached]
    refine execute_invariant (numbered_tlsStep aes _)
      ⟨?_, fun _ inside => absurd inside (Nat.not_lt_zero _)⟩ moves
    have zero := sequenceNumber_setTrafficKeys aes clientKey clientIv serverKey serverIv
      isServer socket
    generalize (socket.setTrafficKeys aes clientKey clientIv serverKey serverIv isServer) =
      keyed at zero ⊢
    change keyed.txEngine = { keyed.txEngine with sequenceNumber := 0 }
    rw [← zero]
  obtain ⟨nonceFirst, fedFirst⟩ := numbered.traced first insideFirst
  obtain ⟨nonceSecond, fedSecond⟩ := numbered.traced second insideSecond
  have same := recordNonce_eq_iff (socket.setTrafficKeys aes clientKey clientIv
    serverKey serverIv isServer).txEngine (BitVec.ofNat 64 first) (BitVec.ofNat 64 second)
  rw [← nonceFirst, ← nonceSecond, BitVec.toNat_ofNat, BitVec.toNat_ofNat,
    Nat.mod_eq_of_lt (by omega), Nat.mod_eq_of_lt (by omega)] at same
  have disjoint := fedFirst.disjoint_iff fedSecond
    (nonceFirst ▸ length_recordNonce _)
    (nonceSecond ▸ length_recordNonce _)
  exact ⟨not_congr same, disjoint.trans (not_congr same)⟩

/-- An open connection that has just got its keys, all zero. -/
def keyedSession : TlsSession Unit where
  socket := VirtualTlsSocket.setTrafficKeys .identity (.replicate 16 0) (.replicate 12 0)
    (.replicate 16 0) (.replicate 12 0) false
    { tcp := { phase := .established }
      txEngine := .setKey .identity (.replicate 16 0) (.replicate 12 0)
      rxEngine := .setKey .identity (.replicate 16 0) (.replicate 12 0) }
  records := []

/-- The first two records. -/
theorem records_separate_iff_start :
    let session := execute (tlsStep .identity) keyedSession [.send {} [], .send {} [1]]
    ∃ (few : session.records.length = 2),
      (session.records[0].nonce ≠ session.records[1].nonce ↔ 0 / 2 ^ 32 ≠ 1 / 2 ^ 32) ∧
        (session.records[0].fed.Disjoint session.records[1].fed ↔
          0 / 2 ^ 32 ≠ 1 / 2 ^ 32) := by
  intro session
  have two : session.records.length = 2 := by decide +kernel
  have few : session.records.length < 2 ^ 64 := by rw [two]; decide
  have one : 0 < session.records.length := by rw [two]; decide
  have both : 1 < session.records.length := by rw [two]; decide
  exact ⟨two, records_separate_iff .identity _ _ _ _ _ false _ rfl few one both⟩

/-- The first two records are encrypted under one nonce, and their tags are masked with one
block. -/
theorem records_share_nonce :
    let session := execute (tlsStep .identity) keyedSession [.send {} [], .send {} [1]]
    session.records.map (·.nonce) = [List.replicate 12 0, List.replicate 12 0] ∧
      ∀ record ∈ session.records,
        counterBlock (List.replicate 12 0) 1 ∈ record.fed := by
  decide +kernel

end SlabFlux.Net.Tls
