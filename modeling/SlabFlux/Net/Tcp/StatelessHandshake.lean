import SlabFlux.Net.Tcp.Outbound
import Mathlib.Tactic.IntervalCases

/-!
# The stateless handshake

`stateless_syn_ack` and the completing ACK in `on_raw_frame` of both gateways.  Nothing is kept
between the two: the options of the SYN come back in five bits of the echoed timestamp, if the
client offered timestamps.  The MSS of the SYN, in which the gateways differ, goes into the cookie
and is left out.
-/

namespace SlabFlux.Net.Tcp

variable {Mbuf : Type}

/-- What `on_raw_frame` takes from the options of a SYN. -/
structure ClientOffer where
  wscale : BitVec 8 := 0
  sack : BitVec 8 := 0
  ts : Bool := false
  tsval : BitVec 32 := 0
deriving DecidableEq

namespace OptionToken

/-- A window scale option. -/
def isWscale (token : OptionToken) : Bool := token.kind = 3 ∧ token.data.length = 1

/-- A timestamp option. -/
def isTimestamp (token : OptionToken) : Bool := token.kind = 8 ∧ token.data.length = 8

end OptionToken

/-- One option of a SYN. -/
def readOffer (offer : ClientOffer) (token : OptionToken) : ClientOffer :=
  if token.isWscale then
    { offer with wscale := if 14 < token.data.getD 0 0 then 14 else token.data.getD 0 0 }
  else if token.kind = 4 ∧ token.data.length = 0 then { offer with sack := 1 }
  else if token.isTimestamp then { offer with ts := true, tsval := token.word 0 }
  else offer

/-- The options of a SYN. -/
def clientOffer (syn : Packet Mbuf) : ClientOffer := syn.tokens.foldl readOffer {}

/-- Addresses and ports of a packet, as it came in. -/
structure Endpoints where
  srcMac : BitVec 48
  ipSrc : BitVec 32
  ipDst : BitVec 32
  srcPort : BitVec 16
  dstPort : BitVec 16

/-- The timestamp that carries the shift and the SACK bit of the client. -/
def cookieTimestamp (now : BitVec 64) (offer : ClientOffer) : BitVec 32 :=
  (now.setWidth 32 &&& ~~~(0x1F : BitVec 32)) ||| (offer.wscale.setWidth 32 <<< 1) |||
    offer.sack.setWidth 32

/-- Whether a SYN offers ECN. -/
def offersEcn (syn : Packet Mbuf) : Bool :=
  syn.tcpFlags &&& (Flag.ece ||| Flag.cwr) = Flag.ece ||| Flag.cwr

/-- `stateless_syn_ack`.  The shift 7 and SACK stand in the fixed block of options. -/
def statelessSynAck (addresses : Endpoints) (cookie : BitVec 32) (now : BitVec 64)
    (syn : Packet Mbuf) : Frame :=
  let offer := clientOffer syn
  let optLen := if offer.ts then 24 else 12
  { destMac := addresses.srcMac
    ipIhlVer := 0x45
    ipTos := 0
    ipLen := BitVec.ofNat 16 (40 + optLen)
    ipTtl := 64
    ipSrc := addresses.ipDst
    ipDst := addresses.ipSrc
    tcpSrcPort := addresses.dstPort
    tcpDstPort := addresses.srcPort
    tcpSeq := cookie
    tcpAck := syn.tcpSeq + 1
    tcpDataOffset := BitVec.ofNat 8 ((20 + optLen) / 4) <<< 4
    tcpFlags :=
      if offersEcn syn then Flag.syn ||| Flag.ack ||| Flag.ece else Flag.syn ||| Flag.ack
    tcpWindow := 65535
    options :=
      { synBlock := true
        timestamp := if offer.ts then some (cookieTimestamp now offer, offer.tsval) else none
        sackBlocks := [] }
    payload := [] }

/-- What the completing ACK brings back. -/
structure Recovered where
  wscale : BitVec 8 := 0
  sack : BitVec 8 := 0
  ts : BitVec 8 := 0
  tsval : BitVec 32 := 0

/-- One option of the completing ACK. -/
def readEcho (recovered : Recovered) (token : OptionToken) : Recovered :=
  if token.isTimestamp then
    { wscale := ((token.word 4 >>> 1) &&& 0x0F).setWidth 8
      sack := (token.word 4 &&& 0x01).setWidth 8
      ts := 1
      tsval := token.word 0 }
  else recovered

/-- The options of the completing ACK. -/
def recover (ack : Packet Mbuf) : Recovered := ack.tokens.foldl readEcho {}

/-- The block that a valid cookie opens, before it goes to the accept queue. -/
def hydrate (addresses : Endpoints) (mss : BitVec 16) (egress : Option (List Frame))
    (pool : Bool) (ack : Packet Mbuf) (tcb : Tcb Mbuf) : Tcb Mbuf :=
  let recovered := recover ack
  { tcb with
    phase := .established
    remoteMss := mss
    sndWscale := recovered.wscale
    sackPermitted := recovered.sack
    tsPermitted := recovered.ts
    tsRecent := recovered.tsval
    ecnPermitted := 1
    sndUna := ack.tcpAck
    sndNxt := ack.tcpAck
    rcvNxt := ack.tcpSeq
    expectedTtl := ack.ipTtl
    localIpv4 := addresses.ipDst
    remoteIpv4 := addresses.ipSrc
    localPort := addresses.dstPort
    remotePort := addresses.srcPort
    targetMac := addresses.srcMac
    txMbufPool := pool
    txEgressConduit := egress
    txUnackedRing := none
    rcvWnd := 65535
    sndWnd := ack.tcpWindow.setWidth 32 <<< recovered.wscale.toNat
    cwnd := 14600
    ssthresh := 65535 }

/-! ## What comes back -/

/-- The shift and the SACK bit fit into five bits. -/
def ClientOffer.Bounded (offer : ClientOffer) : Prop := offer.wscale ≤ 14 ∧ offer.sack ≤ 1

theorem bounded_readOffer {offer : ClientOffer} (bounded : offer.Bounded) (token : OptionToken) :
    (readOffer offer token).Bounded := by
  have fourteen : (14 : BitVec 8) ≤ 14 := by decide
  have one : (1 : BitVec 8) ≤ 1 := by decide
  unfold readOffer
  split_ifs with scale above sack stamp
  · exact ⟨fourteen, bounded.2⟩
  · exact ⟨BitVec.not_lt.mp above, bounded.2⟩
  · exact ⟨bounded.1, one⟩
  · exact bounded
  · exact bounded

theorem bounded_clientOffer (syn : Packet Mbuf) : (clientOffer syn).Bounded :=
  List.foldlRecOn (motive := ClientOffer.Bounded) syn.tokens readOffer
    ⟨Nat.zero_le 14, Nat.zero_le 1⟩ fun _ bounded token _ => bounded_readOffer bounded token

/-- A timestamp that carries a shift and a SACK bit gives them back. -/
theorem cookieTimestamp_recovered (now : BitVec 64) {offer : ClientOffer}
    (bounded : offer.Bounded) :
    ((cookieTimestamp now offer >>> 1) &&& 0x0F).setWidth 8 = offer.wscale ∧
      (cookieTimestamp now offer &&& 0x01).setWidth 8 = offer.sack := by
  obtain ⟨wscale, sack⟩ := bounded
  have shift {bit : Nat} (bound : bit < 8) (high : 4 ≤ bit) : offer.wscale[bit] = false := by
    rw [← BitVec.getLsbD_eq_getElem]
    apply Nat.testBit_lt_two_pow
    have small : offer.wscale.toNat ≤ 14 := wscale
    have power : 2 ^ 4 ≤ 2 ^ bit := Nat.pow_le_pow_right (by decide) high
    omega
  have mark {bit : Nat} (bound : bit < 8) (high : 1 ≤ bit) : offer.sack[bit] = false := by
    rw [← BitVec.getLsbD_eq_getElem]
    apply Nat.testBit_lt_two_pow
    have small : offer.sack.toNat ≤ 1 := sack
    have power : 2 ^ 1 ≤ 2 ^ bit := Nat.pow_le_pow_right (by decide) high
    omega
  constructor
  · ext bit bound
    simp only [cookieTimestamp]
    interval_cases bit <;> simp [shift, mark]
  · ext bit bound
    simp only [cookieTimestamp]
    interval_cases bit <;> simp [mark]

/-- The shift and the SACK bit are those of an echo. -/
def Recovered.Carries (recovered : Recovered) (echo : BitVec 32) : Prop :=
  recovered.wscale = ((echo >>> 1) &&& 0x0F).setWidth 8 ∧
    recovered.sack = (echo &&& 0x01).setWidth 8

theorem carries_foldl {tokens : List OptionToken} {echo : BitVec 32}
    (echoes : ∀ token ∈ tokens, token.isTimestamp = true → token.word 4 = echo)
    {recovered : Recovered}
    (some : recovered.Carries echo ∨ ∃ token ∈ tokens, token.isTimestamp = true) :
    (tokens.foldl readEcho recovered).Carries echo := by
  induction tokens generalizing recovered with
  | nil => simpa using some
  | cons token tokens ih =>
      apply ih fun other member => echoes other (List.mem_cons_of_mem _ member)
      by_cases stamp : token.isTimestamp = true
      · left
        rw [readEcho, if_pos stamp, ← echoes token List.mem_cons_self stamp]
        exact ⟨rfl, rfl⟩
      · rw [readEcho]
        simpa [stamp] using some

theorem foldl_readEcho_of_none {tokens : List OptionToken}
    (none : ¬∃ token ∈ tokens, token.isTimestamp = true) (recovered : Recovered) :
    tokens.foldl readEcho recovered = recovered := by
  induction tokens with
  | nil => rfl
  | cons token tokens ih =>
      have first : ¬token.isTimestamp = true := fun stamp =>
        none ⟨token, List.mem_cons_self, stamp⟩
      rw [List.foldl_cons, readEcho, if_neg first]
      exact ih fun ⟨other, member, stamp⟩ =>
        none ⟨other, List.mem_cons_of_mem _ member, stamp⟩

/-! ## Handshakes -/

/-- A SYN and the completing ACK of a conforming client: the ACK has a timestamp exactly if the
SYN offered one, and then it echoes the one of the SYN-ACK. -/
structure Handshake (Mbuf : Type) where
  listener : Tcb Mbuf
  addresses : Endpoints
  cookie : BitVec 32
  now : BitVec 64
  mss : BitVec 16
  egress : Option (List Frame)
  pool : Bool
  syn : Packet Mbuf
  ack : Packet Mbuf
  stamped : (∃ token ∈ ack.tokens, token.isTimestamp = true) ↔ (clientOffer syn).ts = true
  echoes : ∀ token ∈ ack.tokens, token.isTimestamp = true → some (token.word 4) =
      (statelessSynAck addresses cookie now syn).options.timestamp.map Prod.fst

namespace Handshake

variable (handshake : Handshake Mbuf)

/-- The block that the ACK opens. -/
def opened : Tcb Mbuf :=
  hydrate handshake.addresses handshake.mss handshake.egress handshake.pool handshake.ack
    handshake.listener

/-- What the client offered. -/
def offer : ClientOffer := clientOffer handshake.syn

/-- Whether the client offered window scaling. -/
def offersScaling : Bool := handshake.syn.tokens.any OptionToken.isWscale

/-- The shift that the client applies to windows: the one of the SYN-ACK if both sides offered
scaling. -/
def peerShift : Nat := if handshake.offersScaling then 7 else 0

/-- The opened block uses what was negotiated. -/
structure Negotiates : Prop where
  sndWscale : handshake.opened.sndWscale = handshake.offer.wscale
  rcvWscale : handshake.opened.rcvWscale.toNat = handshake.peerShift
  windows : ∀ later : Tcb Mbuf, later.rcvWscale = handshake.opened.rcvWscale → ∀ payloadLen flags,
      (later.prepareOutboundHeader payloadLen flags).2.tcpWindow.toNat * 2 ^ handshake.peerShift ≤
        (later.prepareOutboundHeader payloadLen flags).1.rcvWnd.toNat
  sack : handshake.opened.sackPermitted ≠ 0 → handshake.offer.sack ≠ 0
  timestamps : handshake.opened.tsPermitted ≠ 0 → handshake.offer.ts = true
  ecn : handshake.opened.ecnPermitted ≠ 0 → offersEcn handshake.syn = true

/-- The echo brings back what the client offered. -/
theorem recover_of_timestamps (offered : handshake.offer.ts = true) :
    (recover handshake.ack).wscale = handshake.offer.wscale ∧
      (recover handshake.ack).sack = handshake.offer.sack := by
  have carries : (recover handshake.ack).Carries
      (cookieTimestamp handshake.now handshake.offer) := by
    apply carries_foldl _ (.inr (handshake.stamped.mpr offered))
    intro token member stamp
    have echo := handshake.echoes token member stamp
    have stamps : (statelessSynAck handshake.addresses handshake.cookie handshake.now
        handshake.syn).options.timestamp =
          some (cookieTimestamp handshake.now handshake.offer, handshake.offer.tsval) :=
      if_pos offered
    rw [stamps] at echo
    exact Option.some.inj echo
  have back := cookieTimestamp_recovered handshake.now (bounded_clientOffer handshake.syn)
  exact ⟨carries.1.trans back.1, carries.2.trans back.2⟩

theorem recover_of_none (none : handshake.offer.ts ≠ true) : recover handshake.ack = {} :=
  foldl_readEcho_of_none (handshake.stamped.not.mpr none) {}

/-- A window whose last bits are cut off is not larger when it is scaled again. -/
theorem window_le (later : Tcb Mbuf) (payloadLen : Nat) (flags : BitVec 8) :
    (later.prepareOutboundHeader payloadLen flags).2.tcpWindow.toNat * 2 ^ later.rcvWscale.toNat ≤
      (later.prepareOutboundHeader payloadLen flags).1.rcvWnd.toNat := by
  have cut : (later.receiveWindow >>> later.rcvWscale.toNat).toNat =
      later.receiveWindow.toNat / 2 ^ later.rcvWscale.toNat := by
    rw [BitVec.toNat_ushiftRight, Nat.shiftRight_eq_div_pow]
  have field : (if 65535 < later.receiveWindow >>> later.rcvWscale.toNat then (65535 : BitVec 16)
      else (later.receiveWindow >>> later.rcvWscale.toNat).setWidth 16).toNat ≤
        (later.receiveWindow >>> later.rcvWscale.toNat).toNat := by
    split_ifs with above
    · exact Nat.le_of_lt above
    · exact Nat.mod_le _ _
  calc _ ≤ later.receiveWindow.toNat / 2 ^ later.rcvWscale.toNat * 2 ^ later.rcvWscale.toNat :=
        Nat.mul_le_mul_right _ (cut ▸ field)
    _ ≤ later.receiveWindow.toNat := Nat.div_mul_le_self _ _

theorem sndWscale_opened :
    handshake.opened.sndWscale = handshake.offer.wscale ↔
      handshake.offer.ts = true ∨ handshake.offer.wscale = 0 := by
  change (recover handshake.ack).wscale = _ ↔ _
  by_cases offered : handshake.offer.ts = true
  · simp [offered, handshake.recover_of_timestamps offered]
  · rw [handshake.recover_of_none offered]
    simp [offered, eq_comm]

end Handshake

/-- A stateless handshake negotiates what it uses exactly if the client offers ECN, the listening
block has the right shift already, and the client's shift comes back. -/
theorem negotiates_iff (handshake : Handshake Mbuf) :
    handshake.Negotiates ↔ offersEcn handshake.syn = true ∧
        handshake.listener.rcvWscale.toNat = handshake.peerShift ∧
        (handshake.offer.ts = true ∨ handshake.offer.wscale = 0) := by
  constructor
  · intro negotiates
    exact ⟨negotiates.ecn (by decide : (1 : BitVec 8) ≠ 0), negotiates.rcvWscale,
      handshake.sndWscale_opened.mp negotiates.sndWscale⟩
  · rintro ⟨ecn, shift, back⟩
    refine ⟨handshake.sndWscale_opened.mpr back, shift, ?_, ?_, ?_, fun _ => ecn⟩
    · intro later same payloadLen flags
      have equal : later.rcvWscale.toNat = handshake.peerShift := same ▸ shift
      rw [← equal]
      exact Handshake.window_le later payloadLen flags
    · intro sack
      by_cases offered : handshake.offer.ts = true
      · rw [← (handshake.recover_of_timestamps offered).2]
        exact sack
      · exact absurd (congrArg Recovered.sack (handshake.recover_of_none offered)) sack
    · intro stamps
      by_contra offered
      exact stamps (congrArg Recovered.ts (handshake.recover_of_none offered))

/-- A client that offers the shift 2, timestamps and ECN. -/
def scalingHandshake (rcvWscale : BitVec 8) : Handshake Unit where
  listener := { phase := .listen, rcvWscale }
  addresses := ⟨0, 0x0100000A, 0x0200000A, 0x1000, 0x5000⟩
  cookie := 77
  now := 0
  mss := 1460
  egress := some []
  pool := true
  syn := ⟨1000, 0, 65535, 0xC2, [3, 3, 2, 1, 8, 10, 0, 0, 0, 7, 0, 0, 0, 0, 1, 1], 64, 0, 0, 54,
    none⟩
  ack := ⟨1001, 78, 65535, 0x10, [1, 1, 8, 10, 0, 0, 0, 8, 0, 0, 0, 4], 64, 0, 0, 66, none⟩
  stamped := by decide
  echoes := by decide

/-- The listening block has the shift of the SYN-ACK. -/
theorem negotiates_iff_scaling : (scalingHandshake 7).Negotiates :=
  (negotiates_iff (scalingHandshake 7)).mpr (by decide)

/-- The block is new: the client scales every window by 128, and the block announces 65535. -/
theorem not_negotiates_scaling : ¬(scalingHandshake 0).Negotiates := by
  intro negotiates
  exact absurd negotiates.rcvWscale (by decide)

end SlabFlux.Net.Tcp
