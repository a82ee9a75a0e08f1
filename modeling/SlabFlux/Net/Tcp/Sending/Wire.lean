import SlabFlux.Core.Endian
import SlabFlux.Net.Tcp.Outbound
import SlabFlux.Net.WireEngine

/-!
# Segments on the wire

The bytes of a segment that `send` builds, and the checksum it stores in the header once
the payload is copied.  Ports and addresses are kept as they are stored; the other header
fields are host values, written in network order.
-/

namespace SlabFlux.Net.Tcp

open SlabFlux.Core Lib Lib.InternetChecksum

variable {Mbuf : Type}

/-- The bytes of a word in network order. -/
def networkBytes {width : Nat} (count : Nat) (word : BitVec width) : Bytes :=
  (toBytes count word).reverse

@[simp] theorem length_networkBytes {width : Nat} (count : Nat) (word : BitVec width) :
    (networkBytes count word).length = count := by
  rw [networkBytes, List.length_reverse, length_toBytes]

/-- The option bytes `prepare_outbound_header` writes. -/
def OutboundOptions.bytes (options : OutboundOptions) : Bytes :=
  (if options.synBlock then
    [0x02, 0x04, 0x05, 0xB4, 0x01, 0x03, 0x03, 0x07, 0x04, 0x02, 0x01, 0x01] else []) ++
  (match options.timestamp with
    | some (tsVal, tsRecent) =>
        [0x01, 0x01, 0x08, 0x0A] ++ networkBytes 4 tsVal ++ networkBytes 4 tsRecent
    | none => []) ++
  if options.sackBlocks = [] then [] else
    [0x01, 0x01, 0x05, BitVec.ofNat 8 (2 + options.sackBlocks.length * 8)] ++
      options.sackBlocks.flatMap fun block => networkBytes 4 block.1 ++ networkBytes 4 block.2

namespace Frame

/-- The TCP header before the checksum. -/
def beforeChecksum (frame : Frame) : Bytes :=
  toBytes 2 frame.tcpSrcPort ++ toBytes 2 frame.tcpDstPort ++ networkBytes 4 frame.tcpSeq ++
    networkBytes 4 frame.tcpAck ++ [frame.tcpDataOffset, frame.tcpFlags] ++
    networkBytes 2 frame.tcpWindow

/-- The urgent pointer, the options and the payload. -/
def afterChecksum (frame : Frame) : Bytes :=
  [0, 0] ++ frame.options.bytes ++ frame.payload

/-- The segment with a checksum in its header. -/
def segmentBytes (frame : Frame) (checksum : BitVec 16) : Bytes :=
  frame.beforeChecksum ++ (toBytes 2 checksum ++ frame.afterChecksum)

/-- `tcp_len` of `send`. -/
def tcpLen (frame : Frame) : BitVec 16 :=
  BitVec.ofNat 16 (frame.payload.length + (frame.tcpDataOffset >>> 4).toNat * 4)

end Frame

/-- The addresses of the network header, as they are stored. -/
inductive Addresses where
  | ipv4 (src dst : BitVec 32)
  | ipv6 (src dst : BitVec 128)

namespace Addresses

/-- `pseudo_sum` over the eight words of an address. -/
def addWords (address : BitVec 128) (sum : BitVec 32) : BitVec 32 :=
  (List.range 8).foldl (fun sum index => sum + (address.extractLsb' (16 * index) 16).setWidth 32)
    sum

def pseudoSum (addresses : Addresses) (tcpLen : BitVec 16) : BitVec 32 :=
  let sum :=
    match addresses with
    | .ipv4 src dst => (src &&& 0xFFFF#32) + (src >>> 16) + ((dst &&& 0xFFFF#32) + (dst >>> 16))
    | .ipv6 src dst => addWords dst (addWords src 0)
  sum + (hostToNetwork16 6).setWidth 32 + (hostToNetwork16 tcpLen).setWidth 32

/-- The pseudo header a receiver puts before a segment of the given length. -/
def pseudoHeader (addresses : Addresses) (length : BitVec 16) : Bytes :=
  match addresses with
  | .ipv4 src dst => toBytes 4 src ++ toBytes 4 dst ++ [0, 6] ++ networkBytes 2 length
  | .ipv6 src dst =>
      toBytes 16 src ++ toBytes 16 dst ++ ([0, 0] ++ networkBytes 2 length) ++ [0, 0, 0, 6]

end Addresses

/-- The checksum `send` stores in the header of a segment. -/
def Frame.tcpChecksum (frame : Frame) (addresses : Addresses) : BitVec 16 :=
  WireEngine.computeChecksum false ((frame.segmentBytes 0).take frame.tcpLen.toNat)
    (addresses.pseudoSum frame.tcpLen)

/-- A receiver accepts the segment with the checksum `send` stores. -/
def Frame.Verifies (frame : Frame) (addresses : Addresses) : Prop :=
  InternetChecksum.Verifies (addresses.pseudoHeader
    (BitVec.ofNat 16 (frame.segmentBytes (frame.tcpChecksum addresses)).length) ++
      frame.segmentBytes (frame.tcpChecksum addresses))

/-! ## The pseudo header -/

/-- A stored word. -/
theorem total_word (word : BitVec 16) : total (toBytes 2 word) = word.toNat := by
  rw [show 2 = 2 * 1 from rfl, total_toBytes]
  simp [word.isLt]

theorem total_networkBytes (word : BitVec 16) :
    total (networkBytes 2 word) = (hostToNetwork16 word).toNat := by
  have swapped : networkBytes 2 word = toBytes 2 (hostToNetwork16 word) := by
    have low : byteAt (hostToNetwork16 word) 0 = byteAt word 1 := by
      unfold hostToNetwork16 networkToHost16 byteswapConstexpr16 byteAt
      ext bit bound
      interval_cases bit <;> simp
    have high : byteAt (hostToNetwork16 word) 1 = byteAt word 0 := by
      unfold hostToNetwork16 networkToHost16 byteswapConstexpr16 byteAt
      ext bit bound
      interval_cases bit <;> simp
    change [byteAt word 1, byteAt word 0] =
      [byteAt (hostToNetwork16 word) 0, byteAt (hostToNetwork16 word) 1]
    rw [low, high]
  rw [swapped, total_word]

theorem total_ipv4 (address : BitVec 32) :
    total (toBytes 4 address) = (address &&& 0xFFFF#32).toNat + (address >>> 16).toNat := by
  have low : (address &&& 0xFFFF#32).toNat = address.toNat % 65536 := by
    exact Nat.and_two_pow_sub_one_eq_mod address.toNat 16
  rw [show 4 = 2 * 2 from rfl, total_toBytes, low]
  simp [List.range_succ, BitVec.extractLsb'_toNat, Nat.shiftRight_eq_div_pow]
  omega

theorem toNat_addWords_ipv6 (address : BitVec 128) {sum : BitVec 32}
    (fits : sum.toNat ≤ 8 * 65535) :
    (Addresses.addWords address sum).toNat = sum.toNat + total (toBytes 16 address) ∧
      total (toBytes 16 address) ≤ 8 * 65535 := by
  have bounded : total (toBytes 16 address) ≤ 8 * 65535 := by
    have bound := total_le (toBytes 16 address)
    rw [length_toBytes] at bound
    omega
  -- Every step of the fold adds one word, and none overflows.
  have steps (count : Nat) (within : count ≤ 8) :
      ((List.range count).foldl
        (fun sum index => sum + (address.extractLsb' (16 * index) 16).setWidth 32) sum).toNat =
      sum.toNat + total (toBytes (2 * count) address) := by
    induction count with
    | zero => rfl
    | succ count ih =>
        have size := total_le (toBytes (2 * (count + 1)) address)
        rw [length_toBytes] at size
        rw [total_toBytes, List.range_succ, List.foldl_append, List.map_append, List.sum_append,
          ← total_toBytes]
        rw [total_toBytes, List.range_succ, List.map_append, List.sum_append,
          ← total_toBytes] at size
        simp only [List.foldl_cons, List.foldl_nil, List.map_cons, List.map_nil, List.sum_cons,
          List.sum_nil] at size ⊢
        rw [BitVec.toNat_add, BitVec.toNat_setWidth]
        omega
  exact ⟨steps 8 (Nat.le_refl 8), bounded⟩

/-- `pseudo_sum` is the total of the pseudo header. -/
theorem toNat_pseudoSum (addresses : Addresses) (length : BitVec 16) :
    (addresses.pseudoSum length).toNat = total (addresses.pseudoHeader length) := by
  have six : (hostToNetwork16 6).toNat = total [0, 6] := by decide
  have named := total_networkBytes length
  unfold Addresses.pseudoSum Addresses.pseudoHeader
  cases addresses with
  | ipv4 src dst =>
      have source := total_ipv4 src
      have target := total_ipv4 dst
      have sourceBound := total_le (toBytes 4 src)
      have targetBound := total_le (toBytes 4 dst)
      rw [length_toBytes] at sourceBound targetBound
      rw [total_append (by simp), total_append (by simp), total_append (by simp), named,
        source, target, ← six]
      simp only [BitVec.toNat_add, BitVec.toNat_setWidth]
      omega
  | ipv6 src dst =>
      obtain ⟨source, sourceBound⟩ := toNat_addWords_ipv6 src
        (show (0 : BitVec 32).toNat ≤ 8 * 65535 by decide)
      obtain ⟨target, targetBound⟩ := toNat_addWords_ipv6 dst
        (show (Addresses.addWords src 0).toNat ≤ 8 * 65535 by rw [source]; simpa using sourceBound)
      rw [total_append (by simp), total_append (by simp), total_append (by simp),
        total_append (by simp), named]
      simp only [BitVec.toNat_add, BitVec.toNat_setWidth, target, source, six]
      have zeros : total [0, 0] = 0 := rfl
      have trailer : total [0, 0, 0, 6] = total [0, 6] := rfl
      have nothing : (0 : BitVec 32).toNat = 0 := rfl
      omega

/-! ## The checksum -/

theorem length_beforeChecksum (frame : Frame) : frame.beforeChecksum.length = 16 := by
  simp [Frame.beforeChecksum]

theorem length_segmentBytes (frame : Frame) (checksum : BitVec 16) :
    (frame.segmentBytes checksum).length =
      20 + frame.options.bytes.length + frame.payload.length := by
  simp only [Frame.segmentBytes, Frame.afterChecksum, List.length_append, length_toBytes,
    length_beforeChecksum, List.length_cons, List.length_nil]
  omega

/-- Storing the checksum adds it to the total. -/
theorem total_segmentBytes (frame : Frame) (checksum : BitVec 16) :
    total (frame.segmentBytes checksum) = total (frame.segmentBytes 0) + checksum.toNat := by
  have even : frame.beforeChecksum.length % 2 = 0 := by rw [length_beforeChecksum]
  unfold Frame.segmentBytes
  rw [total_append even, total_append even, total_append (by simp), total_append (by simp),
    total_word, total_word]
  have zero : (0 : BitVec 16).toNat = 0 := rfl
  omega

/-- A segment whose `tcp_len` is its length verifies. -/
theorem verifies_of_tcpLen {frame : Frame} (addresses : Addresses)
    (whole : frame.tcpLen.toNat = (frame.segmentBytes 0).length) : frame.Verifies addresses := by
  have length : BitVec.ofNat 16 (frame.segmentBytes (frame.tcpChecksum addresses)).length =
      frame.tcpLen := by
    rw [length_segmentBytes, ← length_segmentBytes frame 0, ← whole, BitVec.ofNat_toNat,
      BitVec.setWidth_eq]
  have evenHeader : (addresses.pseudoHeader frame.tcpLen).length % 2 = 0 := by
    cases addresses <;> simp [Addresses.pseudoHeader]
  have checked := WireEngine.sameSum_computeChecksum (frame.segmentBytes 0)
    (addresses.pseudoSum frame.tcpLen)
  have sum : frame.tcpChecksum addresses = WireEngine.computeChecksum false
      (frame.segmentBytes 0) (addresses.pseudoSum frame.tcpLen) := by
    rw [Frame.tcpChecksum, whole, List.take_length]
  unfold Frame.Verifies
  rw [verifies_iff, length, total_append evenHeader, total_segmentBytes, sum, ← Nat.add_assoc,
    ← toNat_pseudoSum]
  exact checked

/-! ## The segments of `send` -/

/-- The options take the room that was reckoned for them. -/
theorem length_optionBytes (tcb : Tcb Mbuf) (payloadLen : Nat) (flags : BitVec 8) :
    (tcb.outboundFrame payloadLen flags).options.bytes.length = tcb.optLen flags := by
  have blocks (list : List (BitVec 32 × BitVec 32)) :
      (list.flatMap fun block => networkBytes 4 block.1 ++ networkBytes 4 block.2).length =
        list.length * 8 := by
    induction list with
    | nil => rfl
    | cons block rest ih =>
        rw [List.flatMap_cons, List.length_append, ih, List.length_append, List.length_cons,
          length_networkBytes, length_networkBytes]
        omega
  unfold OutboundOptions.bytes Tcb.optLen Tcb.outboundFrame
  dsimp only
  rw [List.length_append, List.length_append]
  congr 1
  · congr 1
    · split <;> rfl
    · split <;> simp_all
  · cases held : tcb.outboundSack flags with
    | nil => rfl
    | cons block rest =>
        rw [if_neg (List.cons_ne_nil block rest), List.length_append, blocks]
        rfl

theorem verifies_outboundFrame (tcb : Tcb Mbuf) (flags : BitVec 8) {payload : Bytes}
    (short : payload.length ≤ 1460) (addresses : Addresses) :
    Frame.Verifies { tcb.outboundFrame payload.length flags with payload := payload }
      addresses := by
  obtain ⟨bound, whole⟩ := optLen_bounds tcb flags
  apply verifies_of_tcpLen
  have offset := toNat_dataOffset tcb flags
  have options := length_optionBytes tcb payload.length flags
  rw [length_segmentBytes, options, Frame.tcpLen]
  dsimp only [Tcb.outboundFrame]
  rw [BitVec.toNat_ofNat]
  omega

end SlabFlux.Net.Tcp
