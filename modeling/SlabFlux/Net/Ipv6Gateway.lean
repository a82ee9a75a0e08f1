import SlabFlux.Core.Endian
import SlabFlux.Net.Tcp.ControlBlock
import SlabFlux.Net.WireEngine

/-!
# IPv6 frames at the gateway

`on_raw_frame_ipv6` up to the look-up of the connection.  What follows reads the frame only
through the header overlay and the payload, so the outcome of a segment is given with all the
fields that it reads.

A running offset follows the hop-by-hop header, but the overlay stays at byte 54.
-/

namespace SlabFlux.Net.Ipv6Gateway

open Lib SlabFlux.Core Net.Tcp

/-- The bytes of a field. -/
def field (data : Bytes) (offset count : Nat) : Bytes :=
  (data.drop offset).take count

/-- What the gateway reads of a segment and of the headers before it, as on the wire. -/
structure TcpView where
  srcMac : Bytes
  hopLimit : Bytes
  src : Bytes
  dst : Bytes
  srcPort : Bytes
  dstPort : Bytes
  seq : Bytes
  ack : Bytes
  dataOffsetWords : Nat
  flags : BitVec 8
  window : Bytes
  options : Bytes
  payload : Bytes
deriving DecidableEq

/-- Where a frame goes. -/
inductive Verdict where
  | dropped
  | udp (l4Offset : BitVec 32)
  | icmp6 (l4Offset : BitVec 32)
  | tcp (view : TcpView)
deriving DecidableEq

/-- The next header and its offset, after the hop-by-hop header if there is one.  `data` has
signed characters. -/
def nextHeader (data : Bytes) (logicalLen : BitVec 32) : Option (BitVec 8 × BitVec 32) :=
  if data.getD 20 0 = 0 then
    if logicalLen < 54 + 8 then none
    else
      let extLen := ((data.getD 55 0).signExtend 32 + 1) * 8
      if logicalLen < 54 + extLen then none
      else some (data.getD 54 0, 54 + extLen)
  else some (data.getD 20 0, 54)

/-- The sum of the pseudo-header. -/
def pseudoSum (addresses : Bytes) (tcpLen : Nat) : BitVec 32 :=
  WireEngine.addWords addresses 0 + (hostToNetwork16 6).setWidth 32 +
    (hostToNetwork16 (BitVec.ofNat 16 tcpLen)).setWidth 32

/-- Whether the flags are those of no sensible segment. -/
def badFlags (flags : BitVec 8) : Bool :=
  flags &&& (Flag.syn ||| Flag.fin) = Flag.syn ||| Flag.fin ∨
    has flags (Flag.syn ||| Flag.ack ||| Flag.rst) = false

/-- Whether the checksum of a segment fails. -/
def checksumFails (isUnaligned : Bool) (addresses segment : Bytes) : Bool :=
  let tcpCsum := WireEngine.computeChecksum isUnaligned segment
    (pseudoSum addresses segment.length)
  tcpCsum ≠ 0 ∧ tcpCsum ≠ 0xFFFF

/-- The TCP fields, through the overlay. -/
def tcpFields (isUnaligned : Bool) (data : Bytes) (logicalLen : Nat) : Verdict :=
  let dataOffsetWords := (data.getD 66 0 >>> 4).toNat
  let headerSize := 14 + 40 + dataOffsetWords * 4
  let flags := data.getD 67 0
  if dataOffsetWords < 5 then .dropped
  else if logicalLen < headerSize then .dropped
  else if badFlags flags then .dropped
  else if checksumFails isUnaligned (field data 22 32) (field data 54 (logicalLen - 54)) then
    .dropped
  else
    .tcp {
      srcMac := field data 6 6, hopLimit := field data 21 1
      src := field data 22 16, dst := field data 38 16
      srcPort := field data 54 2, dstPort := field data 56 2
      seq := field data 58 4, ack := field data 62 4
      dataOffsetWords, flags, window := field data 68 2
      options := field data 74 ((dataOffsetWords - 5) * 4)
      payload := field data headerSize (logicalLen - headerSize) }

/-- The value of `ipv6_plen`. -/
def payloadLength (data : Bytes) : Nat :=
  (data.getD 18 0).toNat * 256 + (data.getD 19 0).toNat

def onRawFrameIpv6 (isUnaligned : Bool) (data : Bytes) : Verdict :=
  let logicalLen := 14 + 40 + payloadLength data
  if data.length < 74 then .dropped
  else if data.getD 22 0 = 0xFF then .dropped
  else if data.length < logicalLen then .dropped
  else
    match nextHeader data (BitVec.ofNat 32 logicalLen) with
    | none => .dropped
    | some (nxtHdr, l4Offset) =>
        if nxtHdr = 17 then .udp l4Offset
        else if nxtHdr = 58 then .icmp6 l4Offset
        else if nxtHdr ≠ 6 then .dropped
        else if 14 + 40 + 64 < l4Offset then .dropped
        else tcpFields isUnaligned data logicalLen

/-! ## Frames -/

/-- A hop-by-hop header: a length byte counts the groups of eight after the first one. -/
structure Extension where
  length : BitVec 8
  content : Bytes
  length_content : content.length = 6 + 8 * length.toNat

/-- The bytes of the header, with the protocol of what follows. -/
def Extension.bytes (extension : Extension) : Bytes :=
  6 :: extension.length :: extension.content

@[simp] theorem Extension.length_bytes (extension : Extension) :
    extension.bytes.length = 8 + 8 * extension.length.toNat := by
  simp [bytes, extension.length_content]
  omega

/-- The parts of a frame with a TCP segment. -/
structure Frame where
  link : Bytes
  flow : Bytes
  hopLimit : BitVec 8
  src : Bytes
  dst : Bytes
  extension : Option Extension
  segment : Bytes
  padding : Bytes
  length_link : link.length = 14
  length_flow : flow.length = 4
  length_src : src.length = 16
  length_dst : dst.length = 16
  fits : (extension.elim [] Extension.bytes ++ segment).length < 65536

namespace Frame

/-- What follows the fixed header. -/
def body (frame : Frame) : Bytes :=
  frame.extension.elim [] Extension.bytes ++ frame.segment

/-- The first 54 bytes. -/
def header (frame : Frame) : Bytes :=
  frame.link ++ (frame.flow ++
    (BitVec.ofNat 8 (frame.body.length / 256) :: BitVec.ofNat 8 (frame.body.length % 256) ::
      (if frame.extension.isSome then 0 else 6) :: frame.hopLimit :: (frame.src ++ frame.dst)))

/-- The frame on the wire. -/
def encode (frame : Frame) : Bytes := frame.header ++ frame.body ++ frame.padding

/-- The frame with the extension header removed. -/
def withoutExtension (frame : Frame) : Frame :=
  { frame with
    extension := none
    fits := by
      have fits := frame.fits
      rw [List.length_append] at fits
      simp only [Option.elim_none, List.nil_append]
      omega }

/-- What the gateway makes of a frame whose segment is as given. -/
def treat (isUnaligned : Bool) (frame : Frame) (segment : Bytes) : Verdict :=
  let dataOffsetWords := (segment.getD 12 0 >>> 4).toNat
  let flags := segment.getD 13 0
  if segment.length < 20 ∨ frame.src.getD 0 0 = 0xFF ∨ dataOffsetWords < 5 ∨
      segment.length < dataOffsetWords * 4 ∨ badFlags flags ∨
      checksumFails isUnaligned (frame.src ++ frame.dst) segment then .dropped
  else
    .tcp {
      srcMac := field frame.link 6 6, hopLimit := [frame.hopLimit]
      src := frame.src, dst := frame.dst
      srcPort := field segment 0 2, dstPort := field segment 2 2
      seq := field segment 4 4, ack := field segment 8 4
      dataOffsetWords, flags, window := field segment 14 2
      options := field segment 20 (dataOffsetWords * 4 - 20)
      payload := segment.drop (dataOffsetWords * 4) }

variable (isUnaligned : Bool) (frame : Frame)

@[simp] theorem length_header : frame.header.length = 54 := by
  simp [header, frame.length_link, frame.length_flow, frame.length_src, frame.length_dst]

theorem length_encode : frame.encode.length = 54 + frame.body.length + frame.padding.length := by
  simp [encode]
  omega

/-- A byte of the body. -/
theorem getD_encode_of_body (index : Nat) (inside : index < frame.body.length) :
    frame.encode.getD (54 + index) 0 = frame.body.getD index 0 := by
  rw [encode, List.append_assoc, List.getD_append_right _ _ _ _ (by simp)]
  simp only [length_header, Nat.add_sub_cancel_left]
  exact List.getD_append _ _ _ _ inside

theorem field_encode_of_body (offset count : Nat) (inside : offset + count ≤ frame.body.length) :
    field frame.encode (54 + offset) count = field frame.body offset count := by
  rw [field, encode, List.append_assoc, List.drop_append, length_header,
    Nat.add_sub_cancel_left, List.drop_eq_nil_of_le (by simp), List.nil_append,
    List.drop_append_of_le_length (by omega),
    List.take_append_of_le_length (by rw [List.length_drop]; omega)]
  rfl

theorem payloadLength_encode : payloadLength frame.encode = frame.body.length := by
  have fits : frame.body.length < 65536 := frame.fits
  simp [payloadLength, encode, header, List.getD_eq_getElem?_getD, List.getElem?_append,
    frame.length_link, frame.length_flow]
  omega

theorem getD_encode_twenty : frame.encode.getD 20 0 = if frame.extension.isSome then 0 else 6 := by
  simp [encode, header, List.getD_eq_getElem?_getD, List.getElem?_append, frame.length_link,
    frame.length_flow]

theorem getD_encode_source : frame.encode.getD 22 0 = frame.src.getD 0 0 := by
  simp [encode, header, List.getD_eq_getElem?_getD, List.getElem?_append, frame.length_link,
    frame.length_flow, frame.length_src]

theorem field_encode_of_header :
    field frame.encode 6 6 = field frame.link 6 6 ∧ field frame.encode 21 1 = [frame.hopLimit] ∧
      field frame.encode 22 16 = frame.src ∧ field frame.encode 38 16 = frame.dst ∧
      field frame.encode 22 32 = frame.src ++ frame.dst := by
  have link {index : Nat} (beyond : 14 ≤ index) : frame.link.drop index = [] :=
    List.drop_eq_nil_of_le (frame.length_link ▸ beyond)
  have flow {index : Nat} (beyond : 4 ≤ index) : frame.flow.drop index = [] :=
    List.drop_eq_nil_of_le (frame.length_flow ▸ beyond)
  have src : frame.src.take 32 = frame.src := List.take_of_length_le (by simp [frame.length_src])
  simp [field, encode, header, List.drop_append, List.take_append, frame.length_link,
    frame.length_flow, frame.length_src, frame.length_dst, link, flow, src]

/-- The overlay takes the body for the segment. -/
theorem tcpFields_encode (unicast : frame.src.getD 0 0 ≠ 0xFF) :
    tcpFields isUnaligned frame.encode (54 + frame.body.length) =
      frame.treat isUnaligned frame.body := by
  unfold tcpFields treat
  by_cases short : frame.body.length < 20
  · conv_rhs => rw [if_pos (.inl short)]
    by_cases small : (frame.encode.getD 66 0 >>> 4).toNat < 5
    · rw [if_pos small]
    · rw [if_neg small, if_pos (by omega)]
  · obtain ⟨mac, hops, source, destination, addresses⟩ := frame.field_encode_of_header
    have offset : frame.encode.getD 66 0 = frame.body.getD 12 0 :=
      frame.getD_encode_of_body 12 (by omega)
    have flags : frame.encode.getD 67 0 = frame.body.getD 13 0 :=
      frame.getD_encode_of_body 13 (by omega)
    have whole : field frame.encode 54 (54 + frame.body.length - 54) = frame.body := by
      rw [Nat.add_sub_cancel_left, frame.field_encode_of_body 0 _ (by omega), field,
        List.drop_zero, List.take_length]
    rw [offset, flags, mac, addresses, whole]
    generalize (frame.body.getD 12 0 >>> 4).toNat = words
    by_cases small : words < 5
    · rw [if_pos small, if_pos (.inr (.inr (.inl small)))]
    by_cases long : frame.body.length < words * 4
    · rw [if_neg small, if_pos (by omega), if_pos (.inr (.inr (.inr (.inl long))))]
    by_cases bad : badFlags (frame.body.getD 13 0)
    · rw [if_neg small, if_neg (by omega), if_pos bad,
        if_pos (.inr (.inr (.inr (.inr (.inl bad)))))]
    by_cases fails : checksumFails isUnaligned (frame.src ++ frame.dst) frame.body
    · rw [if_neg small, if_neg (by omega), if_neg bad, if_pos fails,
        if_pos (.inr (.inr (.inr (.inr (.inr fails)))))]
    have accepted := not_or.mpr ⟨short, not_or.mpr ⟨unicast, not_or.mpr ⟨small,
      not_or.mpr ⟨long, not_or.mpr ⟨bad, fails⟩⟩⟩⟩⟩
    rw [if_neg small, if_neg (by omega), if_neg bad, if_neg fails, if_neg accepted]
    have payload : field frame.encode (14 + 40 + words * 4)
        (54 + frame.body.length - (14 + 40 + words * 4)) = frame.body.drop (words * 4) := by
      rw [Nat.add_comm 14, frame.field_encode_of_body _ _ (by omega), field,
        List.take_of_length_le (by rw [List.length_drop]; omega)]
    have options : field frame.encode 74 ((words - 5) * 4) =
        field frame.body 20 (words * 4 - 20) := by
      rw [show (words - 5) * 4 = words * 4 - 20 by omega]
      exact frame.field_encode_of_body 20 _ (by omega)
    congr 2
    · exact frame.field_encode_of_body 0 2 (by omega)
    · exact frame.field_encode_of_body 2 2 (by omega)
    · exact frame.field_encode_of_body 4 4 (by omega)
    · exact frame.field_encode_of_body 8 4 (by omega)
    · exact frame.field_encode_of_body 14 2 (by omega)

theorem nextHeader_encode_of_none (none : frame.extension = none) (logicalLen : BitVec 32) :
    nextHeader frame.encode logicalLen = some (6, 54) := by
  rw [nextHeader, frame.getD_encode_twenty, none]
  rfl

/-- The offset after the extension header, as the gateway computes it. -/
def offsetAfter (length : BitVec 8) : BitVec 32 := 54 + (length.signExtend 32 + 1) * 8

variable {extension : Extension}

theorem nextHeader_encode_of_some (here : frame.extension = some extension)
    (logicalLen : BitVec 32) :
    nextHeader frame.encode logicalLen = if logicalLen < 62 then none
      else if logicalLen < offsetAfter extension.length then none
      else some (6, offsetAfter extension.length) := by
  have body : frame.body = extension.bytes ++ frame.segment := by rw [Frame.body, here]; rfl
  have long : 2 ≤ frame.body.length := by
    rw [body, List.length_append, extension.length_bytes]
    omega
  have protocol : frame.encode.getD 54 0 = 6 := by
    rw [frame.getD_encode_of_body 0 (by omega), body]
    rfl
  have length : frame.encode.getD 55 0 = extension.length := by
    rw [frame.getD_encode_of_body 1 (by omega), body]
    rfl
  rw [nextHeader, frame.getD_encode_twenty, here, protocol, length]
  rfl

/-- Where the next header is TCP and not too far, the body is taken for the segment. -/
theorem onRawFrameIpv6_of_near (l4Offset : BitVec 32) (near : l4Offset ≤ 118)
    (found : nextHeader frame.encode (BitVec.ofNat 32 (54 + frame.body.length)) =
      some (6, l4Offset)) :
    onRawFrameIpv6 isUnaligned frame.encode = frame.treat isUnaligned frame.body := by
  have length := frame.length_encode
  rw [onRawFrameIpv6, frame.payloadLength_encode, frame.getD_encode_source]
  by_cases short : frame.encode.length < 74
  · rw [if_pos short, treat, if_pos (.inl (by omega))]
  by_cases multicast : frame.src.getD 0 0 = 0xFF
  · rw [if_neg short, if_pos multicast, treat, if_pos (.inr (.inl multicast))]
  rw [if_neg short, if_neg multicast, if_neg (by omega), found]
  exact (if_neg (BitVec.not_lt.mpr near)).trans (frame.tcpFields_encode isUnaligned multicast)

/-- Where it is too far, the frame is dropped. -/
theorem onRawFrameIpv6_of_far (here : frame.extension = some extension)
    (far : 118 < offsetAfter extension.length) :
    onRawFrameIpv6 isUnaligned frame.encode = .dropped := by
  rw [onRawFrameIpv6, frame.nextHeader_encode_of_some here]
  split_ifs
  · rfl
  · rfl
  · rfl
  · rfl
  · rfl
  · exact if_pos far

theorem offsetAfter_of_short {length : BitVec 8} (short : length ≤ 7) :
    (offsetAfter length).toNat = 62 + 8 * length.toNat := by
  revert length
  decide

/-- Behind a short extension header, the overlay takes that header for the segment. -/
theorem onRawFrameIpv6_of_short (here : frame.extension = some extension)
    (short : extension.length ≤ 7) :
    onRawFrameIpv6 isUnaligned frame.encode =
      frame.treat isUnaligned (extension.bytes ++ frame.segment) := by
  have offset := offsetAfter_of_short short
  have small : extension.length.toNat ≤ 7 := short
  have body : frame.body = extension.bytes ++ frame.segment := by rw [Frame.body, here]; rfl
  have fits : frame.body.length < 65536 := frame.fits
  have long : 8 + 8 * extension.length.toNat ≤ frame.body.length := by
    rw [body, List.length_append, extension.length_bytes]
    omega
  have length : (BitVec.ofNat 32 (54 + frame.body.length)).toNat = 54 + frame.body.length := by
    rw [BitVec.toNat_ofNat]
    omega
  rw [← body]
  apply frame.onRawFrameIpv6_of_near isUnaligned (offsetAfter extension.length)
  · rw [BitVec.le_def, offset]
    change 62 + 8 * extension.length.toNat ≤ 118
    omega
  · rw [frame.nextHeader_encode_of_some here, if_neg, if_neg]
    · rw [BitVec.lt_def]
      omega
    · rw [BitVec.lt_def, length]
      change ¬54 + frame.body.length < 62
      omega

theorem offsetAfter_of_long {length : BitVec 8} (long : 8 ≤ length) (below : length ≤ 248) :
    118 < offsetAfter length := by
  revert length
  decide

end Frame

/-- A frame without an extension header is treated as its segment says; behind a hop-by-hop header
of more than 64 bytes, TCP is not looked for. -/
theorem onRawFrameIpv6_segments (isUnaligned : Bool) (frame : Frame) :
    (frame.extension = none →
      onRawFrameIpv6 isUnaligned frame.encode = frame.treat isUnaligned frame.segment) ∧
    ∀ extension, frame.extension = some extension → 64 < extension.bytes.length →
      extension.length ≤ 248 → onRawFrameIpv6 isUnaligned frame.encode = .dropped := by
  constructor
  · intro none
    have body : frame.body = frame.segment := by rw [Frame.body, none]; rfl
    rw [← body]
    exact frame.onRawFrameIpv6_of_near isUnaligned 54 (by decide)
      (frame.nextHeader_encode_of_none none _)
  · intro extension here long below
    have eight : 8 ≤ extension.length := by
      rw [extension.length_bytes] at long
      change 8 ≤ extension.length.toNat
      omega
    exact frame.onRawFrameIpv6_of_far isUnaligned here (Frame.offsetAfter_of_long eight below)

/-- A connection request behind a hop-by-hop header of 72 bytes. -/
def farFrame : Frame where
  link := .replicate 14 0
  flow := .replicate 4 0
  hopLimit := 64
  src := .replicate 16 1
  dst := .replicate 16 2
  extension := some ⟨8, .replicate 70 0, rfl⟩
  segment := [0, 1, 0, 2, 0, 0, 0, 0, 0, 0, 0, 0, 0x50, 2, 0, 0, 0x97, 0xC8, 0, 0]
  padding := []
  length_link := rfl
  length_flow := rfl
  length_src := rfl
  length_dst := rfl
  fits := by decide

theorem onRawFrameIpv6_of_short_eight :
    let header : Extension := ⟨0, .replicate 6 0, rfl⟩
    let near := { farFrame with extension := some header, fits := by decide }
    onRawFrameIpv6 false near.encode = near.treat false (header.bytes ++ near.segment) :=
  Frame.onRawFrameIpv6_of_short _ _ rfl (by decide : (0 : BitVec 8) ≤ 7)

/-- The request is dropped, and without the extension header it is not. -/
theorem not_treated_far :
    onRawFrameIpv6 false farFrame.encode ≠
      onRawFrameIpv6 false farFrame.withoutExtension.encode := by
  decide +kernel

end SlabFlux.Net.Ipv6Gateway
