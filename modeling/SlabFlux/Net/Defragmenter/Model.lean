import SlabFlux.Core.Endian
import SlabFlux.Lib.Memory
import SlabFlux.Net.OooMatrix.Mask

/-!
# The IPv4 defragmenter

`ip_spatial_defragmenter::process_fragment` with its reassembly slots.  A frame is the
memory a `raw_tcp_ipv4_frame*` points to: the Ethernet header takes the first 14 bytes,
the IPv4 header follows, and the words of a header are kept in network order.  The
overlap test and the marking of the presence mask are the same word-level code as in
the out-of-order matrix.
-/

namespace SlabFlux.Net.Defragmenter

open SlabFlux.Core Lib
open Net.OooMatrix (Mask)

/-- What the code is compiled and run with: the hardware CRC32 of a 64-bit word, the
header checksum, and the template parameter `Capacity`, a power of two. -/
structure Platform where
  crc32 : BitVec 64 → BitVec 32
  computeChecksum : Bytes → BitVec 16
  exponent : Nat
  atLeastEight : 3 ≤ exponent

def Platform.capacity (platform : Platform) : Nat := 2 ^ platform.exponent

section

variable (frame : Memory)

/-! ## Header fields -/

/-- `ip_ihl_ver`. -/
def ihlVer : BitVec 8 := frame 14

/-- `ip_len`, as stored. -/
def ipLen : BitVec 16 := frame.load 16 2 16

/-- `ip_id`, as stored. -/
def ipId : BitVec 16 := frame.load 16 2 18

/-- `ip_frag_offset`, as stored. -/
def ipFragOffset : BitVec 16 := frame.load 16 2 20

def ipProtocol : BitVec 8 := frame 23

/-- `ip_src`, as stored. -/
def ipSrc : BitVec 32 := frame.load 32 4 26

/-- `ip_dst`, as stored. -/
def ipDst : BitVec 32 := frame.load 32 4 30

def headerLen : BitVec 16 := (ihlVer frame &&& 0x0F).setWidth 16 * 4

def ipLenHost : BitVec 16 := networkToHost16 (ipLen frame)

def fragOffsetVal : BitVec 16 := networkToHost16 (ipFragOffset frame)

def moreFragments : Bool := fragOffsetVal frame &&& 0x2000 ≠ 0

def offsetBytes : BitVec 16 := (fragOffsetVal frame &&& 0x1FFF) * 8

def payloadLen : BitVec 16 := ipLenHost frame - headerLen frame

/-- One call's arguments. -/
structure Fragment where
  frame : Memory
  physicalLength : BitVec 64
  now : BitVec 64

/-- The end of the fragment's payload in its datagram. -/
def endBytes : Nat :=
  (offsetBytes frame).toNat + (payloadLen frame).toNat

/-- The checks of a fragment's lengths. -/
def Fragment.lengthsValid (fragment : Fragment) : Bool :=
  !decide (ipLenHost fragment.frame < headerLen fragment.frame) &&
    !decide (fragment.physicalLength - 14 < (ipLenHost fragment.frame).setWidth 64) &&
    !decide (65535 < endBytes fragment.frame) &&
    payloadLen fragment.frame != 0

/-! ## Slots -/

/-- `ip_reassembly_slot`. -/
structure Slot where
  srcIp : BitVec 32
  dstIp : BitVec 32
  ipId : BitVec 16
  protocol : BitVec 8
  active : Bool
  totalExpectedLength : BitVec 16
  currentBytesReceived : BitVec 16
  highestByteReceived : BitVec 32
  firstActiveTs : BitVec 64
  presenceMask : Mask
  buffer : Memory

namespace Slot

variable (slot : Slot) (fragment : Fragment)

/-- A slot whose bytes up to `buffer` are zero. -/
def zeroed (buffer : Memory) : Slot where
  srcIp := 0
  dstIp := 0
  ipId := 0
  protocol := 0
  active := false
  totalExpectedLength := 0
  currentBytesReceived := 0
  highestByteReceived := 0
  firstActiveTs := 0
  presenceMask := fun _ => 0
  buffer := buffer

/-- The test that a slot belongs to the fragment's datagram. -/
def isMatch : Bool :=
  slot.active && slot.srcIp == ipSrc fragment.frame && slot.ipId == Defragmenter.ipId fragment.frame

/-- The test that a slot can be taken over: unused, or older than 30 seconds. -/
def isClaimable : Bool :=
  !slot.active || decide (30000 < fragment.now - slot.firstActiveTs)

/-- Taking a slot over; its buffer keeps what it held. -/
def claim : Slot :=
  { zeroed slot.buffer with
    srcIp := ipSrc fragment.frame
    dstIp := ipDst fragment.frame
    ipId := Defragmenter.ipId fragment.frame
    protocol := ipProtocol fragment.frame
    active := true
    firstActiveTs := fragment.now
    highestByteReceived := 0 }

/-- Recording an accepted fragment: the mask, the bytes and the counters. -/
def record (slot : Slot) (frame : Memory) : Slot :=
  let offset := (offsetBytes frame).toNat
  let length := (payloadLen frame).toNat
  { slot with
    presenceMask := slot.presenceMask.mark offset length
    buffer := slot.buffer.copy offset frame (14 + (headerLen frame).toNat) length
    currentBytesReceived := slot.currentBytesReceived + payloadLen frame
    highestByteReceived :=
      if slot.highestByteReceived.toNat < endBytes frame then BitVec.ofNat 32 (endBytes frame)
      else slot.highestByteReceived
    totalExpectedLength :=
      if moreFragments frame then slot.totalExpectedLength
      else BitVec.ofNat 16 (endBytes frame) }

/-- The middle of `process_fragment`: the slot with the fragment in it, unless one of
the checks drops the fragment. -/
def accept : Option Slot :=
  if fragment.lengthsValid && !slot.presenceMask.overlaps (offsetBytes fragment.frame).toNat
        (payloadLen fragment.frame).toNat then
    some (slot.record fragment.frame)
  else none

/-- The reassembly trigger. -/
def isComplete : Bool :=
  decide (0 < slot.totalExpectedLength) && slot.currentBytesReceived == slot.totalExpectedLength &&
    slot.highestByteReceived == slot.totalExpectedLength.setWidth 32

end Slot

end

/-! ## The defragmenter -/

variable (platform : Platform) (frame : Memory)

/-- `ip_spatial_defragmenter`, and the thread's `reassembled_frame`. -/
structure SpatialDefragmenter where
  slots : Nat → Slot
  reassembledFrame : Memory

/-- The slots with one of them written. -/
def setSlot (slots : Nat → Slot) (index : Nat) (slot : Slot) : Nat → Slot :=
  fun other => if other = index then slot else slots other

/-- A returned frame: the memory the returned pointer points to, and how many payload
bytes were copied into it. -/
structure Reassembled where
  frame : Memory
  length : Nat

/-- The word that is hashed. -/
def mix : BitVec 64 :=
  (((ipSrc frame).setWidth 64 <<< 32) ||| (ipDst frame).setWidth 64) ^^^
    (((ipId frame).setWidth 64 <<< 16) ||| (ipProtocol frame).setWidth 64)

def hash : Nat :=
  (platform.crc32 (mix frame)).toNat &&& (platform.capacity - 1)

/-- `idx` at a step of the probe. -/
def probe (step : Nat) : Nat :=
  ((hash platform frame + step) &&& (platform.capacity - 1)) % 2 ^ 32

/-- The frame that is handed on when a slot is complete. -/
def reassemble (scratch : Memory) (slot : Slot) (frame : Memory) : Memory :=
  let header := (headerLen frame).toNat
  let total := slot.totalExpectedLength
  let scratch := scratch.copy 0 frame 0 (14 + header)
  let scratch := scratch.copy (14 + header) slot.buffer 0 total.toNat
  let scratch := scratch.store 2 16 (hostToNetwork16 (headerLen frame + total))
  let scratch := scratch.store 2 20 (0 : BitVec 16)
  let scratch := scratch.store 2 24 (0 : BitVec 16)
  scratch.store 2 24 (platform.computeChecksum (scratch.bytes 14 header))

namespace SpatialDefragmenter

variable (state : SpatialDefragmenter) (fragment : Fragment)

/-- The constructor. -/
def initial (scratch : Memory) : SpatialDefragmenter where
  slots := fun _ => .zeroed fun _ => 0
  reassembledFrame := scratch

/-- One iteration of the probe: a slot that matches is taken as it is, one that can be
claimed is claimed. -/
def inspect (step : Nat) : Option (Nat × Slot) :=
  let index := probe platform fragment.frame step
  let slot := state.slots index
  if slot.isMatch fragment then some (index, slot)
  else if slot.isClaimable fragment then some (index, slot.claim fragment)
  else none

/-- The probe for a slot: its index, and the slot as the probe leaves it. -/
def lookup : Option (Nat × Slot) :=
  (List.range 8).findSome? (state.inspect platform fragment)

def processFragment (platform : Platform) (state : SpatialDefragmenter) (fragment : Fragment) :
    SpatialDefragmenter × Option Reassembled :=
  match state.lookup platform fragment with
  | none => (state, none)
  | some (index, slot) =>
      match slot.accept fragment with
      | none => ({ state with slots := setSlot state.slots index slot }, none)
      | some slot =>
          if slot.isComplete then
            let frame := reassemble platform state.reassembledFrame slot fragment.frame
            ({ slots := setSlot state.slots index { slot with active := false }
               reassembledFrame := frame },
              some { frame := frame, length := slot.totalExpectedLength.toNat })
          else ({ state with slots := setSlot state.slots index slot }, none)

end SpatialDefragmenter

/-! ## Runs -/

/-- A defragmenter with the history of its calls. -/
structure System where
  defragmenter : SpatialDefragmenter
  fed : List Fragment
  results : List (Option Reassembled)

namespace System

/-- Before the first call. -/
def initial (scratch : Memory) : System where
  defragmenter := .initial scratch
  fed := []
  results := []

/-- One call. -/
def step (state : System) (fragment : Fragment) : System :=
  let outcome := state.defragmenter.processFragment platform fragment
  { defragmenter := outcome.1
    fed := state.fed ++ [fragment]
    results := state.results ++ [outcome.2] }

end System

end SlabFlux.Net.Defragmenter
