import SlabFlux.Core.Endian
import SlabFlux.Lib.Memory
import SlabFlux.Lib.Trace
import SlabFlux.Net.OooMatrix.Mask

/-!
# The IPv6 defragmenter

`ip_spatial_defragmenter_ipv6::process_fragment`, with every access to the frame, to the slots
and their arrays and to the reassembly buffer.  A frame is the memory the header pointer points
to, with the number of bytes that belong to it; what stands behind them is read like anything
else, and the access shows it.
-/

namespace SlabFlux.Net.Ipv6Defragmenter

open SlabFlux.Core Lib
open Lib.Trace (readAt writeAt)
open Net.OooMatrix (Mask lowOnes allOnes)

/-! ## Accesses -/

/-- What is read and written.  The slots are counted in slots, a mask in words, and the rest in
bytes. -/
inductive Region where
  | frame | slots | mask | buffer | originalHeader | reassembled
  deriving DecidableEq

/-- A frame of `physical_length` bytes. -/
structure Frame where
  memory : Memory
  physicalLength : Nat
  atLeast : 54 ≤ physicalLength

/-- `MaxConcurrentFrags`. -/
structure Config where
  maxConcurrentFrags : Nat
  positive : 0 < maxConcurrentFrags

/-- How large each region is. -/
def size (config : Config) (frame : Frame) : Region → Nat
  | .frame => frame.physicalLength
  | .slots => config.maxConcurrentFrags
  | .mask => 1024
  | .buffer => 65536
  | .originalHeader => 128
  | .reassembled => 65536 + 128

/-- Where the function may write: everywhere but into the frame. -/
def writable (region : Region) : Bool := region ≠ .frame

/-! ## Slots -/

/-- `frag_entry`. -/
structure Slot where
  srcIp : BitVec 64 × BitVec 64
  dstIp : BitVec 64 × BitVec 64
  fragId : BitVec 32
  active : Bool
  totalExpectedLength : BitVec 32
  currentBytesReceived : BitVec 32
  highestByteReceived : BitVec 32
  firstActiveTs : BitVec 64
  presenceMask : Mask
  buffer : Memory
  headerLen : BitVec 32
  nextHeader : BitVec 8
  originalHeader : Memory

/-- The slots, and the thread's `reassembled`. -/
structure Defragmenter where
  slots : Nat → Slot
  reassembled : Memory

/-- What the function ends with, other than a reassembled frame: `nullptr`, with the state it
leaves, or a number of steps that was not enough. -/
inductive Halt where
  | unfinished
  | null (after : Defragmenter)

/-- A part of the function. -/
abbrev Run (Value : Type) := Trace (Access Region) Halt Value

/-! ## Header fields -/

variable (frame : Frame)

namespace Frame

/-- `hdr->ipv6_src`. -/
def ipv6Src : BitVec 64 × BitVec 64 :=
  (frame.memory.load 64 8 22, frame.memory.load 64 8 30)

/-- `hdr->ipv6_dst`. -/
def ipv6Dst : BitVec 64 × BitVec 64 :=
  (frame.memory.load 64 8 38, frame.memory.load 64 8 46)

def ipv6Plen : BitVec 16 := networkToHost16 (frame.memory.load 16 2 18)

end Frame

/-- A header in the chain of extension headers: `l4_offset` and `nxt_hdr`. -/
structure Header where
  l4Offset : BitVec 32
  nxtHdr : BitVec 8
  deriving DecidableEq

namespace Header

variable (header : Header)

/-- The loop over the headers ends at TCP, UDP and "no next header". -/
def isLast : Bool :=
  header.nxtHdr = 6 ∨ header.nxtHdr = 17 ∨ header.nxtHdr = 59

/-- The fragment header. -/
def isFragment : Bool := header.nxtHdr = 44

/-- The check that a header lies in the frame, with the sum at 32 bits. -/
def beyond : Bool :=
  frame.physicalLength < (header.l4Offset + 8).toNat

/-- The header that follows an extension header.  The length byte is a signed `char`. -/
def following : Header where
  l4Offset := header.l4Offset + ((frame.memory (header.l4Offset + 1).toNat).signExtend 32 + 1) * 8
  nxtHdr := frame.memory header.l4Offset.toNat

/-- `nxt_hdr` and `l4_offset` before the loop. -/
def first : Header := ⟨54, frame.memory 20⟩

end Header

/-- The loop over the headers, up to the fragment header. -/
def walk (frame : Frame) (state : Defragmenter) : Nat → Header → Run (BitVec 32)
  | 0, _ => .stop .unfinished
  | fuel + 1, header =>
      if header.isLast then .stop (.null state)
      else if header.beyond frame then .stop (.null state)
      else if header.isFragment then do
        readAt .frame (header.l4Offset.toNat + 2) 2
        readAt .frame (header.l4Offset.toNat + 4) 4
        pure header.l4Offset
      else do
        readAt .frame header.l4Offset.toNat 1
        readAt .frame (header.l4Offset + 1).toNat 1
        walk frame state fuel (header.following frame)

/-- A fragment, that is, a frame with the place of its fragment header. -/
structure Fragment where
  frame : Frame
  l4Offset : BitVec 32

namespace Fragment

variable (config : Config) (fragment : Fragment)

def fragOffsetVal : BitVec 32 :=
  (networkToHost16 (fragment.frame.memory.load 16 2 (fragment.l4Offset.toNat + 2))).setWidth 32

def moreFragments : Bool := fragment.fragOffsetVal &&& 1 ≠ 0

def fragId : BitVec 32 :=
  networkToHost32 (fragment.frame.memory.load 32 4 (fragment.l4Offset.toNat + 4))

def unfragNxtHdr : BitVec 8 :=
  fragment.frame.memory fragment.l4Offset.toNat

def offsetBytes : BitVec 32 := fragment.fragOffsetVal &&& 0xFFF8

def headerLen : BitVec 32 := fragment.l4Offset + 8

def payloadLen : BitVec 32 :=
  14 + 40 + fragment.frame.ipv6Plen.setWidth 32 - fragment.headerLen

/-- The sum of offset and payload, at 32 bits. -/
def endBytes : BitVec 32 := fragment.offsetBytes + fragment.payloadLen

/-- The checks of the lengths. -/
def lengthsValid : Bool :=
  ¬(fragment.frame.physicalLength < 14 + 40 + fragment.frame.ipv6Plen.toNat) ∧
    ¬(fragment.payloadLen = 0 ∨ 65535 < fragment.endBytes.toNat)

def mix : BitVec 64 :=
  fragment.frame.ipv6Src.1 ^^^ fragment.frame.ipv6Src.2 ^^^ fragment.frame.ipv6Dst.1 ^^^
    fragment.frame.ipv6Dst.2 ^^^ fragment.fragId.setWidth 64

def hash : Nat :=
  ((fragment.mix ^^^ (fragment.mix >>> 32)).setWidth 32).toNat &&& (config.maxConcurrentFrags - 1)

/-- `idx` at a step of the probe. -/
def probe (step : Nat) : Nat :=
  ((fragment.hash config + step) &&& (config.maxConcurrentFrags - 1)) % 2 ^ 32

end Fragment

/-! ## Finding a slot -/

namespace Slot

variable (slot : Slot) (fragment : Fragment) (now : BitVec 64)

/-- The test that a slot belongs to the fragment's datagram. -/
def isMatch : Bool :=
  slot.active ∧ slot.fragId = fragment.fragId ∧ slot.srcIp = fragment.frame.ipv6Src ∧
    slot.dstIp = fragment.frame.ipv6Dst

/-- The test that a slot can be taken over: unused, or older than 30 seconds. -/
def isClaimable : Bool :=
  ¬slot.active ∨ 30000 < now - slot.firstActiveTs

/-- How much of the frame is saved with a slot. -/
def savedCount : Nat := min fragment.l4Offset.toNat 128

/-- Taking a slot over; its buffer keeps what it held. -/
def claim : Slot where
  srcIp := fragment.frame.ipv6Src
  dstIp := fragment.frame.ipv6Dst
  fragId := fragment.fragId
  active := true
  totalExpectedLength := 0
  currentBytesReceived := 0
  highestByteReceived := 0
  firstActiveTs := now
  presenceMask := fun _ => 0
  buffer := slot.buffer
  headerLen := fragment.l4Offset
  nextHeader := fragment.unfragNxtHdr
  originalHeader := slot.originalHeader.copy 0 fragment.frame.memory 0 (savedCount fragment)

end Slot

/-- The probe for a slot, over the steps that are left. -/
def findSlot (config : Config) (state : Defragmenter) (fragment : Fragment) (now : BitVec 64) :
    List Nat → Run (Nat × Slot)
  | [] => .stop (.null state)
  | step :: steps => do
      let index := fragment.probe config step
      readAt .slots index 1
      if (state.slots index).isMatch fragment then pure (index, state.slots index)
      else if (state.slots index).isClaimable now then do
        readAt .frame 0 (Slot.savedCount fragment)
        writeAt .originalHeader 0 (Slot.savedCount fragment)
        pure (index, (state.slots index).claim fragment now)
      else findSlot config state fragment now steps

/-! ## The presence mask -/

/-- A word of the mask is checked for bits, which are then set. -/
def setWord (drop : Mask → Halt) (mask : Mask) (word : Nat) (bits : BitVec 64) : Run Mask := do
  readAt .mask word 1
  if mask word &&& bits ≠ 0 then .stop (drop mask)
  else do
    writeAt .mask word 1
    pure (Function.update mask word (mask word ||| bits))

/-- The words that lie inside the range. -/
def fillWords (drop : Mask → Halt) : Mask → List Nat → Run Mask
  | mask, [] => pure mask
  | mask, word :: words => do
      readAt .mask word 1
      if mask word ≠ 0 then .stop (drop mask)
      else do
        writeAt .mask word 1
        fillWords drop (Function.update mask word allOnes) words

/-- The mask of a range inside one word.  A shift takes its count modulo 64. -/
def inWord (startBit : Nat) (payloadLen : BitVec 32) : BitVec 64 :=
  if payloadLen = 64 then allOnes else lowOnes (payloadLen.toNat % 64) <<< startBit

/-- The single pass that checks and sets.  A fragment that overlaps is dropped with the mask as
it is by then. -/
def checkAndSet (drop : Mask → Halt) (mask : Mask) (fragment : Fragment) : Run Mask :=
  let startWord := fragment.offsetBytes.toNat / 64
  let endWord := fragment.endBytes.toNat / 64
  let startBit := fragment.offsetBytes.toNat % 64
  let endBit := fragment.endBytes.toNat % 64
  if startWord = endWord then setWord drop mask startWord (inWord startBit fragment.payloadLen)
  else do
    let mask ← setWord drop mask startWord (allOnes <<< startBit)
    let mask ← fillWords drop mask (List.range' (startWord + 1) (endWord - (startWord + 1)))
    if 0 < endBit then setWord drop mask endWord (lowOnes endBit) else pure mask

/-! ## The function -/

namespace Slot

variable (slot : Slot) (fragment : Fragment)

/-- Recording a fragment: the bytes and the counters. -/
def record (mask : Mask) : Slot :=
  { slot with
    presenceMask := mask
    buffer := slot.buffer.copy fragment.offsetBytes.toNat fragment.frame.memory
      fragment.headerLen.toNat fragment.payloadLen.toNat
    currentBytesReceived := slot.currentBytesReceived + fragment.payloadLen
    highestByteReceived :=
      if slot.highestByteReceived < fragment.endBytes then fragment.endBytes
      else slot.highestByteReceived
    totalExpectedLength :=
      if fragment.moreFragments then slot.totalExpectedLength else fragment.endBytes }

/-- The reassembly trigger. -/
def isComplete : Bool :=
  0 < slot.totalExpectedLength ∧ slot.currentBytesReceived = slot.totalExpectedLength ∧
    slot.highestByteReceived = slot.totalExpectedLength

/-- Where the next header is written: into the IPv6 header, or eight bytes before the end of
what was saved. -/
def nextHeaderPlace : Nat :=
  if slot.headerLen = 54 then 20 else (slot.headerLen - 8).toNat

/-- The frame that is handed on. -/
def reassemble (scratch : Memory) : Memory :=
  let scratch := scratch.copy 0 slot.originalHeader 0 slot.headerLen.toNat
  let scratch := scratch.copy slot.headerLen.toNat slot.buffer 0 slot.totalExpectedLength.toNat
  let scratch := scratch.store 2 18
    (hostToNetwork16 ((slot.headerLen - 54 + slot.totalExpectedLength).setWidth 16))
  scratch.store 1 slot.nextHeaderPlace slot.nextHeader

end Slot

namespace Defragmenter

def setSlot (state : Defragmenter) (index : Nat) (slot : Slot) : Defragmenter :=
  { state with slots := Function.update state.slots index slot }

/-- What is left of a fragment that overlaps: the slot with the mask as it is by then. -/
def dropped (state : Defragmenter) (index : Nat) (slot : Slot) (mask : Mask) : Halt :=
  .null (state.setSlot index { slot with presenceMask := mask })

end Defragmenter

/-- The end of the function, when a slot is complete. -/
def reassembleSlot (state : Defragmenter) (index : Nat) (slot : Slot) :
    Run (Defragmenter × Memory) := do
  readAt .originalHeader 0 slot.headerLen.toNat
  writeAt .reassembled 0 slot.headerLen.toNat
  readAt .buffer 0 slot.totalExpectedLength.toNat
  writeAt .reassembled slot.headerLen.toNat slot.totalExpectedLength.toNat
  writeAt .reassembled 18 2
  writeAt .reassembled slot.nextHeaderPlace 1
  let frame := slot.reassemble state.reassembled
  pure ({ state.setSlot index { slot with active := false } with reassembled := frame }, frame)

variable (config : Config) (state : Defragmenter) (fragment : Fragment) (now : BitVec 64)

/-- What is done with a fragment whose slot is found. -/
def storeFragment (index : Nat) (slot : Slot) : Run (Defragmenter × Memory) := do
  let mask ← checkAndSet (state.dropped index slot) slot.presenceMask fragment
  readAt .frame fragment.headerLen.toNat fragment.payloadLen.toNat
  writeAt .buffer fragment.offsetBytes.toNat fragment.payloadLen.toNat
  let slot := slot.record fragment mask
  if slot.isComplete then reassembleSlot state index slot
  else .stop (.null (state.setSlot index slot))

/-- What is done with a fragment. -/
def takeFragment : Run (Defragmenter × Memory) := do
  readAt .frame fragment.l4Offset.toNat 1
  readAt .frame 18 2
  if fragment.lengthsValid then do
    readAt .frame 22 32
    let found ← findSlot config state fragment now (List.range 8)
    storeFragment state fragment found.1 found.2
  else .stop (.null state)

/-- `process_fragment`, with so many steps of its first loop. -/
def processFragment (frame : Frame) (now : BitVec 64) (fuel : Nat) :
    Run (Defragmenter × Memory) := do
  readAt .frame 20 1
  let l4Offset ← walk frame state fuel (.first frame)
  takeFragment config state ⟨frame, l4Offset⟩ now

end SlabFlux.Net.Ipv6Defragmenter
