import SlabFlux.Core.Endian
import SlabFlux.Lib.Memory
import SlabFlux.Lib.Trace

/-!
# QUIC ingress

`quic_engine::process_inbound_quic`, with every access to the datagram and to the buffers the
function declares.  Pointers are positions in the datagram; a variable-length integer is below
2^62, so adding one to a pointer does not wrap.  The ciphers and the key derivation are what the
engine is given.
-/

namespace SlabFlux.Net.Quic

open SlabFlux.Core Lib
open Lib.Trace (readAt writeAt)

/-! ## Accesses -/

/-- The datagram, the `data` of the two connection ids, and the other buffers. -/
inductive Region where
  | datagram | dcidData | scidData | hpMask | packetBuf | decryptedPayload
  deriving DecidableEq

/-- A datagram of `len` bytes.  What stands behind them is read like anything else, and the
access shows it. -/
structure Datagram where
  data : Memory
  len : Nat

variable (datagram : Datagram)

/-- How large each region is. -/
def size : Region → Nat
  | .datagram => datagram.len
  | .dcidData | .scidData => 20
  | .hpMask => 16
  | .packetBuf | .decryptedPayload => 1500

/-- Where the function may write: everywhere but into the datagram. -/
def writable (region : Region) : Bool := region ≠ .datagram

/-! ## Connections -/

/-- `quic_phase`. -/
inductive Phase where
  | closed | initial | handshake | oneRtt | draining | closing
  deriving DecidableEq

/-- `MaxConnections`. -/
structure Config where
  maxConnections : Nat
  positive : 0 < maxConnections

/-- The bytes of a `quic_connection_id`. -/
abbrev ConnectionId := Bytes

/-- `quic_transmission_control_block`, as far as inbound packets need it. -/
structure Tcb (Key : Type) where
  phase : Phase
  rxInitialAead : Key
  rxInitialHp : Key
  rxAppAead : Key
  rxAppHp : Key

/-- `hash_node`. -/
structure Node (config : Config) where
  cid : ConnectionId
  connIdx : Fin config.maxConnections

/-- `quic_engine`: the chains of the hash table, the blocks, the counter of connections, and
how many nodes the pool has left. -/
structure Engine (config : Config) (Key : Type) where
  buckets : Nat → List (Node config)
  tcbs : Fin config.maxConnections → Tcb Key
  nextConnIdx : BitVec 32
  nodesLeft : Nat

/-- The cryptography: the receive keys that are derived from the client's connection id, for
the payload and for the header, the block cipher, and the check of a tag. -/
structure Crypto (Key : Type) where
  initialAead : ConnectionId → Key
  initialHp : ConnectionId → Key
  encryptBlock : Key → Bytes → Memory
  authentic : Key → Bytes → Bytes → BitVec 32 → Bool

variable {config : Config} {Key : Type}

def hashCid (cid : ConnectionId) : BitVec 32 :=
  cid.foldl (fun h byte => (h ^^^ byte.setWidth 32) * 0x01000193) 0x811c9dc5

def bucketOf (config : Config) (cid : ConnectionId) : Nat :=
  (hashCid cid).toNat % config.maxConnections

namespace Engine

def lookupConnection (engine : Engine config Key) (cid : ConnectionId) :
    Option (Fin config.maxConnections) :=
  ((engine.buckets (bucketOf config cid)).find? fun node => node.cid = cid).map Node.connIdx

/-- `create_connection`.  The counter has moved on even if there is no room. -/
def createConnection (engine : Engine config Key) (localCid : ConnectionId) :
    Engine config Key × Option (Fin config.maxConnections) :=
  let idx := engine.nextConnIdx.toNat
  let engine := { engine with nextConnIdx := engine.nextConnIdx + 1 }
  if room : idx < config.maxConnections then
    if engine.nodesLeft = 0 then (engine, none)
    else
      let bucket := bucketOf config localCid
      ({ engine with
          nodesLeft := engine.nodesLeft - 1
          tcbs := Function.update engine.tcbs ⟨idx, room⟩
            { engine.tcbs ⟨idx, room⟩ with phase := .initial }
          buckets := Function.update engine.buckets bucket
            (⟨localCid, ⟨idx, room⟩⟩ :: engine.buckets bucket) },
        some ⟨idx, room⟩)
  else (engine, none)

end Engine

/-- A part of the function; it can return with the engine as it is by then. -/
abbrev Run (config : Config) (Key : Type) (Value : Type) :=
  Trace (Access Region) (Engine config Key) Value

/-! ## Variable-length integers -/

namespace Datagram

/-- The number of bytes that the first byte of an integer announces. -/
def varintCount (pos : Nat) : Nat := 2 ^ ((datagram.data pos).toNat / 64)

/-- `decode_quic_varint`: the value, and where the pointer is afterwards.  An integer that is cut
off counts as zero, and the pointer stays. -/
def varint (pos : Nat) : Nat × Nat :=
  if datagram.len ≤ pos then (0, pos)
  else if datagram.len < pos + datagram.varintCount pos then (0, pos)
  else
    let first := (datagram.data pos &&& 0x3F).setWidth 64
    let rest := datagram.data.bytes (pos + 1) (datagram.varintCount pos - 1)
    let value := rest.foldl (fun (val : BitVec 64) byte => (val <<< 8) ||| byte.setWidth 64) first
    (value.toNat, pos + datagram.varintCount pos)

end Datagram

/-- `decode_quic_varint`, with what it reads. -/
def decodeQuicVarint (pos : Nat) : Run config Key (Nat × Nat) :=
  if datagram.len ≤ pos then pure (datagram.varint pos)
  else do
    readAt .datagram pos 1
    if datagram.len < pos + datagram.varintCount pos then pure (datagram.varint pos)
    else do
      readAt .datagram (pos + 1) (datagram.varintCount pos - 1)
      pure (datagram.varint pos)

/-! ## Opening a packet -/

/-- The loop that unmasks the packet number. -/
def unmaskNumber (mask : Memory) (pnOffset : Nat) :
    List Nat → Memory → BitVec 32 → Run config Key (Memory × BitVec 32)
  | [], packet, number => pure (packet, number)
  | i :: rest, packet, number => do
      readAt .hpMask (1 + i) 1
      readAt .packetBuf (pnOffset + i) 1
      writeAt .packetBuf (pnOffset + i) 1
      let byte := packet (pnOffset + i) ^^^ mask (1 + i)
      unmaskNumber mask pnOffset rest (Function.update packet (pnOffset + i) byte)
        ((number <<< 8) ||| byte.setWidth 32)

variable (crypto : Crypto Key)

/-- `decrypt_quic`.  The ranges that are passed count as read, also where the function returns
before it reads them. -/
def decryptQuic (key : Key) (packet : Memory) (headerLen ctLen : Nat)
    (number : BitVec 32) : Run config Key Bool := do
  readAt .packetBuf headerLen ctLen
  readAt .packetBuf 0 headerLen
  if ctLen < 16 then pure false
  else do
    writeAt .decryptedPayload 0 (ctLen - 16)
    pure (crypto.authentic key (packet.bytes headerLen ctLen) (packet.bytes 0 headerLen) number)

namespace Datagram

/-- `hp_mask`, from the sample behind the packet number. -/
def hpMask (key : Key) (datagram : Datagram) (pnOffset : Nat) : Memory :=
  crypto.encryptBlock key (datagram.data.bytes (pnOffset + 4) 16)

/-- The first byte with the flags unmasked. -/
def firstByte (key : Key) (datagram : Datagram) (pnOffset : Nat) (flags : BitVec 8) : BitVec 8 :=
  datagram.data 0 ^^^ (datagram.hpMask crypto key pnOffset 0 &&& flags)

def pnLength (key : Key) (datagram : Datagram) (pnOffset : Nat) (flags : BitVec 8) : Nat :=
  (datagram.firstByte crypto key pnOffset flags &&& 0x03).toNat + 1

end Datagram

/-- The difference of two `size_t`. -/
def sizeSub (a b : Nat) : Nat := (2 ^ 64 + a - b) % 2 ^ 64

/-- What both kinds of packet come to: header protection is removed on a copy of the datagram,
and the payload is decrypted.  `encryptedLen` is what the packet number leaves of it. -/
def openPacket (hp aead : Key) (flags : BitVec 8) (datagram : Datagram)
    (pnOffset : Nat) (encryptedLen : Nat → Nat) : Run config Key Unit := do
  readAt .datagram (pnOffset + 4) 16
  writeAt .hpMask 0 16
  let mask := datagram.hpMask crypto hp pnOffset
  readAt .datagram 0 datagram.len
  writeAt .packetBuf 0 datagram.len
  let packet := Memory.copy (fun _ => 0) 0 datagram.data 0 datagram.len
  readAt .hpMask 0 1
  readAt .packetBuf 0 1
  writeAt .packetBuf 0 1
  let packet := Function.update packet 0 (datagram.firstByte crypto hp pnOffset flags)
  let pnLength := datagram.pnLength crypto hp pnOffset flags
  let unmasked ← unmaskNumber mask pnOffset (List.range pnLength) packet 0
  let headerLen := pnOffset + pnLength
  let encryptedPayloadLen := encryptedLen pnLength
  let valid ← decryptQuic crypto aead unmasked.1 headerLen encryptedPayloadLen unmasked.2
  -- what is handed to `process_quic_frames`
  if valid then readAt .decryptedPayload 0 (encryptedPayloadLen - 16) else pure ()

/-! ## The function -/

namespace Datagram

/-- `header_form & 0x80`. -/
def isLong : Bool := datagram.data 0 &&& 0x80 ≠ 0

def version : BitVec 32 := networkToHost32 (datagram.data.load 32 4 1)

/-- `dcid_len` of a long header. -/
def dcidLen : Nat := (datagram.data 5).toNat

/-- `dcid` of a long header. -/
def dcid : ConnectionId := datagram.data.bytes 6 datagram.dcidLen

def scidLen : Nat := (datagram.data (6 + datagram.dcidLen)).toNat

/-- Where the pointer is behind `scid`. -/
def afterScid : Nat := 7 + datagram.dcidLen + datagram.scidLen

def packetType : BitVec 8 := (datagram.data 0 &&& 0x30) >>> 4

/-- `dcid` of a short header. -/
def shortDcid : ConnectionId := datagram.data.bytes 1 8

end Datagram

/-- The connection of an Initial packet.  One that is not known is created, with the keys that
its connection id gives. -/
def connect (engine : Engine config Key) (dcid : ConnectionId) :
    Engine config Key × Option (Fin config.maxConnections) :=
  match engine.lookupConnection dcid with
  | some index => (engine, some index)
  | none =>
      let created := engine.createConnection dcid
      match created.2 with
      | none => created
      | some index =>
          ({ created.1 with
              tcbs := Function.update created.1.tcbs index
                { created.1.tcbs index with
                  rxInitialAead := crypto.initialAead dcid
                  rxInitialHp := crypto.initialHp dcid } },
            some index)

/-- The keys of a new connection are derived from `dcid`. -/
def deriveKeys (engine : Engine config Key) (datagram : Datagram) : Run config Key Unit :=
  if (engine.lookupConnection datagram.dcid).isNone then readAt .dcidData 0 datagram.dcidLen
  else pure ()

/-- An Initial packet, from behind the connection ids on. -/
def processInitial (engine : Engine config Key) (datagram : Datagram) :
    Run config Key (Engine config Key) :=
  let connected := connect crypto engine datagram.dcid
  match connected.2 with
  | none => .stop connected.1
  | some index => do
      let tcb := connected.1.tcbs index
      deriveKeys engine datagram
      let token ← decodeQuicVarint datagram datagram.afterScid
      if datagram.len < token.2 + token.1 then .stop connected.1
      else do
        let payload ← decodeQuicVarint datagram (token.2 + token.1)
        if datagram.len < payload.2 + payload.1 then .stop connected.1
        else if datagram.len < payload.2 + 4 + 16 then .stop connected.1
        else do
          openPacket crypto tcb.rxInitialHp tcb.rxInitialAead 0x0F datagram payload.2
            fun pnLength => sizeSub payload.1 pnLength
          pure connected.1

/-- A long header. -/
def processLong (engine : Engine config Key) (datagram : Datagram) :
    Run config Key (Engine config Key) := do
  readAt .datagram 1 4
  if datagram.version = 0 then .stop engine
  else do
    readAt .datagram 5 1
    if datagram.len < 6 + datagram.dcidLen then .stop engine
    else do
      readAt .datagram 6 datagram.dcidLen
      writeAt .dcidData 0 datagram.dcidLen
      readAt .datagram (6 + datagram.dcidLen) 1
      if datagram.len < datagram.afterScid then .stop engine
      else do
        readAt .datagram (7 + datagram.dcidLen) datagram.scidLen
        writeAt .scidData 0 datagram.scidLen
        readAt .dcidData 0 datagram.dcidLen
        if datagram.packetType = 0 then processInitial crypto engine datagram else pure engine

/-- A short header. -/
def processShort (engine : Engine config Key) (datagram : Datagram) :
    Run config Key (Engine config Key) :=
  if datagram.len < 1 + 8 then .stop engine
  else do
    readAt .datagram 1 8
    writeAt .dcidData 0 8
    readAt .dcidData 0 8
    match engine.lookupConnection datagram.shortDcid with
    | none => .stop engine
    | some index =>
        let tcb := engine.tcbs index
        if tcb.phase ≠ .oneRtt then .stop engine
        else if datagram.len < 9 + 4 + 16 then .stop engine
        else do
          openPacket crypto tcb.rxAppHp tcb.rxAppAead 0x1F datagram 9
            fun pnLength => sizeSub datagram.len (9 + pnLength)
          pure engine

def processInboundQuic (engine : Engine config Key)
    (datagram : Datagram) : Run config Key (Engine config Key) :=
  if datagram.len < 21 then .stop engine
  else do
    readAt .datagram 0 1
    if datagram.isLong then processLong crypto engine datagram
    else processShort crypto engine datagram

end SlabFlux.Net.Quic
