import SlabFlux.Lib.View

/-!
# Certificates

`asn1_der_decoder` and `extract_spki`.

`mtls_policy_engine` and `client_spki_whitelist`.
-/

namespace SlabFlux.Security

open Lib

/-- `asn1_der_decoder`. -/
structure Asn1DerDecoder where
  data : View
  pos : Nat

namespace Asn1DerDecoder

/-- The length field at a position: the length and the position behind the field. -/
def readLength (decoder : Asn1DerDecoder) : Option (Nat × Nat) :=
  let lenByte := (decoder.data.get decoder.pos).toNat
  let pos := decoder.pos + 1
  if lenByte < 128 then some (lenByte, pos)
  else
    let numBytes := lenByte % 128
    if numBytes = 0 ∨ 4 < numBytes ∨ decoder.data.length < pos + numBytes then none
    else
      some ((List.range numBytes).foldl
        (fun length index => length * 2 ^ 8 + (decoder.data.get (pos + index)).toNat) 0,
        pos + numBytes)

/-- `read_tlv`: the tag and the value, if the element is there, and the decoder, which has
moved on past what was read either way. -/
def readTlv (decoder : Asn1DerDecoder) : Option (BitVec 8 × View) × Asn1DerDecoder :=
  if decoder.data.length ≤ decoder.pos then (none, decoder)
  else
    let tag := decoder.data.get decoder.pos
    let decoder := { decoder with pos := decoder.pos + 1 }
    if decoder.data.length ≤ decoder.pos then (none, decoder)
    else
      match decoder.readLength with
      | none => (none, { decoder with pos := decoder.pos + 1 })
      | some (length, pos) =>
          if decoder.data.length < pos + length then (none, { decoder with pos := pos })
          else (some (tag, decoder.data.slice pos length), { decoder with pos := pos + length })

def expectTag (decoder : Asn1DerDecoder) (expected : BitVec 8) : Option View × Asn1DerDecoder :=
  match decoder.readTlv with
  | (some (tag, value), decoder) => (if tag = expected then some value else none, decoder)
  | (none, decoder) => (none, decoder)

/-- Read elements with the given tags, one after the other: the value of the last. -/
def expectTags : Bytes → View → Asn1DerDecoder → Option View
  | [], last, _ => some last
  | tag :: tags, _, decoder =>
      match decoder.expectTag tag with
      | (some value, decoder) => expectTags tags value decoder
      | (none, _) => none

end Asn1DerDecoder

open Asn1DerDecoder

/-- The bit string of a SubjectPublicKeyInfo without its octet of unused bits. -/
def publicKeyBits (spki : View) : View :=
  match expectTags [0x30, 0x03] .empty ⟨spki, 0⟩ with
  | none => .empty
  | some bits =>
      if bits.length = 0 ∨ bits.get 0 ≠ 0x00 then .empty else bits.slice 1 (bits.length - 1)

/-- `extract_spki`.  Whether the optional version could be read is not looked at. -/
def extractSpki (certDer : View) : View :=
  match expectTags [0x30] .empty ⟨certDer, 0⟩ with
  | none => .empty
  | some certSeq =>
      match expectTags [0x30] .empty ⟨certSeq, 0⟩ with
      | none => .empty
      | some tbsSeq =>
          let fields : Asn1DerDecoder := ⟨tbsSeq, 0⟩
          let fields :=
            if 0 < tbsSeq.length ∧ tbsSeq.get 0 = 0xA0 then fields.readTlv.2 else fields
          match expectTags [0x02, 0x30, 0x30, 0x30, 0x30, 0x30] .empty fields with
          | none => .empty
          | some spki => publicKeyBits spki

/-! ## Which clients must authenticate, and which keys may -/

/-- `mtls_policy_engine`. -/
structure MtlsPolicyEngine where
  enforcedSubnets : Nat → BitVec 32
  subnetMasks : Nat → BitVec 32
  count : Nat

namespace MtlsPolicyEngine

/-- The engine before any subnet is enforced. -/
def initial : MtlsPolicyEngine := ⟨fun _ => 0, fun _ => 0, 0⟩

def enforceForSubnet (engine : MtlsPolicyEngine) (networkIp mask : BitVec 32) : MtlsPolicyEngine :=
  if engine.count < 1024 then
    { enforcedSubnets := fun index =>
        if index = engine.count then networkIp &&& mask else engine.enforcedSubnets index
      subnetMasks := fun index =>
        if index = engine.count then mask else engine.subnetMasks index
      count := engine.count + 1 }
  else { engine with count := engine.count + 1 }

/-- The engine after a sequence of `enforce_for_subnet` calls. -/
def ofSubnets (subnets : List (BitVec 32 × BitVec 32)) : MtlsPolicyEngine :=
  subnets.foldl (fun engine subnet => engine.enforceForSubnet subnet.1 subnet.2) initial

def requiresMtls (engine : MtlsPolicyEngine) (clientIp : BitVec 32) : Bool :=
  (List.range (min engine.count 1024)).any fun index =>
    clientIp &&& engine.subnetMasks index == engine.enforcedSubnets index

end MtlsPolicyEngine

/-- `whitelist_entry`, its key as the memory from `raw_key` on. -/
structure WhitelistEntry where
  rawKey : Memory
  len : Nat

/-- `client_spki_whitelist`, its entries as the memory from `entries_` on. -/
structure ClientSpkiWhitelist where
  entries : Nat → WhitelistEntry
  entryCount : Nat

namespace ClientSpkiWhitelist

def authorize (whitelist : ClientSpkiWhitelist) (spki : View) : ClientSpkiWhitelist :=
  let index := whitelist.entryCount
  if 512 ≤ index then { whitelist with entryCount := index + 1 }
  else
    let len := min spki.length 64
    { entries := fun other =>
        if other = index then ⟨(whitelist.entries index).rawKey.copy 0 spki.memory 0 len, len⟩
        else whitelist.entries other
      entryCount := index + 1 }

def isAuthorized (whitelist : ClientSpkiWhitelist) (spki : View) : Bool :=
  (List.range whitelist.entryCount).any fun index =>
    let entry := whitelist.entries index
    entry.len == spki.length && entry.rawKey.bytes 0 entry.len == spki.bytes

end ClientSpkiWhitelist

end SlabFlux.Security
