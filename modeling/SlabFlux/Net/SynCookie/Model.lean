import SlabFlux.Lib.Execution
import Mathlib.Data.BitVec

/-!
# SYN cookies

`tcp_syn_cookie` encodes a half-open connection in the initial sequence number of the
server: five bits of a period counter, three bits for the segment size and 24 bits of a MAC.
A cookie is accepted only if the full MAC is still in a table of recently generated ones,
and if its 24 bits are not in a table of recently accepted ones.

Calls are atomic.  The MAC is a parameter; its digest is left abstract, so that a MAC
without collisions can be one.
-/

namespace SlabFlux.Net.SynCookie

open Lib

/-- The connection tuple of `generate` and `validate`, or of `generate_ipv6` and
`validate_ipv6`. -/
inductive Flow
  | ipv4 (srcIp : BitVec 32) (srcPort : BitVec 16) (dstIp : BitVec 32) (dstPort : BitVec 16)
  | ipv6 (srcIp : BitVec 64 × BitVec 64) (srcPort : BitVec 16) (dstIp : BitVec 64 × BitVec 64)
      (dstPort : BitVec 16)
  deriving DecidableEq

/-- `reg_idx`. -/
def Flow.registryIndex (clientIsn : BitVec 32) : Flow → BitVec 16
  | .ipv4 srcIp srcPort _ _ => (srcIp ^^^ srcPort.setWidth 32 ^^^ clientIsn).setWidth 16
  | .ipv6 srcIp srcPort _ _ =>
      (srcIp.1 ^^^ srcIp.2 ^^^ srcPort.setWidth 64 ^^^ clientIsn.setWidth 64).setWidth 16

/-- `compute_mac` and `compute_mac_ipv6` under the seeded keys, with the lower 24 bits of a
digest and the digest that reads as zero. -/
structure Mac where
  Digest : Type
  decidableEq : DecidableEq Digest
  compute : Flow → (clientIsn t : BitVec 32) → Digest
  low : Digest → BitVec 24
  zero : Digest

instance (mac : Mac) : DecidableEq mac.Digest := mac.decidableEq

/-- The static tables. -/
structure Tables (mac : Mac) where
  replayCache : BitVec 12 → BitVec 32
  macRegistry : BitVec 16 → mac.Digest
  globalTemporalRegistry : BitVec 32

/-- When a call is made: its argument `current_time_ms`, and the seconds the monotonic clock
shows. -/
structure Time where
  currentTimeMs : BitVec 64
  tvSec : Nat

structure CookieStatus where
  isValid : Bool
  mss : BitVec 16
  deriving DecidableEq

def mssTable : List (BitVec 16) := [64, 256, 512, 536, 1024, 1440, 1460, 8960]

/-- The loop that looks for the segment size, over the entries below `count`. -/
def mssIndex (clientMss : BitVec 16) : (count : Nat) → Nat
  | 0 => 0
  | i + 1 => if mssTable.getD i 0 ≤ clientMss then i else mssIndex clientMss i

/-! ## Fields of a cookie -/

def packCookie (t : BitVec 32) (mssIdx : Nat) (digest : BitVec 24) : BitVec 32 :=
  ((t &&& 0x1F) <<< 27) ||| ((BitVec.ofNat 32 mssIdx &&& 0x7) <<< 24) ||| digest.setWidth 32

/-- `t_rx`. -/
def cookieTime (cookie : BitVec 32) : BitVec 32 := cookie >>> 27

/-- `mss_idx`. -/
def cookieMss (cookie : BitVec 32) : BitVec 32 := (cookie >>> 24) &&& 0x7

/-- `mac_rx`. -/
def cookieMac (cookie : BitVec 32) : BitVec 32 := cookie &&& 0x00FFFFFF

namespace Tables

variable {mac : Mac}

/-- Tables as they are at program start. -/
def initial (mac : Mac) : Tables mac where
  replayCache := fun _ => 0
  macRegistry := fun _ => mac.zero
  globalTemporalRegistry := 0

variable (tables : Tables mac)

def getTimeCounter (tvSec : Nat) : BitVec 32 × Tables mac :=
  let current := BitVec.ofNat 32 (tvSec / 64)
  let registered := tables.globalTemporalRegistry
  if current < registered then (registered, tables)
  else (current, { tables with globalTemporalRegistry := current })

/-- The period counter of a call. -/
def counterAt (time : Time) : BitVec 32 × Tables mac :=
  if 0 < time.currentTimeMs then ((time.currentTimeMs / 64000).setWidth 32, tables)
  else tables.getTimeCounter time.tvSec

/-- `generate` and `generate_ipv6`. -/
def generateFor (flow : Flow) (clientIsn : BitVec 32)
    (clientMss : BitVec 16) (time : Time) : BitVec 32 × Tables mac :=
  let (counter, tables) := tables.counterAt time
  let t := counter &&& 0x1F
  let fullMac := mac.compute flow clientIsn t
  let tables := { tables with
    macRegistry := Function.update tables.macRegistry (flow.registryIndex clientIsn) fullMac }
  let mssIdx := mssIndex clientMss 8
  (clientIsn + packCookie t mssIdx (mac.low fullMac), tables)

/-- `validate` and `validate_ipv6`. -/
def validateFor (flow : Flow) (serverIsn clientIsn : BitVec 32)
    (time : Time) : CookieStatus × Tables mac :=
  let cookie := serverIsn - clientIsn
  let tRx := cookieTime cookie
  let mssIdx := cookieMss cookie
  let macRx := cookieMac cookie
  let (counter, tables) := tables.counterAt time
  let tLocal := counter &&& 0x1F
  let diff := (tLocal - tRx) &&& 0x1F
  if 2 ≤ diff then (⟨false, 0⟩, tables)
  else
    let originalT := (tLocal - diff) &&& 0x1F
    let fullMac := mac.compute flow clientIsn originalT
    if macRx = (mac.low fullMac).setWidth 32 then
      let storedMac := tables.macRegistry (flow.registryIndex clientIsn)
      if storedMac ≠ fullMac then (⟨false, 0⟩, tables)
      else
        let hash := macRx.setWidth 12
        if tables.replayCache hash = macRx then (⟨false, 0⟩, tables)
        else
          (⟨true, mssTable.getD mssIdx.toNat 0⟩,
            { tables with replayCache := Function.update tables.replayCache hash macRx })
    else (⟨false, 0⟩, tables)

def generate (srcIp : BitVec 32) (srcPort : BitVec 16)
    (dstIp : BitVec 32) (dstPort : BitVec 16) (clientIsn : BitVec 32) (clientMss : BitVec 16)
    (time : Time) : BitVec 32 × Tables mac :=
  tables.generateFor (.ipv4 srcIp srcPort dstIp dstPort) clientIsn clientMss time

def validate (srcIp : BitVec 32) (srcPort : BitVec 16)
    (dstIp : BitVec 32) (dstPort : BitVec 16) (serverIsn clientIsn : BitVec 32)
    (time : Time) : CookieStatus × Tables mac :=
  tables.validateFor (.ipv4 srcIp srcPort dstIp dstPort) serverIsn clientIsn time

def generateIpv6 (srcIp : BitVec 64 × BitVec 64) (srcPort : BitVec 16)
    (dstIp : BitVec 64 × BitVec 64) (dstPort : BitVec 16) (clientIsn : BitVec 32)
    (clientMss : BitVec 16) (time : Time) : BitVec 32 × Tables mac :=
  tables.generateFor (.ipv6 srcIp srcPort dstIp dstPort) clientIsn clientMss time

def validateIpv6 (srcIp : BitVec 64 × BitVec 64) (srcPort : BitVec 16)
    (dstIp : BitVec 64 × BitVec 64) (dstPort : BitVec 16) (serverIsn clientIsn : BitVec 32)
    (time : Time) : CookieStatus × Tables mac :=
  tables.validateFor (.ipv6 srcIp srcPort dstIp dstPort) serverIsn clientIsn time

end Tables

/-! ## Histories -/

inductive Call
  | generate (flow : Flow) (clientIsn : BitVec 32) (clientMss : BitVec 16) (time : Time)
  | validate (flow : Flow) (serverIsn clientIsn : BitVec 32) (time : Time)

/-- A cookie that was generated: what it was generated for, the segment size it encodes, and
the 64-second period of the call. -/
structure Issued where
  flow : Flow
  clientIsn : BitVec 32
  serverIsn : BitVec 32
  mss : BitVec 16
  period : Nat
  deriving DecidableEq

/-- A cookie that was accepted. -/
structure Accepted where
  flow : Flow
  serverIsn : BitVec 32
  clientIsn : BitVec 32
  deriving DecidableEq

/-- The tables with the history of the calls, and the period of the latest one. -/
structure State (mac : Mac) where
  tables : Tables mac
  issued : List Issued
  accepted : List Accepted
  now : Nat

/-- The 64-second period a call falls into. -/
def Time.period (time : Time) : Nat :=
  if 0 < time.currentTimeMs then time.currentTimeMs.toNat / 64000 else time.tvSec / 64

namespace State

variable {mac : Mac}

def initial (mac : Mac) : State mac where
  tables := .initial mac
  issued := []
  accepted := []
  now := 0

def step (state : State mac) : Call → State mac
  | .generate flow clientIsn clientMss time =>
      let (serverIsn, tables) := state.tables.generateFor flow clientIsn clientMss time
      { state with
        tables := tables
        issued := state.issued ++
          [⟨flow, clientIsn, serverIsn, mssTable.getD (mssIndex clientMss 8) 0, time.period⟩]
        now := time.period }
  | .validate flow serverIsn clientIsn time =>
      let (status, tables) := state.tables.validateFor flow serverIsn clientIsn time
      { state with
        tables := tables
        accepted :=
          if status.isValid then state.accepted ++ [⟨flow, serverIsn, clientIsn⟩]
          else state.accepted
        now := time.period }

end State

end SlabFlux.Net.SynCookie
