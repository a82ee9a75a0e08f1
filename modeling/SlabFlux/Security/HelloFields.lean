import SlabFlux.Lib.View

/-!
# Fields of hello messages

`extract_key_share`, `extract_alpn` and `has_extension`.  The vector loops of
`extract_key_share` try the same indices in the same order as the scalar loop that follows
them, so the model has the scalar loop only.
-/

namespace SlabFlux.Security

open Lib

/-- Where the extensions of a ClientHello start and end: the session id, the cipher suites
and the compression methods are skipped by their lengths. -/
def clientExtensions (hello : View) : Option (Nat × Nat) :=
  if hello.length < 42 then none
  else
    let pos := 38 + 1 + (hello.get 38).toNat
    if hello.length < pos + 2 then none
    else
      let pos := pos + 2 + hello.word16 pos
      if hello.length ≤ pos then none
      else
        let pos := pos + 1 + (hello.get pos).toNat
        if hello.length < pos + 2 then none
        else
          let extLen := hello.word16 pos
          if hello.length < pos + 2 + extLen then none
          else some (pos + 2, pos + 2 + extLen)

/-- The loop over the entries of a key share extension. -/
def findX25519Share (hello : View) (shareEnd : Nat) : Nat → Nat → View
  | 0, _ => .empty
  | fuel + 1, sharePos =>
      if sharePos + 4 ≤ shareEnd then
        let group := hello.word16 sharePos
        let keyLen := hello.word16 (sharePos + 2)
        if group = 0x001D ∧ keyLen = 32 ∧ sharePos + 4 + 32 ≤ shareEnd then
          hello.slice (sharePos + 4) 32
        else findX25519Share hello shareEnd fuel (sharePos + 4 + keyLen)
      else .empty

/-- The loop that looks for the two bytes of the extension type at every index. -/
def searchKeyShare (hello : View) (searchEnd : Nat) : Nat → Nat → View
  | 0, _ => .empty
  | fuel + 1, searchPos =>
      if searchPos + 6 ≤ searchEnd then
        let extSize := hello.word16 (searchPos + 2)
        let listLen := hello.word16 (searchPos + 4)
        let share :=
          if hello.word16 searchPos = 0x0033 ∧ 2 ≤ extSize ∧
              searchPos + 4 + extSize ≤ searchEnd ∧ listLen = extSize - 2 then
            findX25519Share hello (searchPos + 6 + listLen) (listLen + 1) (searchPos + 6)
          else .empty
        if share.length = 0 then searchKeyShare hello searchEnd fuel (searchPos + 1)
        else share
      else .empty

def extractKeyShare (hello : View) : View :=
  match clientExtensions hello with
  | none => .empty
  | some (pos, searchEnd) => searchKeyShare hello searchEnd (searchEnd - pos + 1) pos

/-- The walk of `extract_alpn` over the extensions. -/
def searchAlpn (hello : View) (searchEnd : Nat) : Nat → Nat → View
  | 0, _ => .empty
  | fuel + 1, pos =>
      if pos + 4 ≤ searchEnd then
        let extSize := hello.word16 (pos + 2)
        let listLen := hello.word16 (pos + 4)
        let alpnLen := (hello.get (pos + 6)).toNat
        if hello.word16 pos = 0x0010 ∧ 3 ≤ extSize ∧ pos + 4 + extSize ≤ searchEnd ∧
            listLen = extSize - 2 ∧ 1 ≤ listLen ∧ alpnLen ≤ listLen - 1 ∧ 0 < alpnLen ∧
            pos + 7 + alpnLen ≤ searchEnd then
          hello.slice (pos + 7) alpnLen
        else searchAlpn hello searchEnd fuel (pos + 4 + extSize)
      else .empty

def extractAlpn (hello : View) : View :=
  match clientExtensions hello with
  | none => .empty
  | some (pos, searchEnd) => searchAlpn hello searchEnd (searchEnd - pos + 1) pos

/-- The walk of `has_extension` over the extensions. -/
def searchExtension (hello : View) (target searchEnd : Nat) : Nat → Nat → Bool
  | 0, _ => false
  | fuel + 1, pos =>
      if pos + 4 ≤ searchEnd then
        if hello.word16 pos = target then true
        else
          searchExtension hello target searchEnd fuel (pos + 4 + hello.word16 (pos + 2))
      else false

/-- `has_extension`.  The message is read as a ServerHello, also where a ClientHello is
passed: one cipher suite and one compression method follow the session id. -/
def hasExtension (hello : View) (target : Nat) : Bool :=
  if hello.length < 40 then false
  else
    let pos := 38 + 1 + (hello.get 38).toNat
    if hello.length < pos + 2 then false
    else
      let pos := pos + 2
      if hello.length < pos + 1 then false
      else
        let pos := pos + 1
        if hello.length < pos + 2 then false
        else
          let extLen := hello.word16 pos
          let pos := pos + 2
          if hello.length < pos + extLen then false
          else searchExtension hello target (pos + extLen) (extLen + 1) pos

end SlabFlux.Security
