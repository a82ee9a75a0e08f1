import Mathlib.Logic.Function.Basic
import SlabFlux.Lib.Digits
import SlabFlux.Transport.Hpack.Strings

/-!
# Huffman decoding

The loop of `decode_string` walks the array that `generate_huffman_tree` fills: it gives out
the byte of each leaf it comes to and starts again at the root.  The table is a constant, so
the array is one too.  `Image` is the array as its memory, one number for all the `int16_t`;
the loops of `generate_huffman_tree` keep to it, and what a walk does with the code of each
byte is evaluated there.

The codes of `huffman_codes` are not free of prefixes.  A string comes back from the decoder
exactly if no byte of it has a code that starts with the code of another symbol: the first
byte that has one is decoded as the other symbol.
-/

namespace SlabFlux.Transport.Hpack

open Lib
variable (tree : Nat → HuffmanNode)

/-! ## What the code table encodes -/

/-- The bits of a code, the first `length` of them from the top. -/
def codeBits (code : Nat) : (length : Nat) → List Bool
  | 0 => []
  | i + 1 => code.testBit i :: codeBits code i

/-- Whether a code starts with another. -/
def HpackCode.startsWith (long short : HpackCode) : Bool :=
  short.length.ble long.length && (long.code >>> (long.length - short.length)).beq short.code

/-- Whether the code of a symbol starts with the code of another symbol. -/
def isShadowed (entry : HpackCode × Nat) : Bool :=
  huffmanCodes.zipIdx.any fun other => entry.1.startsWith other.1 && !other.2.beq entry.2

/-- The table's entry of a byte. -/
def codeOf (byte : BitVec 8) : HpackCode := huffmanCodes.getD byte.toNat ⟨0, 0⟩

/-- No other symbol's code is at the start of the byte's code. -/
def Unambiguous (byte : BitVec 8) : Prop := isShadowed (codeOf byte, byte.toNat) = false

/-- The bits of an entry. -/
def HpackCode.bits (code : HpackCode) : List Bool := codeBits code.code code.length

/-- The concatenation of the table's entries. -/
def encode (string : Bytes) : List Bool := string.flatMap fun byte => (codeOf byte).bits

/-! ## The memory of the tree -/

/-- The `int16_t` of sixteen bits. -/
def signed (word : Nat) : Int :=
  if word < 0x8000 then Int.ofNat word else Int.negSucc (0xFFFF - word)

theorem signed_of_lt {word : Nat} (low : word < 0x8000) : signed word = word :=
  if_pos low

theorem signed_not {word : Nat} (low : word < 0x8000) :
    signed (0xFFFF - word) = -1 - word := by
  rw [signed, if_neg (by omega)]
  omega

/-- The array as one number, sixteen bits for each side of a node, and `next_free`. -/
structure Image where
  memory : Nat
  nextFree : Nat

namespace Image

variable (image : Image)

/-- The sixteen bits of one side of a node. -/
def word (index : Nat) (bit : Bool) : Nat := digit 16 image.memory (2 * index + bit.toNat)

/-- The builder in this memory. -/
def builder : Builder where
  tree index := ⟨signed (image.word index false), signed (image.word index true)⟩
  nextFree := image.nextFree

/-- Write one side of a node. -/
def setWord (index : Nat) (bit : Bool) (value : Nat) : Image :=
  { image with memory := setDigit 16 image.memory (2 * index + bit.toNat) value }

/-- `insertLoop` in the memory. -/
def insertLoop (sym code : Nat) : (i : Nat) → (curr : Nat) → Image → Image
  | 0, _, image => image
  | i + 1, curr, image =>
      if maxNodes ≤ curr then image
      else
        let bit := code.testBit i
        let word := image.word curr bit
        if i = 0 then image.setWord curr bit (0xFFFF - sym)
        else if 0x8000 ≤ word then image
        else if maxNodes ≤ image.nextFree then image
        else if word = 0 then
          insertLoop sym code i image.nextFree
            { image.setWord curr bit image.nextFree with nextFree := image.nextFree + 1 }
        else insertLoop sym code i word image

/-- `insertSymbol` in the memory. -/
def insertSymbol (entry : HpackCode × Nat) : Image :=
  if entry.1.length = 0 then image
  else insertLoop entry.2 entry.1.code entry.1.length 0 image

theorem side_builder (index : Nat) (bit : Bool) :
    (image.builder.tree index).side bit = signed (image.word index bit) := by
  cases bit <;> rfl

theorem builder_setWord (index : Nat) (bit : Bool) {value : Nat} (fits : value < 2 ^ 16) :
    (image.setWord index bit value).builder =
      image.builder.setSide index bit (signed value) := by
  have stored (other : Nat) (side : Bool) : (image.setWord index bit value).word other side =
      if other = index ∧ side = bit then value else image.word other side := by
    rw [word, setWord, digit_setDigit fits]
    refine if_congr ?_ rfl rfl
    cases side <;> cases bit <;> simp <;> omega
  rw [builder, Builder.setSide]
  congr 1
  funext other
  by_cases same : other = index
  · subst same
    rw [Function.update_self, stored, stored]
    cases bit <;> simp [HuffmanNode.setSide, builder]
  · rw [Function.update_of_ne same, stored, stored]
    simp [same, builder]

/-- The loop over the bits of a code keeps to the memory. -/
theorem builder_insertLoop {sym : Nat} (small : sym < 0x8000) (code i curr : Nat) :
    (insertLoop sym code i curr image).builder =
      Builder.insertLoop sym code i curr image.builder := by
  induction i generalizing curr image with
  | zero => rfl
  | succ i ih =>
      have next : image.builder.nextFree = image.nextFree := rfl
      rw [insertLoop, Builder.insertLoop]
      simp only [Int.toNat_natCast, side_builder, next]
      by_cases outside : maxNodes ≤ curr
      · rw [if_pos outside, if_pos (Or.inr (Int.ofNat_le.mpr outside))]
      have clamped : ¬ ((curr : Int) < 0 ∨ (maxNodes : Int) ≤ curr) := by omega
      rw [if_neg outside, if_neg clamped]
      by_cases last : i = 0
      · rw [if_pos last, if_pos last, builder_setWord _ _ _ (by omega), signed_not small]
      rw [if_neg last, if_neg last]
      generalize stored : image.word curr (code.testBit i) = word
      by_cases leaf : 0x8000 ≤ word
      · have negative : signed word < 0 := by
          rw [signed, if_neg (by omega)]
          exact Int.negSucc_lt_zero _
        rw [if_pos leaf, if_pos negative]
      have inner : ¬ (word : Int) < 0 := by omega
      rw [signed_of_lt (by omega), if_neg leaf, if_neg inner]
      by_cases full : maxNodes ≤ image.nextFree
      · rw [if_pos full, if_pos full]
      rw [if_neg full, if_neg full]
      have bound : image.nextFree < maxNodes := by omega
      by_cases free : word = 0
      · have linked := builder_setWord image curr (code.testBit i)
          (show image.nextFree < 2 ^ 16 by unfold maxNodes at bound; omega)
        rw [signed_of_lt (by unfold maxNodes at bound; omega)] at linked
        rw [if_pos free, if_pos (by omega), ih, ← linked]
        rfl
      · rw [if_neg free, if_neg (by omega), ih]

theorem builder_foldl (entries : List (HpackCode × Nat))
    (small : ∀ entry ∈ entries, entry.2 < 0x8000) :
    (entries.foldl insertSymbol image).builder =
      entries.foldl Builder.insertSymbol image.builder := by
  induction entries generalizing image with
  | nil => rfl
  | cons entry rest ih =>
      rw [List.forall_mem_cons] at small
      rw [List.foldl_cons, List.foldl_cons, ih _ small.2]
      congr 1
      rw [insertSymbol, Builder.insertSymbol]
      split_ifs
      · rfl
      · exact builder_insertLoop image small.1 _ _ _

end Image

/-- The memory of the table's tree. -/
def huffmanImage : Image := huffmanCodes.zipIdx.foldl Image.insertSymbol ⟨0, 1⟩

theorem huffmanTree_eq : huffmanTree = huffmanImage.builder.tree := by
  have small : ∀ entry ∈ huffmanCodes.zipIdx, entry.2 < 0x8000 := by decide +kernel
  have blank : (Image.mk 0 1).builder = { tree := fun _ => ⟨0, 0⟩, nextFree := 1 } := by
    simp [Image.builder, Image.word, digit, signed]
  rw [huffmanTree, generateHuffmanTree, huffmanImage, Image.builder_foldl _ _ small, blank]

/-! ## Walking the tree -/

/-- The loop over the bits without the arena: the bytes given out, and the node where it ends. -/
def walk : List Bool → Nat → Bytes × Nat
  | [], node => ([], node)
  | bit :: rest, node =>
      match (tree node).side bit with
      | .ofNat next => walk rest next
      | .negSucc sym => (BitVec.ofNat 8 sym :: (walk rest 0).1, (walk rest 0).2)

theorem walk_append (left right : List Bool) (node : Nat) :
    (walk tree (left ++ right) node).1 =
      (walk tree left node).1 ++ (walk tree right (walk tree left node).2).1 := by
  induction left generalizing node with
  | nil => rfl
  | cons bit left ih =>
      rw [List.cons_append, walk, walk]
      cases (tree node).side bit with
      | ofNat next => exact ih next
      | negSucc sym => exact congrArg _ (ih 0)

/-- The loop over the bits is the walk, as long as the arena has room. -/
theorem decodeBits_eq_walk (bits : List Bool) (node : Nat) {arena : Bytes}
    (fits : arena.length ≤ arenaSize) :
    decodeBits tree bits node arena =
      if arena.length + (walk tree bits node).1.length ≤ arenaSize then
        some (arena ++ (walk tree bits node).1)
      else none := by
  induction bits generalizing node arena with
  | nil => simp [decodeBits, walk, fits]
  | cons bit rest ih =>
      rw [decodeBits, walk, Int.toNat_natCast]
      cases (tree node).side bit with
      | ofNat next => exact ih next fits
      | negSucc sym =>
          have byte : BitVec.ofInt 8 (-1 - Int.negSucc sym) = BitVec.ofNat 8 sym := by
            rw [← BitVec.ofInt_natCast]
            congr 1
            omega
          have longer : (arena ++ [BitVec.ofNat 8 sym]).length = arena.length + 1 := by
            rw [List.length_append, List.length_singleton]
          simp only [if_pos (Int.negSucc_lt_zero sym), byte, List.length_cons]
          by_cases full : arenaSize ≤ arena.length
          · rw [if_pos full, if_neg (by omega)]
          · rw [if_neg full]
            refine (ih 0 (by omega)).trans ?_
            rw [longer, List.append_assoc, List.singleton_append, Nat.add_assoc, Nat.add_comm 1]

/-! ## The table's tree -/

/-- What a walk does with the code of a byte: it gives out the byte and ends at the root, or
the first byte given out is another. -/
def agrees (byte : BitVec 8) : Bool :=
  if isShadowed (codeOf byte, byte.toNat) then
    (walk tree (codeOf byte).bits 0).1.head?.any (· != byte)
  else walk tree (codeOf byte).bits 0 = ([byte], 0)

/-- All codes, and the padding. -/
theorem huffmanTree_agrees :
    (∀ n < 256, agrees huffmanTree (BitVec.ofNat 8 n) = true) ∧
      ∀ ones ≤ 7, (walk huffmanTree (List.replicate ones true) 0).1 = [] := by
  rw [huffmanTree_eq]
  decide +kernel

/-! ## Strings -/

section

variable {tree} (facts : ∀ byte, agrees tree byte = true)
include facts

/-- The bytes given out for an encoded string, followed by bits that give out none. -/
theorem walk_encode_iff {rest : List Bool} (silent : (walk tree rest 0).1 = []) (string : Bytes) :
    (walk tree (encode string ++ rest) 0).1 = string ↔ ∀ byte ∈ string, Unambiguous byte := by
  induction string with
  | nil =>
      rw [encode, List.flatMap_nil, List.nil_append, silent]
      simp
  | cons byte string ih =>
      have split : encode (byte :: string) ++ rest =
          (codeOf byte).bits ++ (encode string ++ rest) := List.append_assoc _ _ _
      have fact := facts byte
      rw [split, walk_append, List.forall_mem_cons, Unambiguous]
      unfold agrees at fact
      cases shadowed : isShadowed (codeOf byte, byte.toNat) with
      | false =>
          rw [shadowed, if_neg Bool.false_ne_true] at fact
          rw [of_decide_eq_true fact, List.singleton_append, List.cons_inj_right, ih]
          exact (and_iff_right rfl).symm
      | true =>
          rw [shadowed, if_pos rfl] at fact
          cases emitted : (walk tree (codeOf byte).bits 0).1 with
          | nil => simp [emitted] at fact
          | cons first more =>
              have other : first ≠ byte := by simpa [emitted] using fact
              simp [other]

theorem decodeBits_encode_iff {rest : List Bool} (silent : (walk tree rest 0).1 = [])
    {string arena : Bytes} (space : arena.length + string.length ≤ arenaSize) :
    decodeBits tree (encode string ++ rest) 0 arena = some (arena ++ string) ↔
      ∀ byte ∈ string, Unambiguous byte := by
  have walked : decodeBits tree (encode string ++ rest) 0 arena = _ :=
    decodeBits_eq_walk tree _ 0 (by omega)
  rw [← walk_encode_iff facts silent string, walked]
  constructor
  · intro result
    split_ifs at result
    exact List.append_cancel_left (Option.some.inj result)
  · intro same
    rw [same, if_pos space]

end

/-- Decoding the padded concatenation of a string's codes gives the string back, exactly if
every byte of it is unambiguous. -/
theorem decodeHuffman_iff {string bytes arena : Bytes} {ones : Nat}
    (encoded : bytes.flatMap byteBits = encode string ++ List.replicate ones true)
    (padding : ones ≤ 7) (space : arena.length + string.length ≤ arenaSize) :
    decodeHuffman bytes arena = some (arena ++ string) ↔ ∀ byte ∈ string, Unambiguous byte := by
  obtain ⟨codes, silent⟩ := huffmanTree_agrees
  have facts (byte : BitVec 8) : agrees huffmanTree byte = true := by
    have same : BitVec.ofNat 8 byte.toNat = byte := BitVec.eq_of_toNat_eq (by simp)
    rw [← same]
    exact codes byte.toNat byte.isLt
  rw [decodeHuffman, encoded]
  exact decodeBits_encode_iff facts (silent ones padding) space

/-- The six bits of the second letter stand in both bytes. -/
theorem decodeHuffman_letters :
    ([0x1C, 0x7F] : Bytes).flatMap byteBits =
        encode [97, 98] ++ List.replicate 5 true ∧
      decodeHuffman [0x1C, 0x7F] [] = some [97, 98] := by
  have clear : ∀ byte ∈ ([97, 98] : Bytes),
      isShadowed (codeOf byte, byte.toNat) = false := by decide +kernel
  have encoded : ([0x1C, 0x7F] : Bytes).flatMap byteBits =
      encode [97, 98] ++ List.replicate 5 true := by decide +kernel
  exact ⟨encoded, (decodeHuffman_iff encoded (by decide) (by decide)).mpr clear⟩

/-- The eight bits of `&` start with the seven bits of `|`. -/
theorem decodeHuffman_ampersand :
    ([0xF8] : Bytes).flatMap byteBits = encode [38] ∧
      decodeHuffman [0xF8] [] = some [124] := by
  rw [decodeHuffman, huffmanTree_eq]
  decide +kernel

end SlabFlux.Transport.Hpack
