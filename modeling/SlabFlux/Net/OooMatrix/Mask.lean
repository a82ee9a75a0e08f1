import Mathlib.Data.Nat.Bitwise

/-!
# The presence mask

One bit per byte of the receive window, kept in `1024` words of `64` bits.  The
operations work on words, as the source does; each of them is described by what it
does to the bits.
-/

namespace SlabFlux.Net.OooMatrix

/-- `presence_mask`, word by word. -/
abbrev Mask := Nat → BitVec 64

def windowSize : Nat := 65536

def maskLongs : Nat := 1024

/-- `(1ULL << count) - 1`. -/
def lowOnes (count : Nat) : BitVec 64 := (1#64 <<< count) - 1

/-- `~0ULL`. -/
def allOnes : BitVec 64 := ~~~0#64

namespace Mask

variable (mask : Mask) (position offset length : Nat)

/-- The bit of a window position. -/
def bit : Bool :=
  (mask (position / 64)).getLsbD (position % 64)

/-- The source's test of one bit. -/
def test : Bool :=
  mask (position / 64) &&& (1#64 <<< (position % 64)) ≠ 0

/-- The mask of a range that stays inside one word. -/
def inWord (startBit length : Nat) : BitVec 64 :=
  if length = 64 then allOnes else lowOnes length <<< startBit

/-- The mask of a range's first word when the range goes on beyond it. -/
def fromBit (startBit : Nat) : BitVec 64 :=
  if startBit = 0 then allOnes else allOnes <<< startBit

/-- The overlap test of `insert_mbuf`. -/
def overlaps : Bool :=
  let startWord := offset / 64
  let endWord := (offset + length) / 64
  let startBit := offset % 64
  let endBit := (offset + length) % 64
  if startWord = endWord then
    mask startWord &&& inWord startBit length ≠ 0
  else
    mask startWord &&& fromBit startBit ≠ 0 ||
      (List.range' (startWord + 1) (endWord - (startWord + 1))).any
        (fun word => mask word ≠ 0) ||
      (0 < endBit && mask endWord &&& lowOnes endBit ≠ 0)

/-- The overlap test for the part of a segment that wraps to the window's start. -/
def overlapsFront (length : Nat) : Bool :=
  let endWord := length / 64
  let endBit := length % 64
  (List.range endWord).any (fun word => mask word ≠ 0) ||
    (0 < endBit && mask endWord &&& lowOnes endBit ≠ 0)

/-- A loop over a range of words that stores a value to each of them, in place. -/
def sweep (first count : Nat) (value : Mask → Nat → BitVec 64) : Mask :=
  (List.range' first count).foldl
    (fun mask word => Function.update mask word (value mask word)) mask

/-- Store the same kind of change to a range of words. -/
def mapWords (first count : Nat) (change : BitVec 64 → BitVec 64) : Mask :=
  mask.sweep first count fun mask word => change (mask word)

/-- The walk over the words of a range that marking and clearing share: a range
inside one word, or a first word, whole words, and a last word if the range enters
it. -/
def changeRange (inside first whole last : BitVec 64 → BitVec 64) : Mask :=
  let startWord := offset / 64
  let endWord := (offset + length) / 64
  let endBit := (offset + length) % 64
  if startWord = endWord then mask.mapWords startWord 1 inside
  else
    let mask := mask.mapWords startWord 1 first
    let mask := mask.mapWords (startWord + 1) (endWord - (startWord + 1)) whole
    if 0 < endBit then mask.mapWords endWord 1 last else mask

/-- The same walk for the part of a segment that wraps to the window's start. -/
def changeFront (length : Nat) (whole last : BitVec 64 → BitVec 64) : Mask :=
  let endWord := length / 64
  let endBit := length % 64
  let mask := mask.mapWords 0 endWord whole
  if 0 < endBit then mask.mapWords endWord 1 last else mask

/-- The marking of `insert_mbuf`. -/
def mark : Mask :=
  mask.changeRange offset length (· ||| inWord (offset % 64) length)
    (· ||| fromBit (offset % 64)) (fun _ => allOnes)
    (· ||| lowOnes ((offset + length) % 64))

/-- The marking of the part that wraps. -/
def markFront (length : Nat) : Mask :=
  mask.changeFront length (· ||| allOnes) (· ||| lowOnes (length % 64))

/-- The clearing of `extract_contiguous_mbuf`. -/
def clear : Mask :=
  mask.changeRange offset length (· &&& ~~~inWord (offset % 64) length)
    (· &&& if offset % 64 = 0 then 0 else ~~~(allOnes <<< (offset % 64)))
    (fun _ => 0) (· &&& ~~~lowOnes ((offset + length) % 64))

/-- The clearing of the part that wraps. -/
def clearFront (length : Nat) : Mask :=
  mask.changeFront length (fun _ => 0) (· &&& ~~~lowOnes (length % 64))

/-- The `memmove` and `memset` of `slide_window`. -/
def slideWords (words : Nat) : Mask := fun word =>
  if word < maskLongs then
    if word + words < maskLongs then mask (word + words) else 0
  else mask word

/-- The loop of `slide_window` over the words, and the last word. -/
def slideBits (bits : Nat) : Mask :=
  let mask := mask.sweep 0 (maskLongs - 1) fun mask word =>
    (mask word >>> bits) ||| (mask (word + 1) <<< (64 - bits))
  mask.mapWords (maskLongs - 1) 1 (· >>> bits)

/-- The mask's part of `slide_window`. -/
def slide (shiftBytes : Nat) : Mask :=
  let mask := if 0 < shiftBytes / 64 then mask.slideWords (shiftBytes / 64) else mask
  if 0 < shiftBytes % 64 then mask.slideBits (shiftBytes % 64) else mask

/-! ## Bits of words -/

theorem getLsbD_lowOnes {count : Nat} (bound : count < 64) (index : Nat) :
    (lowOnes count).getLsbD index = decide (index < count) := by
  have value : (lowOnes count).toNat = 2 ^ count - 1 := by
    have power : 2 ^ count < 2 ^ 64 := Nat.pow_lt_pow_right (by decide) bound
    have positive : 0 < 2 ^ count := Nat.two_pow_pos count
    have one : (1#64).toNat = 1 := rfl
    rw [lowOnes, BitVec.toNat_sub, BitVec.toNat_shiftLeft, Nat.shiftLeft_eq]
    change (2 ^ 64 - (1#64).toNat + (1#64).toNat * 2 ^ count % 2 ^ 64) % 2 ^ 64 = _
    rw [one]
    omega
  rw [BitVec.getLsbD, value, Nat.testBit_two_pow_sub_one]

@[simp] theorem getLsbD_allOnes (index : Nat) : allOnes.getLsbD index = decide (index < 64) := by
  rw [allOnes, BitVec.getLsbD_not, BitVec.getLsbD_zero, Bool.not_false, Bool.and_true]

theorem getLsbD_inWord {startBit length : Nat} (within : startBit + length ≤ 64)
    {index : Nat} (bound : index < 64) :
    (inWord startBit length).getLsbD index =
      decide (startBit ≤ index ∧ index < startBit + length) := by
  by_cases whole : length = 64
  · rw [inWord, if_pos whole, getLsbD_allOnes, decide_eq_decide]
    omega
  · rw [inWord, if_neg whole, BitVec.getLsbD_shiftLeft, getLsbD_lowOnes (by omega)]
    by_cases before : index < startBit
    · simp [before, bound]
    · simp only [bound, before, decide_true, decide_false, Bool.not_false, Bool.true_and,
        decide_eq_decide]
      omega

theorem getLsbD_fromBit {startBit index : Nat} (bound : index < 64) :
    (fromBit startBit).getLsbD index = decide (startBit ≤ index) := by
  unfold fromBit
  by_cases zero : startBit = 0
  · simp [zero, bound]
  · rw [if_neg zero, BitVec.getLsbD_shiftLeft]
    by_cases before : index < startBit
    · simp [before]
    · simp [bound, before]
      omega

/-- A word is nonzero exactly when one of its bits is set. -/
theorem ne_zero_iff (word : BitVec 64) : word ≠ 0 ↔ ∃ index < 64, word.getLsbD index = true := by
  constructor
  · intro nonzero
    by_contra none
    apply nonzero
    apply BitVec.eq_of_getLsbD_eq
    intro index bound
    by_contra differ
    refine none ⟨index, bound, ?_⟩
    simpa using differ
  · rintro ⟨index, _, isSet⟩ rfl
    simp at isSet

theorem test_eq_bit : mask.test position = mask.bit position := by
  have bound : position % 64 < 64 := Nat.mod_lt _ (by decide)
  rw [Bool.eq_iff_iff, test, decide_eq_true_iff, ne_zero_iff, bit]
  constructor
  · rintro ⟨index, indexLt, isSet⟩
    rw [BitVec.getLsbD_and, Bool.and_eq_true] at isSet
    have same : index = position % 64 := by
      have one := isSet.2
      simp only [BitVec.getLsbD_shiftLeft, BitVec.getLsbD_one, Bool.and_eq_true,
        decide_eq_true_eq, Bool.not_eq_true', decide_eq_false_iff_not] at one
      omega
    rw [← same]
    exact isSet.1
  · intro isSet
    refine ⟨position % 64, bound, ?_⟩
    rw [BitVec.getLsbD_and, isSet]
    simp [bound]

/-- A loop upwards whose values come from words it has not passed yet finds all of them as
they were before the loop. -/
theorem sweep_apply {value : Mask → Nat → BitVec 64}
    (ahead : ∀ (mask other : Mask) (word : Nat),
      (∀ later, word ≤ later → other later = mask later) → value other word = value mask word)
    (first count word : Nat) :
    mask.sweep first count value word =
      if first ≤ word ∧ word < first + count then value mask word else mask word := by
  unfold sweep
  induction count generalizing first mask with
  | zero =>
      rw [if_neg (by omega)]
      rfl
  | succ count ih =>
      rw [List.range'_succ, List.foldl_cons, ih]
      by_cases equal : word = first
      · subst equal
        rw [if_neg (by omega), if_pos (by omega), Function.update_self]
      · rw [Function.update_of_ne equal]
        by_cases inside : first + 1 ≤ word ∧ word < first + 1 + count
        · rw [if_pos inside, if_pos (by omega)]
          refine ahead _ _ _ fun later passed => ?_
          rw [Function.update_of_ne (by omega)]
        · rw [if_neg inside, if_neg (by omega)]

/-- The words of a range, changed; the others kept. -/
theorem mapWords_apply (first count : Nat) (change : BitVec 64 → BitVec 64) (word : Nat) :
    mask.mapWords first count change word =
      if first ≤ word ∧ word < first + count then change (mask word) else mask word :=
  sweep_apply mask (fun _ _ word same => congrArg change (same word le_rfl)) first count word

/-! ## Ranges of bits -/

theorem bit_mul_add (word : Nat) {index : Nat} (bound : index < 64) :
    mask.bit (64 * word + index) = (mask word).getLsbD index := by
  rw [bit, Nat.mul_add_div (by decide), Nat.div_eq_of_lt bound, Nat.add_zero,
    Nat.mul_add_mod, Nat.mod_eq_of_lt bound]

/-- To describe a mask it is enough to describe the bits of its words. -/
theorem forall_bit_iff {property : Nat → Prop} :
    (∀ position, property position) ↔ ∀ word index, index < 64 → property (64 * word + index) := by
  constructor
  · intro every word index _
    exact every _
  · intro every position
    have split := every (position / 64) (position % 64) (Nat.mod_lt _ (by decide))
    rwa [Nat.div_add_mod] at split

theorem inRange_same {offset length word index : Nat} (bound : index < 64)
    (sameWord : offset / 64 = (offset + length) / 64) :
    offset ≤ 64 * word + index ∧ 64 * word + index < offset + length ↔
      word = offset / 64 ∧ offset % 64 ≤ index ∧ index < offset % 64 + length := by
  omega

theorem inRange_across {offset length word index : Nat} (bound : index < 64)
    (across : offset / 64 ≠ (offset + length) / 64) :
    offset ≤ 64 * word + index ∧ 64 * word + index < offset + length ↔
      word = offset / 64 ∧ offset % 64 ≤ index ∨
        offset / 64 < word ∧ word < (offset + length) / 64 ∨
        word = (offset + length) / 64 ∧ index < (offset + length) % 64 := by
  omega

/-- Changing a range: if each word change writes `value` to the bits of its share of
the range, the walk writes `value` to the bits of the range. -/
theorem bit_changeRange {offset length : Nat} {inside first whole last : BitVec 64 → BitVec 64}
    {value : Bool} (insideBits : offset % 64 + length < 64 → ∀ word index, index < 64 →
      (inside word).getLsbD index = if offset % 64 ≤ index ∧ index < offset % 64 + length then value
        else word.getLsbD index)
    (firstBits : ∀ word index, index < 64 → (first word).getLsbD index =
      if offset % 64 ≤ index then value else word.getLsbD index)
    (wholeBits : ∀ word index, index < 64 → (whole word).getLsbD index = value)
    (lastBits : ∀ word index, index < 64 → (last word).getLsbD index =
      if index < (offset + length) % 64 then value else word.getLsbD index) (position : Nat) :
    (mask.changeRange offset length inside first whole last).bit position =
      if offset ≤ position ∧ position < offset + length then value
      else mask.bit position := by
  revert position
  rw [forall_bit_iff]
  intro word index bound
  rw [bit_mul_add _ _ bound, bit_mul_add _ _ bound]
  unfold changeRange
  by_cases sameWord : offset / 64 = (offset + length) / 64
  · rw [if_pos sameWord, mapWords_apply]
    simp only [inRange_same bound sameWord]
    by_cases here : word = offset / 64
    · rw [if_pos (by omega), insideBits (by omega) _ _ bound]
      simp only [here, true_and]
    · rw [if_neg (by omega), if_neg fun both => here both.1]
  · rw [if_neg sameWord]
    simp only [inRange_across bound sameWord]
    by_cases isLast : word = (offset + length) / 64
    · by_cases entered : 0 < (offset + length) % 64
      · rw [if_pos entered, mapWords_apply, if_pos (by omega), mapWords_apply,
          if_neg (by omega), mapWords_apply, if_neg (by omega), lastBits _ _ bound]
        congr 1
        rw [eq_iff_iff]
        omega
      · rw [if_neg entered, mapWords_apply, if_neg (by omega), mapWords_apply,
          if_neg (by omega), if_neg (by omega)]
    · have notTouched : (if 0 < (offset + length) % 64 then
          ((mask.mapWords (offset / 64) 1 first).mapWords (offset / 64 + 1)
            ((offset + length) / 64 - (offset / 64 + 1)) whole).mapWords
            ((offset + length) / 64) 1 last
        else (mask.mapWords (offset / 64) 1 first).mapWords (offset / 64 + 1)
            ((offset + length) / 64 - (offset / 64 + 1)) whole) word =
          (mask.mapWords (offset / 64) 1 first).mapWords (offset / 64 + 1)
            ((offset + length) / 64 - (offset / 64 + 1)) whole word := by
        split
        · rw [mapWords_apply, if_neg (by omega)]
        · rfl
      rw [notTouched, mapWords_apply]
      by_cases between : offset / 64 < word ∧ word < (offset + length) / 64
      · rw [if_pos (by omega), wholeBits _ _ bound, if_pos (Or.inr (Or.inl between))]
      · rw [if_neg (by omega), mapWords_apply]
        by_cases isFirst : word = offset / 64
        · rw [if_pos (by omega), firstBits _ _ bound]
          congr 1
          rw [eq_iff_iff]
          omega
        · rw [if_neg (by omega), if_neg (by omega)]

/-- Marking sets exactly the bits of the range. -/
theorem bit_mark (offset length position : Nat) :
    (mask.mark offset length).bit position =
      if offset ≤ position ∧ position < offset + length then true
      else mask.bit position := by
  apply bit_changeRange
  · intro within word index bound
    rw [BitVec.getLsbD_or, getLsbD_inWord (Nat.le_of_lt within) bound]
    split_ifs with covered <;> simp [covered]
  · intro word index bound
    rw [BitVec.getLsbD_or, getLsbD_fromBit bound]
    split_ifs with covered <;> simp [covered]
  · intro word index bound
    rw [getLsbD_allOnes, decide_eq_true bound]
  · intro word index bound
    rw [BitVec.getLsbD_or, getLsbD_lowOnes (Nat.mod_lt _ (by decide))]
    split_ifs with covered <;> simp [covered]

/-- Clearing resets exactly the bits of the range. -/
theorem bit_clear (offset length position : Nat) :
    (mask.clear offset length).bit position =
      if offset ≤ position ∧ position < offset + length then false
      else mask.bit position := by
  apply bit_changeRange
  · intro within word index bound
    rw [BitVec.getLsbD_and, BitVec.getLsbD_not, getLsbD_inWord (Nat.le_of_lt within) bound]
    split_ifs with covered <;> simp [covered, bound]
  · intro word index bound
    have complement : (if offset % 64 = 0 then 0 else ~~~(allOnes <<< (offset % 64))) =
        ~~~fromBit (offset % 64) := by
      unfold fromBit
      split_ifs
      · rfl
      · rfl
    rw [complement, BitVec.getLsbD_and, BitVec.getLsbD_not, getLsbD_fromBit bound]
    split_ifs with covered <;> simp [covered, bound]
  · intro word index bound
    exact BitVec.getLsbD_zero
  · intro word index bound
    rw [BitVec.getLsbD_and, BitVec.getLsbD_not, getLsbD_lowOnes (Nat.mod_lt _ (by decide))]
    split_ifs with covered <;> simp [covered, bound]

/-! ## Testing ranges -/

/-- A word meets a mask word when they share a bit. -/
theorem and_ne_zero_iff (word other : BitVec 64) :
    word &&& other ≠ 0 ↔ ∃ index < 64, word.getLsbD index = true ∧ other.getLsbD index = true := by
  rw [ne_zero_iff]
  simp only [BitVec.getLsbD_and, Bool.and_eq_true]

theorem exists_bit_iff {property : Nat → Prop} :
    (∃ position, property position) ↔ ∃ word index, index < 64 ∧ property (64 * word + index) := by
  constructor
  · rintro ⟨position, holds⟩
    refine ⟨position / 64, position % 64, Nat.mod_lt _ (by decide), ?_⟩
    rwa [Nat.div_add_mod]
  · rintro ⟨word, index, _, holds⟩
    exact ⟨_, holds⟩

/-- The overlap test asks whether a bit of the range is set. -/
theorem overlaps_iff :
    mask.overlaps offset length = true ↔
      ∃ position, (offset ≤ position ∧ position < offset + length) ∧ mask.bit position = true := by
  rw [exists_bit_iff]
  unfold overlaps
  by_cases sameWord : offset / 64 = (offset + length) / 64
  · rw [if_pos sameWord, decide_eq_true_iff, and_ne_zero_iff]
    constructor
    · rintro ⟨index, bound, isSet, covered⟩
      rw [getLsbD_inWord (by omega) bound, decide_eq_true_iff] at covered
      refine ⟨offset / 64, index, bound, ?_, ?_⟩
      · rw [inRange_same bound sameWord]
        exact ⟨rfl, covered⟩
      · rw [bit_mul_add _ _ bound]
        exact isSet
    · rintro ⟨word, index, bound, covered, isSet⟩
      rw [inRange_same bound sameWord] at covered
      rw [bit_mul_add _ _ bound, covered.1] at isSet
      refine ⟨index, bound, isSet, ?_⟩
      rw [getLsbD_inWord (by omega) bound, decide_eq_true_iff]
      exact covered.2
  · rw [if_neg sameWord]
    simp only [Bool.or_eq_true, decide_eq_true_iff, Bool.and_eq_true, List.any_eq_true,
      List.mem_range'_1, ne_zero_iff, BitVec.getLsbD_and]
    constructor
    · rintro ((⟨index, bound, isSet, covered⟩ | ⟨word, ⟨lower, upper⟩, index, bound, isSet⟩) |
        ⟨entered, index, bound, isSet, covered⟩)
      · rw [getLsbD_fromBit bound, decide_eq_true_iff] at covered
        refine ⟨offset / 64, index, bound, ?_, ?_⟩
        · rw [inRange_across bound sameWord]
          exact Or.inl ⟨rfl, covered⟩
        · rw [bit_mul_add _ _ bound]
          exact isSet
      · refine ⟨word, index, bound, ?_, ?_⟩
        · omega
        · rw [bit_mul_add _ _ bound]
          exact isSet
      · rw [getLsbD_lowOnes (Nat.mod_lt _ (by decide)), decide_eq_true_iff] at covered
        refine ⟨(offset + length) / 64, index, bound, ?_, ?_⟩
        · rw [inRange_across bound sameWord]
          exact Or.inr (Or.inr ⟨rfl, covered⟩)
        · rw [bit_mul_add _ _ bound]
          exact isSet
    · rintro ⟨word, index, bound, covered, isSet⟩
      rw [bit_mul_add _ _ bound] at isSet
      rw [inRange_across bound sameWord] at covered
      rcases covered with ⟨rfl, covered⟩ | between | ⟨rfl, covered⟩
      · refine Or.inl (Or.inl ⟨index, bound, isSet, ?_⟩)
        rw [getLsbD_fromBit bound, decide_eq_true_iff]
        exact covered
      · exact Or.inl (Or.inr ⟨word, by omega, index, bound, isSet⟩)
      · refine Or.inr ⟨by omega, index, bound, isSet, ?_⟩
        rw [getLsbD_lowOnes (Nat.mod_lt _ (by decide)), decide_eq_true_iff]
        exact covered

/-! ## Sliding -/

theorem bit_slideWords {words word index : Nat} (bound : index < 64) (inside : word < maskLongs) :
    (mask.slideWords words).bit (64 * word + index) =
      if word + words < maskLongs then mask.bit (64 * (word + words) + index)
      else false := by
  rw [bit_mul_add _ _ bound, bit_mul_add _ _ bound, slideWords]
  split_ifs
  · rfl
  · exact BitVec.getLsbD_zero

/-- The loop in place gives what a loop that reads a copy of the mask gives. -/
theorem slideBits_apply (bits word : Nat) :
    mask.slideBits bits word =
      if word + 1 < maskLongs then (mask word >>> bits) ||| (mask (word + 1) <<< (64 - bits))
      else if word + 1 = maskLongs then mask word >>> bits
      else mask word := by
  have size : maskLongs = 1024 := rfl
  unfold slideBits
  rw [mapWords_apply, sweep_apply]
  · by_cases inner : word + 1 < maskLongs
    · rw [if_neg (by omega), if_pos (by omega), if_pos inner]
    · have passed : ¬(0 ≤ word ∧ word < 0 + (maskLongs - 1)) := by omega
      rw [if_neg inner, if_neg passed]
      by_cases last : word + 1 = maskLongs
      · rw [if_pos (by omega), if_pos last]
      · rw [if_neg (by omega), if_neg last]
  · intro mask other word same
    rw [same word le_rfl, same (word + 1) (Nat.le_succ word)]

theorem bit_slideBits {bits word index : Nat} (bound : index < 64) (inside : word < maskLongs)
    (positive : 0 < bits) (small : bits < 64) :
    (mask.slideBits bits).bit (64 * word + index) =
      if 64 * word + index + bits < windowSize then mask.bit (64 * word + index + bits)
      else false := by
  rw [bit_mul_add _ _ bound, slideBits_apply]
  by_cases stays : index + bits < 64
  · have here : mask.bit (64 * word + index + bits) = (mask word).getLsbD (index + bits) := by
      rw [Nat.add_assoc, bit_mul_add _ _ stays]
    have below : 64 * word + index + bits < windowSize := by
      unfold windowSize maskLongs at *
      omega
    rw [if_pos below, here]
    by_cases inner : word + 1 < maskLongs
    · rw [if_pos inner, BitVec.getLsbD_or, BitVec.getLsbD_ushiftRight,
        BitVec.getLsbD_shiftLeft, decide_eq_true (by omega : index < 64 - bits)]
      simp [Nat.add_comm]
    · rw [if_neg inner, if_pos (by omega), BitVec.getLsbD_ushiftRight, Nat.add_comm]
  · have high : (mask word).getLsbD (bits + index) = false :=
      BitVec.getLsbD_of_ge _ _ (by omega)
    have next : mask.bit (64 * word + index + bits) =
        (mask (word + 1)).getLsbD (index + bits - 64) := by
      rw [← bit_mul_add mask (word + 1) (by omega)]
      congr 1
      omega
    rw [next]
    by_cases inner : word + 1 < maskLongs
    · have below : 64 * word + index + bits < windowSize := by
        unfold windowSize maskLongs at *
        omega
      rw [if_pos inner, if_pos below, BitVec.getLsbD_or, BitVec.getLsbD_ushiftRight,
        BitVec.getLsbD_shiftLeft, high, decide_eq_true bound,
        decide_eq_false (by omega : ¬index < 64 - bits)]
      simp only [Bool.false_or, Bool.not_false, Bool.true_and]
      congr 1
      omega
    · have beyond : ¬64 * word + index + bits < windowSize := by
        unfold windowSize maskLongs at *
        omega
      rw [if_neg inner, if_pos (by omega), if_neg beyond, BitVec.getLsbD_ushiftRight, high]

/-- Sliding moves every bit down by the shift and clears the top of the window. -/
theorem bit_slide {shiftBytes position : Nat} (bound : position < windowSize) :
    (mask.slide shiftBytes).bit position =
      if position + shiftBytes < windowSize then mask.bit (position + shiftBytes)
      else false := by
  have byWords : ∀ position < windowSize,
      (if 0 < shiftBytes / 64 then mask.slideWords (shiftBytes / 64) else mask).bit position =
        if position + 64 * (shiftBytes / 64) < windowSize then
          mask.bit (position + 64 * (shiftBytes / 64)) else false := by
    intro position bound
    have split := Nat.div_add_mod position 64
    have inner := Nat.mod_lt position (by decide : 64 > 0)
    have inside : position / 64 < maskLongs := by
      unfold windowSize maskLongs at *
      omega
    by_cases moves : 0 < shiftBytes / 64
    · rw [if_pos moves, ← split, bit_slideWords _ inner inside]
      unfold windowSize maskLongs at *
      congr 1
      · rw [eq_iff_iff]
        omega
      · congr 1
        omega
    · rw [if_neg moves, if_pos (by omega)]
      congr 1
      omega
  unfold slide
  by_cases moves : 0 < shiftBytes % 64
  · have split := Nat.div_add_mod position 64
    have inner := Nat.mod_lt position (by decide : 64 > 0)
    have inside : position / 64 < maskLongs := by
      unfold windowSize maskLongs at *
      omega
    rw [if_pos moves, ← split, bit_slideBits _ inner inside moves (Nat.mod_lt _ (by decide)), split]
    by_cases below : position + shiftBytes % 64 < windowSize
    · rw [if_pos below, byWords _ below]
      congr 1
      · rw [eq_iff_iff]
        omega
      · congr 1
        omega
    · rw [if_neg below, if_neg (by omega)]
  · rw [if_neg moves, byWords _ bound]
    congr 1
    · rw [eq_iff_iff]
      omega
    · congr 1
      omega

/-! ## The words accessed -/

/-- The words that the overlap test, the marking and the clearing of a range access. -/
def touched : List Nat :=
  let startWord := offset / 64
  let endWord := (offset + length) / 64
  if startWord = endWord then [startWord]
  else
    List.range' startWord (endWord - startWord) ++
      if 0 < (offset + length) % 64 then [endWord] else []

theorem mem_touched_iff {word : Nat} (positive : 0 < length) :
    word ∈ touched offset length ↔ offset / 64 ≤ word ∧ 64 * word < offset + length := by
  dsimp only [touched]
  split_ifs <;> simp only [List.mem_append, List.mem_range'_1, List.mem_singleton,
    List.not_mem_nil, or_false] <;> omega

/-- The overlap test reads the words it accesses and no others. -/
theorem overlaps_congr {mask other : Mask} (positive : 0 < length)
    (same : ∀ word ∈ touched offset length, other word = mask word) :
    other.overlaps offset length = mask.overlaps offset length := by
  rw [Bool.eq_iff_iff, overlaps_iff, overlaps_iff]
  refine exists_congr fun position => and_congr_right fun range => ?_
  rw [bit, bit, same _ ((mem_touched_iff offset length positive).mpr (by omega))]

/-- An operation changes these words only, and what it puts into them depends on them only. -/
def Confined (words : List Nat) (operation : Mask → Mask) : Prop :=
  (∀ word ∉ words, operation mask word = mask word) ∧
    ∀ other : Mask, (∀ word ∈ words, other word = mask word) →
      ∀ word ∈ words, operation other word = operation mask word

theorem eq_of_bit {mask other : Mask} {word : Nat}
    (same : ∀ index < 64, other.bit (64 * word + index) = mask.bit (64 * word + index)) :
    other word = mask word := by
  refine BitVec.eq_of_getLsbD_eq fun index bound => ?_
  rw [← bit_mul_add _ _ bound, same index bound, bit_mul_add _ _ bound]

/-- Writing one value to the bits of a range is confined to the words it accesses. -/
theorem confined_of_bits (positive : 0 < length) {operation : Mask → Mask} {value : Bool}
    (bits : ∀ (mask : Mask) (position : Nat), (operation mask).bit position =
      if offset ≤ position ∧ position < offset + length then value else mask.bit position) :
    mask.Confined (touched offset length) operation := by
  constructor
  · intro word outside
    rw [mem_touched_iff offset length positive] at outside
    refine eq_of_bit fun index bound => ?_
    rw [bits, if_neg (by omega)]
  · intro other same word member
    refine eq_of_bit fun index bound => ?_
    rw [bits, bits, bit_mul_add _ _ bound, bit_mul_add _ _ bound, same word member]

theorem slide_of_le {shiftBytes word : Nat} (outside : maskLongs ≤ word) :
    mask.slide shiftBytes word = mask word := by
  have kept : ∀ mask : Mask, mask.slideBits (shiftBytes % 64) word = mask word := fun mask => by
    rw [slideBits_apply, if_neg (by omega), if_neg (by omega)]
  have moved : mask.slideWords (shiftBytes / 64) word = mask word := if_neg (by omega)
  unfold slide
  split_ifs <;> simp only [kept, moved]

/-- The operations on words are the operations on bits, and stay inside the array. -/
theorem wordOperations_exact (positive : 0 < length) (inside : offset + length ≤ windowSize) :
    (mask.overlaps offset length = true ↔
        ∃ position, (offset ≤ position ∧ position < offset + length) ∧ mask.bit position = true) ∧
      (∀ position, (mask.mark offset length).bit position =
        if offset ≤ position ∧ position < offset + length then true else mask.bit position) ∧
      (∀ position, (mask.clear offset length).bit position =
        if offset ≤ position ∧ position < offset + length then false else mask.bit position) ∧
      (∀ word ∈ touched offset length, word < maskLongs) ∧
      mask.Confined (touched offset length) (·.mark offset length) ∧
      mask.Confined (touched offset length) (·.clear offset length) ∧
      (∀ other : Mask, (∀ word ∈ touched offset length, other word = mask word) →
        other.overlaps offset length = mask.overlaps offset length) ∧
      ∀ shiftBytes < windowSize, (∀ position < windowSize, (mask.slide shiftBytes).bit position =
          if position + shiftBytes < windowSize then mask.bit (position + shiftBytes)
          else false) ∧
        ∀ word, maskLongs ≤ word → mask.slide shiftBytes word = mask word := by
  refine ⟨mask.overlaps_iff offset length, mask.bit_mark offset length,
    mask.bit_clear offset length, fun word member => ?_,
    mask.confined_of_bits offset length positive fun mask => mask.bit_mark offset length,
    mask.confined_of_bits offset length positive fun mask => mask.bit_clear offset length,
    fun other => overlaps_congr offset length positive, fun shiftBytes _ => ?_⟩
  · rw [mem_touched_iff offset length positive] at member
    unfold windowSize at inside
    unfold maskLongs
    omega
  · exact ⟨fun position => mask.bit_slide, fun word => mask.slide_of_le⟩

theorem wordOperations_exact_one :
    65535 + 1 ≤ windowSize ∧ (mark (fun _ => 0) 65535 1).bit 65535 = true :=
  ⟨by decide, ((wordOperations_exact (fun _ => 0) 65535 1 (by decide) (by decide)).2.1 65535).trans
    (if_pos (by decide))⟩

end Mask

end SlabFlux.Net.OooMatrix
