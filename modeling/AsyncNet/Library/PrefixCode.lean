/-
This file develops bit strings and prefix codes over an arbitrary alphabet.

A number of a given width is read as a list of bits, most significant first, and
back. A greedy decoder reads bits one at a time, looks the bits read since the
last symbol up, and emits a symbol as soon as the lookup succeeds. It inverts the
concatenation of code words as soon as no proper prefix of a word that occurs is
itself looked up successfully; nothing is asked of words that do not occur, so a
code that is a prefix code on part of its alphabet only is still inverted on that
part.
-/

import Mathlib.Data.List.Induction
import Mathlib.Data.Nat.Bitwise
import Mathlib.Tactic.Ring

namespace AsyncNet.Library

/-! ### Numbers as bit strings -/

/-- The lowest `width` bits of a number, most significant first. -/
def msbBits : Nat → Nat → List Bool
  | 0, _ => []
  | width + 1, value => value.testBit width :: msbBits width value

/-- The number a bit string denotes, most significant bit first. -/
def ofBits (bits : List Bool) : Nat := bits.foldl (fun value bit => 2 * value + bit.toNat) 0

@[simp] theorem msbBits_length (width value : Nat) : (msbBits width value).length = width := by
  induction width with
  | zero => rfl
  | succ width inductionHypothesis => rw [msbBits, List.length_cons, inductionHypothesis]

theorem ofBits_append_singleton (bits : List Bool) (bit : Bool) :
    ofBits (bits ++ [bit]) = 2 * ofBits bits + bit.toNat := by
  rw [ofBits, List.foldl_append]
  rfl

theorem ofBits_lt (bits : List Bool) : ofBits bits < 2 ^ bits.length := by
  induction bits using List.reverseRecOn with
  | nil => decide
  | append_singleton bits bit inductionHypothesis =>
    rw [ofBits_append_singleton, List.length_append, List.length_singleton, Nat.pow_succ]
    cases bit <;> simp only [Bool.toNat_false, Bool.toNat_true] <;> omega

/-- Two numbers that agree on the lowest bits have the same bit string. -/
theorem msbBits_congr (width first second : Nat)
    (agree : ∀ index < width, first.testBit index = second.testBit index) :
    msbBits width first = msbBits width second := by
  induction width with
  | zero => rfl
  | succ width inductionHypothesis =>
    rw [msbBits, msbBits, agree width (Nat.lt_succ_self width),
      inductionHypothesis fun index small => agree index (Nat.lt_succ_of_lt small)]

theorem msbBits_mod (width modulus value : Nat) (small : width ≤ modulus) :
    msbBits width (value % 2 ^ modulus) = msbBits width value := by
  refine msbBits_congr width _ _ fun index below => ?_
  rw [Nat.testBit_mod_two_pow, decide_eq_true (Nat.lt_of_lt_of_le below small), Bool.true_and]

/-- A number splits at any position into its high and its low bits. -/
theorem msbBits_add (high low value : Nat) :
    msbBits (high + low) value = msbBits high (value >>> low) ++ msbBits low value := by
  induction high with
  | zero => rw [Nat.zero_add, msbBits, List.nil_append]
  | succ high inductionHypothesis =>
    rw [Nat.succ_add, msbBits, msbBits, inductionHypothesis, Nat.testBit_shiftRight,
      Nat.add_comm low high, List.cons_append]

/-- Shifting a number up and filling the low bits appends the fill. -/
theorem msbBits_shiftLeft_or (high low value fill : Nat) (fits : fill < 2 ^ low) :
    msbBits (high + low) (value <<< low ||| fill) = msbBits high value ++ msbBits low fill := by
  rw [msbBits_add]
  refine congrArg₂ (· ++ ·) (msbBits_congr _ _ _ fun index _ => ?_)
    (msbBits_congr _ _ _ fun index below => ?_)
  · have zero : fill.testBit (low + index) = false :=
      Nat.testBit_lt_two_pow (lt_of_lt_of_le fits
        (Nat.pow_le_pow_right (by norm_num) (Nat.le_add_right low index)))
    rw [Nat.testBit_shiftRight, Nat.testBit_or, Nat.testBit_shiftLeft, zero]
    simp
  · rw [Nat.testBit_or, Nat.testBit_shiftLeft]
    simp [Nat.not_le_of_lt below]

theorem msbBits_take (width count value : Nat) (small : count ≤ width) :
    (msbBits width value).take count = msbBits count (value >>> (width - count)) := by
  obtain ⟨rest, rfl⟩ := Nat.exists_eq_add_of_le small
  rw [msbBits_add, Nat.add_sub_cancel_left, List.take_left' (msbBits_length _ _)]

/-- Reading a number back from its bits. -/
theorem ofBits_msbBits (width value : Nat) (fits : value < 2 ^ width) :
    ofBits (msbBits width value) = value := by
  induction width generalizing value with
  | zero =>
    have zero : value = 0 := by simpa using fits
    rw [zero]
    rfl
  | succ width inductionHypothesis =>
    have half : value >>> 1 < 2 ^ width := by
      rw [Nat.shiftRight_eq_div_pow]
      omega
    rw [msbBits_add width 1 value,
      show msbBits 1 value = [value.testBit 0] from rfl, ofBits_append_singleton,
      inductionHypothesis _ half, Nat.testBit_zero, Nat.shiftRight_eq_div_pow]
    rcases Nat.mod_two_eq_zero_or_one value with even | odd
    · rw [even]
      simp
      omega
    · rw [odd]
      simp
      omega

theorem msbBits_ones (width : Nat) : msbBits width (2 ^ width - 1) = List.replicate width true := by
  refine List.eq_replicate_iff.mpr ⟨msbBits_length _ _, fun bit member => ?_⟩
  have ones : ∀ count ≤ width, ∀ bit ∈ msbBits count (2 ^ width - 1), bit = true := by
    intro count
    induction count with
    | zero => intro _ bit none; cases none
    | succ count inductionHypothesis =>
      intro small bit member
      rw [msbBits, List.mem_cons] at member
      rcases member with here | rest
      · rw [here, Nat.testBit_two_pow_sub_one]
        exact decide_eq_true small
      · exact inductionHypothesis (Nat.le_of_succ_le small) bit rest
  exact ones width le_rfl bit member

theorem ofBits_replicate_true (width : Nat) :
    ofBits (List.replicate width true) = 2 ^ width - 1 := by
  rw [← msbBits_ones, ofBits_msbBits]
  have positive := Nat.two_pow_pos width
  omega

/-- Reading the bits of a number that was read from bits. -/
theorem msbBits_ofBits (bits : List Bool) : msbBits bits.length (ofBits bits) = bits := by
  induction bits using List.reverseRecOn with
  | nil => rfl
  | append_singleton bits bit inductionHypothesis =>
    have shift : ofBits bits <<< 1 ||| bit.toNat = 2 * ofBits bits + bit.toNat := by
      rw [Nat.shiftLeft_eq, Nat.pow_one, Nat.mul_comm,
        ← Nat.two_pow_add_eq_or_of_lt (i := 1) (by cases bit <;> decide) (ofBits bits)]
    rw [List.length_append, List.length_singleton, ofBits_append_singleton, ← shift,
      msbBits_shiftLeft_or _ _ _ _ (by cases bit <;> decide), inductionHypothesis]
    cases bit <;> rfl

/-- The bits of the greatest number of a width are ones. -/
theorem ofBits_eq_ones_iff (bits : List Bool) :
    ofBits bits = 2 ^ bits.length - 1 ↔ bits = List.replicate bits.length true := by
  constructor
  · intro ones
    rw [← msbBits_ones, ← ones, msbBits_ofBits]
  · intro ones
    rw [← ofBits_replicate_true, ← ones]

/-! ### Greedy decoding -/

variable {Symbol : Type*}

/-- Read bits one at a time, starting from the bits already read since the last symbol, and
emit a symbol as soon as those bits are found. The second component is what is left over. The
decoder gives up when more than `limit` bits have been read without a symbol. -/
def greedy (find : List Bool → Option Symbol) (limit : Nat) :
    List Bool → List Bool → Option (List Symbol × List Bool)
  | pending, [] => some ([], pending)
  | pending, bit :: bits =>
      match find (pending ++ [bit]) with
      | some symbol =>
          (greedy find limit [] bits).map fun later => (symbol :: later.1, later.2)
      | none =>
          if limit < pending.length + 1 then none else greedy find limit (pending ++ [bit]) bits

/-- The lookup recognises the code word of a symbol, and none of its proper prefixes. -/
structure Recognises (find : List Bool → Option Symbol) (limit : Nat) (word : Symbol → List Bool)
    (symbol : Symbol) : Prop where
  nonempty : word symbol ≠ []
  bounded : (word symbol).length ≤ limit
  found : find (word symbol) = some symbol
  early : ∀ count, 0 < count → count < (word symbol).length →
    find ((word symbol).take count) = none

/-- While nothing is found the bits only accumulate. -/
theorem greedy_append_of_none (find : List Bool → Option Symbol) (limit : Nat)
    (pending bits rest : List Bool) (bounded : pending.length + bits.length ≤ limit)
    (missing : ∀ count, 0 < count → count ≤ bits.length →
      find (pending ++ bits.take count) = none) :
    greedy find limit pending (bits ++ rest) = greedy find limit (pending ++ bits) rest := by
  induction bits generalizing pending with
  | nil => rw [List.nil_append, List.append_nil]
  | cons bit bits inductionHypothesis =>
    have first : find (pending ++ [bit]) = none := by
      simpa using missing 1 Nat.one_pos (by simp)
    rw [List.length_cons] at bounded
    have later := inductionHypothesis (pending ++ [bit])
      (by rw [List.length_append, List.length_singleton]; omega)
      fun count positive small => by
        simpa using missing (count + 1) (Nat.succ_pos count) (by simpa using small)
    rw [List.cons_append, greedy, first]
    show (if limit < pending.length + 1 then none
      else greedy find limit (pending ++ [bit]) (bits ++ rest)) = _
    rw [if_neg (by omega), later, List.append_assoc, List.singleton_append]

/-- A recognised code word is decoded to its symbol. -/
theorem greedy_word (find : List Bool → Option Symbol) (limit : Nat) (word : Symbol → List Bool)
    (symbol : Symbol) (recognises : Recognises find limit word symbol) (rest : List Bool) :
    greedy find limit [] (word symbol ++ rest) =
      (greedy find limit [] rest).map fun later => (symbol :: later.1, later.2) := by
  obtain ⟨front, last, split⟩ :=
    (List.eq_nil_or_concat (word symbol)).resolve_left recognises.nonempty
  rw [List.concat_eq_append] at split
  have shorter : front.length < (word symbol).length := by simp [split]
  have missing : ∀ count, 0 < count → count ≤ front.length →
      find ([] ++ front.take count) = none := by
    intro count positive small
    have early := recognises.early count positive (Nat.lt_of_le_of_lt small shorter)
    rw [split, List.take_append_of_le_length small] at early
    rwa [List.nil_append]
  have found : find (front ++ [last]) = some symbol := by
    rw [← split]
    exact recognises.found
  have bounded := recognises.bounded
  rw [split, List.append_assoc, greedy_append_of_none find limit [] front ([last] ++ rest)
    (by rw [List.length_nil]; omega) missing, List.nil_append, List.singleton_append, greedy, found]

/-- Recognised code words are decoded to their symbols, whatever follows. -/
theorem greedy_flatMap_append (find : List Bool → Option Symbol) (limit : Nat)
    (word : Symbol → List Bool) (symbols : List Symbol)
    (recognises : ∀ symbol ∈ symbols, Recognises find limit word symbol) (rest : List Bool) :
    greedy find limit [] (symbols.flatMap word ++ rest) =
      (greedy find limit [] rest).map fun later => (symbols ++ later.1, later.2) := by
  induction symbols with
  | nil => simp
  | cons symbol symbols inductionHypothesis =>
    rw [List.flatMap_cons, List.append_assoc,
      greedy_word find limit word symbol (recognises symbol List.mem_cons_self),
      inductionHypothesis fun other member => recognises other (List.mem_cons_of_mem _ member),
      Option.map_map]
    rfl

/-- A concatenation of recognised code words, followed by bits in which nothing is found, is
decoded to its symbols with those bits left over. -/
theorem greedy_flatMap (find : List Bool → Option Symbol) (limit : Nat)
    (word : Symbol → List Bool) (symbols : List Symbol)
    (recognises : ∀ symbol ∈ symbols, Recognises find limit word symbol) (tail : List Bool)
    (bounded : tail.length ≤ limit)
    (missing : ∀ count, 0 < count → count ≤ tail.length → find (tail.take count) = none) :
    greedy find limit [] (symbols.flatMap word ++ tail) = some (symbols, tail) := by
  have alone := greedy_append_of_none find limit [] tail []
    (by simpa using bounded) (by simpa using missing)
  rw [List.append_nil, List.nil_append, greedy] at alone
  rw [greedy_flatMap_append find limit word symbols recognises, alone, Option.map_some,
    List.append_nil]

/-- What has been decoded is what was read, if the lookup only finds code words. -/
theorem greedy_sound (find : List Bool → Option Symbol) (limit : Nat) (word : Symbol → List Bool)
    (sound : ∀ bits symbol, find bits = some symbol → word symbol = bits)
    (pending bits tail : List Bool) (symbols : List Symbol)
    (decoded : greedy find limit pending bits = some (symbols, tail)) :
    pending ++ bits = symbols.flatMap word ++ tail := by
  induction bits generalizing pending symbols with
  | nil =>
    cases decoded
    rw [List.append_nil, List.flatMap_nil, List.nil_append]
  | cons bit bits inductionHypothesis =>
    rw [greedy] at decoded
    rw [← List.singleton_append, ← List.append_assoc]
    cases found : find (pending ++ [bit]) with
    | some symbol =>
      rw [found] at decoded
      obtain ⟨⟨later, left⟩, rest, same⟩ := Option.map_eq_some_iff.mp decoded
      cases same
      rw [List.flatMap_cons, sound _ _ found, List.append_assoc _ (later.flatMap word),
        ← inductionHypothesis [] later rest, List.nil_append]
    | none =>
      rw [found] at decoded
      dsimp only at decoded
      split at decoded
      · cases decoded
      · exact inductionHypothesis _ symbols decoded

/-! ### Tables of code words -/

/-- The lookup in a list of code words. -/
def wordIndex (words : List (List Bool)) (bits : List Bool) : Option Nat :=
  words.findIdx? (· = bits)

theorem wordIndex_sound (words : List (List Bool)) (bits : List Bool) (index : Nat)
    (found : wordIndex words bits = some index) : words.getD index [] = bits := by
  obtain ⟨below, same, _⟩ := List.findIdx?_eq_some_iff_getElem.mp found
  rw [List.getD_eq_getElem _ _ below]
  exact of_decide_eq_true same

/-- A code word that no other one is a prefix of is recognised. -/
theorem recognises_wordIndex (words : List (List Bool)) (limit index : Nat)
    (below : index < words.length) (nonempty : words.getD index [] ≠ [])
    (bounded : (words.getD index []).length ≤ limit)
    (alone : ∀ other, words.getD other [] <+: words.getD index [] → other < words.length →
      other = index) :
    Recognises (wordIndex words) limit (fun index => words.getD index []) index where
  nonempty := nonempty
  bounded := bounded
  found := by
    refine List.findIdx?_eq_some_iff_getElem.mpr ⟨below, ?_, fun other earlier same => ?_⟩
    · rw [← List.getD_eq_getElem words [] below]
      exact decide_eq_true rfl
    · have inRange := earlier.trans below
      have equal := of_decide_eq_true same
      rw [← List.getD_eq_getElem words [] inRange] at equal
      exact absurd (alone other (equal ▸ List.prefix_rfl) inRange) earlier.ne
  early := by
    intro count _ shorter
    refine List.findIdx?_eq_none_iff.mpr fun word member => decide_eq_false fun same => ?_
    obtain ⟨other, inRange, rfl⟩ := List.getElem_of_mem member
    rw [← List.getD_eq_getElem words [] inRange] at same
    have itself := alone other (same ▸ List.take_prefix _ _) inRange
    rw [itself] at same
    have length := congrArg List.length same
    rw [List.length_take] at length
    omega

end AsyncNet.Library
