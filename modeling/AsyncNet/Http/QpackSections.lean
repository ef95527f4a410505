/-
This file is about field sections that are not well formed. `qpack_decoder::decode` leaves its
loop at the end of the section and at a field line that it cannot read, and it returns the
headers that it has read in both cases. So a section of which one line is bad behind good ones
is read as if it ended there.

The section is walked here without the loop: `Lines` says which lines stand one behind the
other, and `Stops` where the loop ends. Below the range of `int` the loop stops at the end of
the section or at a bad line. In a longer section the length wraps, and it stops at the low bits
of the length too.
-/

import AsyncNet.Http.HpackRoundTrip
import AsyncNet.Http.QpackStream
import AsyncNet.Http.StringBounds

namespace AsyncNet.Http.H3

open H2 Library

namespace QpackDecoder

/-! ### Sections -/

/-- The field section prefix: the base, and the `int` position behind it. -/
def sectionStart (decoder : QpackDecoder) (data : Bytes) : Option (Nat × Int) :=
  if data.length < 2 then none
  else
    match qpackDecodeInt data 8 with
    | none => none
    | some (encoded, consumed) =>
        match qpackDecodeInt (data.drop consumed) 7 with
        | none => none
        | some (deltaBase, deltaConsumed) =>
            some (sectionBase (decoder.requiredInsertCount encoded) deltaBase
              (data.getD consumed 0 &&& 0x80 ≠ 0),
              wrapInt32 ((consumed + deltaConsumed : Nat) : Int))

theorem decode_eq (decoder : QpackDecoder) (data : Bytes) :
    decoder.decode data =
      match decoder.sectionStart data with
      | none => .ok []
      | some (base, start) => decoder.fieldLines data base (data.length + 1) start := by
  unfold decode sectionStart
  split
  · rfl
  · cases qpackDecodeInt data 8 with
    | none => rfl
    | some found =>
      dsimp only
      cases qpackDecodeInt (data.drop found.2) 7 with
      | none => rfl
      | some delta => rfl

/-- Field lines that parse one behind the other, and what is left behind them. -/
inductive Lines (decoder : QpackDecoder) (base : Nat) : Bytes → Headers → Bytes → Prop
  | nil (rest : Bytes) : Lines decoder base rest [] rest
  | cons {rest last : Bytes} {header : Header} {headers : Headers} {length : Int}
      (line : decoder.decodeFieldLine rest base = .ok (some (header, length)))
      (positive : 0 < length) (inside : length ≤ rest.length)
      (later : Lines decoder base (rest.drop length.toNat) headers last) :
      Lines decoder base rest (header :: headers) last

/-- The section is valid: its prefix and all of its field lines, up to its last byte, parse. -/
def Whole (decoder : QpackDecoder) (data : Bytes) : Prop :=
  ∃ base start headers, decoder.sectionStart data = some (base, start) ∧ 0 ≤ start ∧
    Lines decoder base (data.drop start.toNat) headers []

/-- A field line that does not parse stands behind one or more that do. -/
def BadLineBehind (decoder : QpackDecoder) (data : Bytes) : Prop :=
  ∃ base start good bad, decoder.sectionStart data = some (base, start) ∧
    Lines decoder base (data.drop start.toNat) good bad ∧ good ≠ [] ∧ bad ≠ [] ∧
    decoder.decodeFieldLine bad base = .ok none

/-- The field lines that the loop of `decode` takes from a position on, and where they end. -/
inductive Walk (decoder : QpackDecoder) (data : Bytes) (base : Nat) : Int → Headers → Int → Prop
  | nil (position : Int) : Walk decoder data base position [] position
  | cons {position last length : Int} {header : Header} {headers : Headers}
      (before : position < wrapInt32 data.length) (nonneg : 0 ≤ position)
      (line : decoder.decodeFieldLine (data.drop position.toNat) base =
        .ok (some (header, length)))
      (positive : 0 < length)
      (later : Walk decoder data base (wrapInt32 (position + length)) headers last) :
      Walk decoder data base position (header :: headers) last

/-- The loop of `decode` ends at a position. -/
def Stops (decoder : QpackDecoder) (data : Bytes) (base : Nat) (position : Int) : Prop :=
  ¬ position < wrapInt32 data.length ∨
    0 ≤ position ∧ ∃ line, decoder.decodeFieldLine (data.drop position.toNat) base = .ok line ∧
      ∀ header length, line = some (header, length) → length ≤ 0

/-- The loop takes only sections that are valid. Below the range of `int` this means that no bad
line stands behind a good one. Above it, the lines that are taken before the loop ends are looked
at; the model of the loop also ends when it has taken more lines than there are bytes. -/
def TakesWhole (decoder : QpackDecoder) (data : Bytes) : Prop :=
  if data.length < 2 ^ 31 then ¬ decoder.BadLineBehind data
  else
    ∀ base start good last, decoder.sectionStart data = some (base, start) →
      Walk decoder data base start good last → good.length ≤ data.length + 1 →
      Stops decoder data base last ∨ good.length = data.length + 1 → good ≠ [] →
      decoder.Whole data

/-! ### The loop -/

variable {decoder : QpackDecoder} {data : Bytes} {base : Nat}

/-- The loop returns the lines of a walk to where it ends. -/
theorem Walk.fieldLines {position last : Int} {headers : Headers}
    (walk : Walk decoder data base position headers last) (passes : Nat)
    (few : headers.length ≤ passes)
    (ends : Stops decoder data base last ∨ headers.length = passes) :
    decoder.fieldLines data base passes position = .ok headers := by
  induction walk generalizing passes with
  | nil position =>
    cases passes with
    | zero => rfl
    | succ passes =>
      rcases ends with stops | wrong
      · unfold QpackDecoder.fieldLines
        rcases stops with behind | ⟨nonneg, line, read, bad⟩
        · rw [if_neg behind]
        · split
          · rw [if_neg (Int.not_lt.mpr nonneg), read]
            cases line with
            | none => rfl
            | some found =>
              show (if found.2 ≤ 0 then _ else _) = _
              rw [if_pos (bad found.1 found.2 rfl)]
              rfl
          · rfl
      · cases wrong
  | cons before nonneg line positive later inductionHypothesis =>
    cases passes with
    | zero => exact absurd few (Nat.not_succ_le_zero _)
    | succ passes =>
      have rest := inductionHypothesis passes (Nat.le_of_succ_le_succ few)
        (ends.imp id Nat.succ.inj)
      unfold QpackDecoder.fieldLines
      rw [if_pos before, if_neg (Int.not_lt.mpr nonneg), line]
      show (if _ ≤ _ then _ else _) = _
      rw [if_neg (Int.not_le.mpr positive), rest]
      rfl

/-- What the loop returns are the lines of a walk, to where it ends. -/
theorem exists_walk (passes : Nat) (position : Int) {headers : Headers}
    (read : decoder.fieldLines data base passes position = .ok headers) :
    ∃ last, Walk decoder data base position headers last ∧ headers.length ≤ passes ∧
      (Stops decoder data base last ∨ headers.length = passes) := by
  induction passes generalizing position headers with
  | zero =>
    cases read
    exact ⟨position, .nil position, Nat.le_refl _, Or.inr rfl⟩
  | succ passes inductionHypothesis =>
    unfold QpackDecoder.fieldLines at read
    split at read
    · rename_i before
      split at read
      · cases read
      · rename_i nonneg
        obtain ⟨line, found, next⟩ := bind_ok read
        cases line with
        | none =>
          cases next
          refine ⟨position, .nil position, Nat.zero_le _, Or.inl (Or.inr ?_)⟩
          exact ⟨Int.not_lt.mp nonneg, none, found, fun header length wrong => by cases wrong⟩
        | some line =>
          obtain ⟨header, length⟩ := line
          dsimp only at next
          split at next
          · rename_i bad
            cases next
            refine ⟨position, .nil position, Nat.zero_le _, Or.inl (Or.inr ?_)⟩
            refine ⟨Int.not_lt.mp nonneg, some (header, length), found, fun _ _ same => ?_⟩
            cases same
            exact bad
          · rename_i positive
            obtain ⟨later, rest, whole⟩ := bind_ok next
            cases whole
            obtain ⟨last, walk, few, ends⟩ := inductionHypothesis _ rest
            refine ⟨last, ?_, Nat.succ_le_succ few, ends.imp id (congrArg Nat.succ)⟩
            exact .cons before (Int.not_lt.mp nonneg) found (Int.not_le.mp positive) walk
    · rename_i behind
      cases read
      exact ⟨position, .nil position, Nat.zero_le _, Or.inl (Or.inl behind)⟩

/-- The headers that the loop of `decode` takes from a section before it ends. The model of the loop
also ends when it has taken more lines than there are bytes. -/
def Reads (decoder : QpackDecoder) (data : Bytes) (headers : Headers) : Prop :=
  match decoder.sectionStart data with
  | none => headers = []
  | some (base, start) =>
      ∃ last, Walk decoder data base start headers last ∧ headers.length ≤ data.length + 1 ∧
        (Stops decoder data base last ∨ headers.length = data.length + 1)

theorem decode_ok_iff (decoder : QpackDecoder) (data : Bytes) (headers : Headers) :
    decoder.decode data = .ok headers ↔ decoder.Reads data headers := by
  rw [decode_eq, Reads]
  cases decoder.sectionStart data with
  | none => exact ⟨fun read => by cases read; rfl, fun none => by rw [none]⟩
  | some place =>
    constructor
    · exact exists_walk (data.length + 1) place.2
    · rintro ⟨last, walk, few, ends⟩
      exact walk.fieldLines (data.length + 1) few ends

theorem decode_of_walk {decoder : QpackDecoder} {data : Bytes} {base : Nat} {start last : Int}
    {headers : Headers} (found : decoder.sectionStart data = some (base, start))
    (walk : Walk decoder data base start headers last)
    (few : headers.length ≤ data.length + 1)
    (ends : Stops decoder data base last ∨ headers.length = data.length + 1) :
    decoder.decode data = .ok headers := by
  rw [decode_ok_iff, Reads, found]
  exact ⟨last, walk, few, ends⟩

/-- Headers that are returned have been walked over. -/
theorem exists_walk_of_decode {decoder : QpackDecoder} {data : Bytes} {headers : Headers}
    (returned : decoder.decode data = .ok headers) (nonempty : headers ≠ []) :
    ∃ base start last, decoder.sectionStart data = some (base, start) ∧
      Walk decoder data base start headers last ∧ headers.length ≤ data.length + 1 ∧
      (Stops decoder data base last ∨ headers.length = data.length + 1) := by
  rw [decode_ok_iff, Reads] at returned
  cases found : decoder.sectionStart data with
  | none =>
    rw [found] at returned
    exact absurd returned nonempty
  | some place =>
    rw [found] at returned
    obtain ⟨last, walk, few, ends⟩ := returned
    exact ⟨place.1, place.2, last, rfl, walk, few, ends⟩

/-! ### Lines below the range of `int` -/

section Small

theorem qpackDecodeString_bounds {buf text : Bytes} {length : Int} (small : buf.length < 2 ^ 31)
    (decoded : qpackDecodeString buf = .ok (text, length)) :
    length = 0 ∨ 0 < length ∧ length ≤ buf.length := by
  unfold qpackDecodeString qpackDecodeInt at decoded
  cases read : hpackDecodeInt buf 7 with
  | none =>
    rw [read] at decoded
    cases decoded
    exact Or.inl rfl
  | some found =>
    obtain ⟨strLen, consumed⟩ := found
    have octets := hpackDecodeInt_pos _ _ _ _ read
    rw [read] at decoded
    dsimp only at decoded
    split at decoded
    · cases decoded
      exact Or.inl rfl
    · split at decoded
      · cases decoded
      · rename_i inside
        have string := wrapInt32_of_small strLen (by omega)
        have total := wrapInt32_of_small (consumed + strLen) (by omega)
        rw [string, ← Int.natCast_add, total] at decoded
        split at decoded
        all_goals
          split at decoded
          · cases decoded
            exact Or.inl rfl
          · cases decoded
            exact Or.inr ⟨by omega, by omega⟩

theorem valueLine_bounds {rest name : Bytes} {consumed : Int} {header : Header} {length : Int}
    (small : rest.length < 2 ^ 31) (positive : 0 < consumed) (inside : consumed ≤ rest.length)
    (line : valueLine rest name consumed = .ok (some (header, length))) :
    0 < length ∧ length ≤ rest.length := by
  obtain ⟨⟨value, octets⟩, read, next⟩ := bind_ok line
  dsimp only at next
  rw [stringAt, if_neg (by omega)] at read
  have left : (rest.drop consumed.toNat).length = rest.length - consumed.toNat := List.length_drop
  split at next
  · cases next
  · rename_i nonzero
    cases next
    have bounds := qpackDecodeString_bounds (by omega) read
    have total : wrapInt32 (consumed + octets) = consumed + octets := by
      unfold wrapInt32
      omega
    rw [total]
    omega

theorem literalLine_bounds {rest : Bytes} {header : Header} {length : Int}
    (small : rest.length < 2 ^ 31) (filled : rest ≠ [])
    (line : literalLine rest = .ok (some (header, length))) :
    0 < length ∧ length ≤ rest.length := by
  obtain ⟨⟨name, octets⟩, read, next⟩ := bind_ok line
  dsimp only at next
  rw [stringAt, if_neg (by omega)] at read
  have positive := List.length_pos_iff.mpr filled
  have left : (rest.drop (1 : Int).toNat).length = rest.length - 1 := List.length_drop
  split at next
  · cases next
  · rename_i nonzero
    have bounds := qpackDecodeString_bounds (by omega) read
    have total : wrapInt32 (1 + octets) = 1 + octets := by
      unfold wrapInt32
      omega
    rw [total] at next
    exact valueLine_bounds small (by omega) (by omega) next

theorem decodeFieldLine_bounds {rest : Bytes} {header : Header} {length : Int}
    (small : rest.length < 2 ^ 31)
    (line : decoder.decodeFieldLine rest base = .ok (some (header, length))) :
    0 < length ∧ length ≤ rest.length := by
  have integer {prefixBits value consumed : Nat}
      (read : qpackDecodeInt rest prefixBits = some (value, consumed)) :
      (0 : Int) < consumed ∧ (consumed : Int) ≤ rest.length := by
    have octets := hpackDecodeInt_pos _ _ _ _ read
    have inside := (hpackDecodeInt_append rest [] _ _ _ read).2
    omega
  unfold decodeFieldLine at line
  dsimp only at line
  split at line
  · cases line
  · split at line
    · split at line
      · cases line
      · rename_i index consumed read
        obtain ⟨entry, _, same⟩ := Option.map_eq_some_iff.mp (Except.ok.inj line)
        cases same
        exact integer read
    · split at line
      · split at line
        · cases line
        · rename_i index consumed read
          obtain ⟨entry, _, same⟩ := Option.map_eq_some_iff.mp (Except.ok.inj line)
          cases same
          exact integer read
      · split at line
        · split at line
          · cases line
          · rename_i nameIdx consumed read
            split at line
            · cases line
            · exact valueLine_bounds small (integer read).1 (integer read).2 line
        · split at line
          · exact literalLine_bounds small (by assumption) line
          · split at line
            · split at line
              · cases line
              · rename_i index consumed read
                obtain ⟨entry, _, same⟩ := Option.map_eq_some_iff.mp (Except.ok.inj line)
                cases same
                exact integer read
            · cases line

/-- Two readings of the same lines: where a bad line stands, the section does not parse. -/
theorem Lines.not_whole {rest bad : Bytes} {good headers : Headers}
    (lines : Lines decoder base rest good bad) (filled : bad ≠ [])
    (fails : decoder.decodeFieldLine bad base = .ok none) :
    ¬ Lines decoder base rest headers [] := by
  induction lines generalizing headers with
  | nil rest =>
    intro whole
    cases whole with
    | nil => exact filled rfl
    | cons line => cases fails.symm.trans line
  | cons line positive inside later inductionHypothesis =>
    intro whole
    cases whole with
    | nil => cases line
    | cons lineToo _ _ laterToo =>
      cases line.symm.trans lineToo
      exact inductionHypothesis filled fails laterToo

theorem sectionStart_bounds {start : Int} (small : data.length < 2 ^ 31)
    (found : decoder.sectionStart data = some (base, start)) :
    0 ≤ start ∧ start ≤ data.length := by
  unfold sectionStart at found
  split at found
  · cases found
  · split at found
    · cases found
    · rename_i encoded consumed first
      split at found
      · cases found
      · rename_i deltaBase deltaConsumed second
        cases found
        have one := (hpackDecodeInt_append data [] _ _ _ first).2
        have two := (hpackDecodeInt_append (data.drop consumed) [] _ _ _ second).2
        rw [List.length_drop] at two
        rw [wrapInt32_of_small _ (by omega)]
        omega

variable (small : data.length < 2 ^ 31)

include small

/-- Lines that are taken parse, and each of them takes at least one byte. -/
theorem Walk.lines {position last : Int} {good : Headers}
    (walk : Walk decoder data base position good last) (nonneg : 0 ≤ position)
    (inside : position ≤ data.length) :
    Lines decoder base (data.drop position.toNat) good (data.drop last.toNat) ∧
      position + good.length ≤ last ∧ last ≤ data.length := by
  induction walk with
  | nil position => exact ⟨.nil _, by simp, inside⟩
  | @cons position last length header headers before _ line positive later inductionHypothesis =>
    have left : (data.drop position.toNat).length = data.length - position.toNat :=
      List.length_drop
    obtain ⟨_, within⟩ := decodeFieldLine_bounds (by omega) line
    have total : wrapInt32 (position + length) = position + length := by
      unfold wrapInt32
      omega
    rw [total] at inductionHypothesis
    obtain ⟨lines, count, atEnd⟩ := inductionHypothesis (by omega) (by omega)
    have rest : (data.drop position.toNat).drop length.toNat =
        data.drop (position + length).toNat := by
      rw [List.drop_drop]
      congr 1
      omega
    refine ⟨.cons line positive within (by rw [rest]; exact lines), ?_, atEnd⟩
    rw [List.length_cons]
    omega

/-- Lines that parse are taken. -/
theorem Lines.walk {rest bad : Bytes} {good : Headers} (lines : Lines decoder base rest good bad)
    (position : Nat) (inside : position ≤ data.length) (here : rest = data.drop position) :
    ∃ last : Nat, bad = data.drop last ∧ last ≤ data.length ∧ position + good.length ≤ last ∧
      Walk decoder data base position good last := by
  induction lines generalizing position with
  | nil rest => exact ⟨position, here, inside, Nat.le_refl _, .nil _⟩
  | @cons rest last header headers length line positive within later inductionHypothesis =>
    have left : rest.length = data.length - position := by
      rw [here]
      exact List.length_drop
    have next : rest.drop length.toNat = data.drop (position + length.toNat) := by
      rw [here, List.drop_drop]
    obtain ⟨atLast, badHere, atEnd, count, walk⟩ :=
      inductionHypothesis (position + length.toNat) (by omega) next
    have size := wrapInt32_of_small data.length small
    have total : wrapInt32 ((position : Int) + length) =
        ((position + length.toNat : Nat) : Int) := by
      unfold wrapInt32
      omega
    refine ⟨atLast, badHere, atEnd, by rw [List.length_cons]; omega, ?_⟩
    refine .cons (by omega) (by omega) ?_ positive (by rw [total]; exact walk)
    rw [Int.toNat_natCast, ← here]
    exact line

/-- Below the range of `int` a section is returned only if it is valid, unless there is a bad line
behind a good one. -/
theorem whole_iff_of_small :
    (∀ headers, decoder.decode data = .ok headers → headers ≠ [] → decoder.Whole data) ↔
      ¬ decoder.BadLineBehind data := by
  have size := wrapInt32_of_small data.length small
  constructor
  · rintro returns ⟨base, start, good, bad, found, lines, nonempty, filled, fails⟩
    obtain ⟨nonneg, inside⟩ := sectionStart_bounds small found
    obtain ⟨last, badHere, atEnd, count, walk⟩ :=
      lines.walk small start.toNat (by omega) rfl
    have stops : Stops decoder data base last := by
      refine Or.inr ⟨Int.natCast_nonneg last, none, ?_, fun _ _ wrong => by cases wrong⟩
      rw [Int.toNat_natCast, ← badHere]
      exact fails
    rw [Int.toNat_of_nonneg nonneg] at walk
    have returned := decode_of_walk found walk (by omega) (Or.inl stops)
    obtain ⟨base', start', headers, found', _, whole⟩ := returns good returned nonempty
    cases found.symm.trans found'
    exact lines.not_whole filled fails whole
  · intro noBad headers returned nonempty
    obtain ⟨base, start, last, found, walk, few, ends⟩ := exists_walk_of_decode returned nonempty
    obtain ⟨nonneg, inside⟩ := sectionStart_bounds small found
    obtain ⟨lines, count, atEnd⟩ := walk.lines small nonneg inside
    have all : data.drop last.toNat = [] := by
      by_contra filled
      have within : last.toNat < data.length := by
        rw [List.drop_eq_nil_iff] at filled
        omega
      rcases ends with stops | wrong
      · rcases stops with behind | ⟨_, line, read, bad⟩
        · omega
        · cases line with
          | none => exact noBad ⟨base, start, headers, _, found, lines, nonempty, filled, read⟩
          | some entry =>
            have length : (data.drop last.toNat).length = data.length - last.toNat :=
              List.length_drop
            have positive := (decodeFieldLine_bounds (by omega) read).1
            exact absurd positive (Int.not_lt.mpr (bad entry.1 entry.2 rfl))
      · omega
    rw [all] at lines
    exact ⟨base, start, headers, found, nonneg, lines⟩

end Small

example : decode {} [0x00, 0x00, 0xD1, 0x80] = .ok [(ascii ":method", ascii "GET")] := rfl

end QpackDecoder

end AsyncNet.Http.H3
