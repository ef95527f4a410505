/-
This file compares what `parse_body` takes for a chunked body with the grammar of one: a size line,
as many bytes as it says and a line break, until a size line of zero and an empty line. The loop
finds the size lines and the bytes between them, but it steps over the two bytes behind the data
of a chunk and behind the last size line without a look at them, it reads a size up to the first
byte that is no digit, and a size can wrap its position. Where none of this happens a complete body
is one of the grammar.
-/

import AsyncNet.Http.Http1Chunks
import Mathlib.Data.List.TakeWhile

namespace AsyncNet.Http

open Library

namespace Http1

/-! ### The grammar -/

def isHexDigit (byte : UInt8) : Bool := (hexDigit byte).isSome

/-- The value of a run of hexadecimal digits. -/
def hexValue (digits : Bytes) : Nat :=
  (digits.filterMap hexDigit).foldl (fun value digit => 16 * value + digit) 0

/-- What may stand behind the digits of a size: nothing or, perhaps after blanks, a semicolon and
an extension. -/
def IsExtension (text : Bytes) : Prop :=
  text = [] ∨ (text.dropWhile isBlank).head? = some 59

instance (text : Bytes) : Decidable (IsExtension text) :=
  inferInstanceAs (Decidable (_ ∨ _))

/-- A line that gives the size of a chunk in hexadecimal digits, with an optional extension. -/
structure ChunkLine (line : Bytes) (size : Nat) : Prop where
  size : ∃ digits extension, line = digits ++ extension ∧ digits ≠ [] ∧
    (∀ digit ∈ digits, isHexDigit digit = true) ∧ hexValue digits = size ∧ IsExtension extension
  whole : indexOf crlf (line ++ crlf) = some line.length

/-- A chunked body as the grammar has it, with the data that it carries. -/
inductive WellChunked : Bytes → Bytes → Prop
  | last {line : Bytes} (sizeLine : ChunkLine line 0) : WellChunked (line ++ crlf ++ crlf) []
  | chunk {line data wire body : Bytes} (sizeLine : ChunkLine line data.length)
      (nonempty : data ≠ []) (later : WellChunked wire body) :
      WellChunked (line ++ crlf ++ (data ++ crlf ++ wire)) (data ++ body)

/-! ### Size lines -/

section SizeLines

variable {line : Bytes} {size : Nat}

theorem isHexDigit_head?_of_isExtension {text : Bytes} (extension : IsExtension text) :
    ∀ byte ∈ text.head?, isHexDigit byte = false := by
  rcases extension with rfl | semicolon
  · nofun
  · cases text with
    | nil => nofun
    | cons first text =>
      intro byte head
      cases Option.mem_some.mp head
      by_cases blank : isBlank first = true
      · simp only [isBlank, Bool.or_eq_true, decide_eq_true_eq] at blank
        rcases blank with rfl | rfl <;> rfl
      · rw [List.dropWhile_cons_of_neg blank] at semicolon
        cases semicolon
        rfl

theorem fromCharsHex_eq (text : Bytes) :
    fromCharsHex text =
      if text.takeWhile isHexDigit = [] then none
      else if hexValue (text.takeWhile isHexDigit) < 2 ^ 64 then
        some (hexValue (text.takeWhile isHexDigit))
      else none := rfl

/-- The digits of a line and what stands behind them. -/
theorem takeWhile_dropWhile_of_digits {digits extension : Bytes}
    (areDigits : ∀ digit ∈ digits, isHexDigit digit = true) (is : IsExtension extension) :
    (digits ++ extension).takeWhile isHexDigit = digits ∧
      (digits ++ extension).dropWhile isHexDigit = extension := by
  have stops := isHexDigit_head?_of_isExtension is
  rw [List.takeWhile_append_of_pos areDigits, List.dropWhile_append_of_pos areDigits]
  cases extension with
  | nil => exact ⟨List.append_nil digits, rfl⟩
  | cons byte rest =>
    have stop : ¬ isHexDigit byte = true := Bool.eq_false_iff.mp (stops byte rfl)
    rw [List.takeWhile_cons_of_neg stop, List.dropWhile_cons_of_neg stop, List.append_nil]
    exact ⟨rfl, rfl⟩

/-- A line of the grammar is one that the loop reads, with nothing but an extension behind its
digits. -/
theorem chunkLine_iff (small : size < 2 ^ 64) :
    ChunkLine line size ↔ SizeLine line size ∧ IsExtension (line.dropWhile isHexDigit) := by
  constructor
  · rintro ⟨⟨digits, extension, rfl, some, areDigits, rfl, is⟩, whole⟩
    obtain ⟨taken, dropped⟩ := takeWhile_dropWhile_of_digits areDigits is
    refine ⟨⟨?_, whole⟩, by rw [dropped]; exact is⟩
    rw [fromCharsHex_eq, taken, if_neg some, if_pos small]
  · rintro ⟨⟨value, whole⟩, is⟩
    rw [fromCharsHex_eq] at value
    split at value
    · cases value
    · rename_i some
      split at value
      · cases value
        exact ⟨⟨_, _, List.takeWhile_append_dropWhile.symm, some,
          fun digit member => List.mem_takeWhile_imp member, rfl, is⟩, whole⟩
      · cases value

end SizeLines

/-! ### Tidy bodies -/

/-- Between a position and the end of a size line there is nothing but a size and an extension. -/
def TidyLine (data : Bytes) (position lineEnd : Nat) : Prop :=
  IsExtension (((data.drop position).take (lineEnd - position)).dropWhile isHexDigit)

/-- The two bytes at a position are a line break. -/
def BreakAt (data : Bytes) (position : Nat) : Prop := (data.drop position).take 2 = crlf

/-- What the loop does not look at when it takes a chunk is as the grammar has it. -/
structure ChunkPass.Tidy (data : Bytes) (pass : ChunkPass) : Prop where
  line : TidyLine data pass.position pass.lineEnd
  fits : pass.Fits
  ends : BreakAt data (pass.lineEnd + 2 + pass.size)

/-- The position that a run from a position comes to. -/
def ChunkRun.reaches (run : ChunkRun) (position : Nat) : Nat :=
  run.chunks.getLast?.elim position ChunkPass.next

/-- The chunks of a run are tidy, and so are the size line of zero and the line behind it. -/
structure ChunkRun.Tidy (data : Bytes) (position : Nat) (run : ChunkRun) : Prop where
  chunks : ∀ pass ∈ run.chunks, pass.Tidy data
  last : ∀ lineEnd, run.last = some (.last lineEnd) →
    TidyLine data (run.reaches position) lineEnd ∧ BreakAt data (lineEnd + 2)

section Tidy

variable {data : Bytes} {passes position : Nat}

theorem reaches_cons (run : ChunkRun) (pass : ChunkPass) (position : Nat) :
    ChunkRun.reaches { run with chunks := pass :: run.chunks } position =
      run.reaches pass.next := by
  unfold ChunkRun.reaches
  rw [List.getLast?_cons]
  cases run.chunks.getLast? <;> rfl

/-- A run is tidy if its first chunk is and the run from the position after it. -/
theorem tidy_cons_iff (run : ChunkRun) (pass : ChunkPass) (position : Nat) :
    ChunkRun.Tidy data position { run with chunks := pass :: run.chunks } ↔
      pass.Tidy data ∧ run.Tidy data pass.next := by
  constructor
  · rintro ⟨chunks, last⟩
    rw [reaches_cons] at last
    obtain ⟨first, later⟩ := List.forall_mem_cons.mp chunks
    exact ⟨first, later, last⟩
  · rintro ⟨first, later, last⟩
    refine ⟨List.forall_mem_cons.mpr ⟨first, later⟩, ?_⟩
    rw [reaches_cons]
    exact last

/-- The text of a size line. -/
theorem tidyLine_iff {line rest : Bytes} (split : data.drop position = line ++ rest) :
    TidyLine data position (position + line.length) ↔
      IsExtension (line.dropWhile isHexDigit) := by
  unfold TidyLine
  rw [split, Nat.add_sub_cancel_left, List.take_left]

/-- What stands behind a size line. -/
theorem drop_line {line rest : Bytes} (split : data.drop position = line ++ crlf ++ rest)
    (count : Nat) : data.drop (position + line.length + 2 + count) = rest.drop count := by
  have behind : position + line.length + 2 + count =
      position + ((line ++ crlf).length + count) := by
    rw [List.length_append, length_crlf]
    omega
  rw [behind, ← List.drop_drop, split, ← List.drop_drop, List.drop_left]

/-- A tidy size line of zero is the end of a body of the grammar. -/
theorem wellChunked_lastLine {lineEnd : Nat} (here : chunkStep data position = .last lineEnd)
    (line : TidyLine data position lineEnd) (ends : BreakAt data (lineEnd + 2)) :
    ∃ wire, data.drop position = wire ++ data.drop (lineEnd + 4) ∧ WellChunked wire [] := by
  obtain ⟨line', rest, split, rfl, sizeLine, -⟩ := sizeLine_of_chunkStep (Or.inr ⟨here, rfl⟩)
  have is := (tidyLine_iff (by rw [split, List.append_assoc])).mp line
  have behind : (data.drop (position + line'.length + 2 + 0)).take 2 = crlf := ends
  rw [drop_line split, List.drop_zero] at behind
  refine ⟨line' ++ crlf ++ crlf, ?_, .last ((chunkLine_iff (by decide)).mpr ⟨sizeLine, is⟩)⟩
  rw [show position + line'.length + 4 = position + line'.length + 2 + 2 by omega,
    drop_line split, split, List.append_assoc (line' ++ crlf), ← behind, List.take_append_drop]

/-- A tidy chunk before a body of the grammar. -/
theorem wellChunked_chunkLine {lineEnd size : Nat}
    (here : chunkStep data position = .chunk lineEnd size)
    (tidy : ChunkPass.Tidy data ⟨position, lineEnd, size⟩) {wire body rest : Bytes}
    (tail : data.drop (ChunkStep.next lineEnd size) = wire ++ rest)
    (grammar : WellChunked wire body) :
    ∃ wire', data.drop position = wire' ++ rest ∧
      WellChunked wire' (ChunkPass.taken ⟨position, lineEnd, size⟩ data ++ body) := by
  obtain ⟨line, more, split, rfl, sizeLine, -⟩ := sizeLine_of_chunkStep (Or.inl here)
  obtain ⟨-, -, small, some, inside⟩ := bounds_of_chunkStep here
  have next : ChunkStep.next (position + line.length) size =
      position + line.length + 2 + (size + 2) := Nat.mod_eq_of_lt tidy.fits
  rw [next] at inside tail
  have lengths := congrArg List.length split
  simp only [List.length_append, List.length_drop, length_crlf] at lengths
  have whole : (more.take size).length = size := List.length_take_of_le (by omega)
  have extension : IsExtension (line.dropWhile isHexDigit) :=
    (tidyLine_iff (by rw [split, List.append_assoc])).mp tidy.line
  have behind : (more.drop size).take 2 = crlf := by
    rw [← drop_line split]
    exact tidy.ends
  have taken : (data.drop (position + line.length + 2)).take size = more.take size := by
    rw [drop_line split 0, List.drop_zero]
  refine ⟨line ++ crlf ++ (more.take size ++ crlf ++ wire), ?_, ?_⟩
  · rw [drop_line split, ← List.drop_drop] at tail
    rw [split, List.append_assoc (line ++ crlf), List.append_assoc (more.take size),
      List.append_assoc (more.take size), List.append_assoc crlf, ← tail, ← behind,
      List.take_append_drop, List.take_append_drop]
  · show WellChunked _ ((data.drop (position + line.length + 2)).take size ++ body)
    rw [taken]
    refine .chunk ?_ (List.ne_nil_of_length_pos (by omega)) grammar
    rw [whole]
    exact (chunkLine_iff small).mpr ⟨sizeLine, extension⟩

/-- What a tidy run has read is a body of the grammar. -/
theorem wellChunked_of_tidy {lineEnd : Nat}
    (last : (chunkRun data passes position).last = some (.last lineEnd))
    (tidy : (chunkRun data passes position).Tidy data position) :
    ∃ wire, data.drop position = wire ++ data.drop (lineEnd + 4) ∧
      WellChunked wire ((chunkRun data passes position).chunks.flatMap (·.taken data)) := by
  induction passes generalizing position with
  | zero => cases last
  | succ passes inductionHypothesis =>
    cases here : chunkStep data position with
    | more =>
      rw [chunkRun_last here rfl] at last
      cases last
    | invalid other =>
      rw [chunkRun_last here rfl] at last
      cases last
    | last other =>
      rw [chunkRun_last here rfl] at last tidy ⊢
      cases last
      obtain ⟨line, ends⟩ := tidy.last _ rfl
      exact wellChunked_lastLine here line ends
    | chunk other size =>
      rw [chunkRun_chunk here] at last tidy ⊢
      obtain ⟨first, later⟩ := (tidy_cons_iff _ ⟨position, _, size⟩ position).mp tidy
      obtain ⟨wire, tail, grammar⟩ := inductionHypothesis last later
      rw [List.flatMap_cons]
      exact wellChunked_chunkLine here first tail grammar

/-- The size line of zero of the grammar ends the loop. -/
theorem chunkStep_lastLine {line : Bytes} (sizeLine : ChunkLine line 0) (front more : Bytes) :
    chunkStep (front ++ (line ++ crlf ++ (crlf ++ more))) front.length =
      .last (front.length + line.length) := by
  have plain := ((chunkLine_iff (by decide)).mp sizeLine).1
  rw [chunkStep_append plain front (crlf ++ more), sizeStep]
  simp only [if_pos]
  rw [if_pos]
  simp only [List.length_append, length_crlf]
  omega

/-- A chunk of the grammar is taken, and the position goes to the one behind it. -/
theorem chunkStep_chunkLine {line data : Bytes} (sizeLine : ChunkLine line data.length)
    (nonempty : data ≠ []) (front rest : Bytes)
    (short : (front ++ (line ++ crlf ++ (data ++ crlf ++ rest))).length < 2 ^ 63) :
    front.length + line.length + 2 + data.length + 2 < 2 ^ 64 ∧
      ChunkStep.next (front.length + line.length) data.length =
        (afterChunk front line data).length ∧
      chunkStep (front ++ (line ++ crlf ++ (data ++ crlf ++ rest))) front.length =
        .chunk (front.length + line.length) data.length := by
  have lengths : (front ++ (line ++ crlf ++ (data ++ crlf ++ rest))).length =
      front.length + line.length + 2 + data.length + 2 + rest.length := by
    simp only [List.length_append, length_crlf]
    omega
  have fits : front.length + line.length + 2 + data.length + 2 < 2 ^ 64 := by omega
  have plain := ((chunkLine_iff (by omega)).mp sizeLine).1
  have positive := List.length_pos_of_ne_nil nonempty
  refine ⟨fits, ?_, ?_⟩
  · rw [ChunkStep.next, Nat.mod_eq_of_lt fits, length_afterChunk, List.length_append,
      List.length_append, length_crlf]
    omega
  · rw [chunkStep_append plain front (data ++ crlf ++ rest), sizeStep]
    simp only [if_neg positive.ne']
    rw [if_neg]
    rw [ChunkStep.next, Nat.mod_eq_of_lt fits]
    omega

/-- The loop reads a body of the grammar in a tidy run. -/
theorem tidy_of_wellChunked {wire body : Bytes} (grammar : WellChunked wire body)
    (front more : Bytes) (passes : Nat) (short : (front ++ (wire ++ more)).length < 2 ^ 63) :
    (chunkRun (front ++ (wire ++ more)) passes front.length).Tidy (front ++ (wire ++ more))
      front.length := by
  induction grammar generalizing front passes with
  | @last line sizeLine =>
    cases passes with
    | zero => exact ⟨nofun, nofun⟩
    | succ passes =>
      have extension := ((chunkLine_iff (by decide)).mp sizeLine).2
      have split : (front ++ (line ++ crlf ++ (crlf ++ more))).drop front.length =
          line ++ crlf ++ (crlf ++ more) := List.drop_left
      rw [List.append_assoc (line ++ crlf),
        chunkRun_last (chunkStep_lastLine sizeLine front more) rfl]
      refine ⟨nofun, fun lineEnd same => ?_⟩
      cases same
      refine ⟨(tidyLine_iff (split.trans (List.append_assoc line crlf _))).mpr extension, ?_⟩
      show ((_ : Bytes).drop (front.length + line.length + 2 + 0)).take 2 = crlf
      rw [drop_line split, List.drop_zero]
      rfl
  | @chunk line data wire body sizeLine nonempty later inductionHypothesis =>
    cases passes with
    | zero => exact ⟨nofun, nofun⟩
    | succ passes =>
      have joined : line ++ crlf ++ (data ++ crlf ++ wire) ++ more =
          line ++ crlf ++ (data ++ crlf ++ (wire ++ more)) := by
        simp only [List.append_assoc]
      rw [joined] at short ⊢
      obtain ⟨fits, next, chunk⟩ := chunkStep_chunkLine sizeLine nonempty front (wire ++ more) short
      have extension := ((chunkLine_iff (by omega)).mp sizeLine).2
      have split : (front ++ (line ++ crlf ++ (data ++ crlf ++ (wire ++ more)))).drop
          front.length = line ++ crlf ++ (data ++ crlf ++ (wire ++ more)) := List.drop_left
      rw [chunkRun_chunk chunk, tidy_cons_iff]
      refine ⟨⟨?_, fits, ?_⟩, ?_⟩
      · exact (tidyLine_iff (split.trans (List.append_assoc line crlf _))).mpr extension
      · show ((_ : Bytes).drop (front.length + line.length + 2 + data.length)).take 2 = crlf
        rw [drop_line split, List.append_assoc, List.drop_left]
        rfl
      · show ChunkRun.Tidy _ (ChunkStep.next _ _) _
        rw [append_afterChunk] at short ⊢
        rw [next]
        exact inductionHypothesis _ _ short

/-- What the loop steps over in a whole body is as the grammar has it. -/
def TidyBody (data : Bytes) : Prop := (bodyRun data).Tidy data 0

/-- A complete chunked body is one of the grammar, with the data that the grammar says, if and only
if what the loop does not look at is. -/
theorem wellChunked_iff {hdrs : Headers} {result : BodyResult} (chunked : hdrs.isChunked = true)
    (short : data.length < 2 ^ 63) (parsed : parseBody data hdrs = .ok result)
    (complete : result.complete = true) :
    WellChunked (data.take result.consumed) result.data ↔ TidyBody data := by
  rw [parseBody, if_pos chunked] at parsed
  obtain ⟨lineEnd, last, carried, consumed⟩ := last_of_parseChunks parsed complete
  constructor
  · intro grammar
    have tidy := tidy_of_wellChunked grammar [] (data.drop result.consumed) (data.length + 1)
    rw [List.take_append_drop] at tidy
    exact tidy short
  · intro tidy
    obtain ⟨wire, split, grammar⟩ := wellChunked_of_tidy last tidy
    rw [List.drop_zero] at split
    have front : data.take (lineEnd + 4) = wire := by
      exact List.append_cancel_right ((List.take_append_drop (lineEnd + 4) data).trans split)
    rw [consumed, front, carried]
    exact grammar

end Tidy

/-- A chunk of a byte and the last chunk, as the grammar has them. -/
theorem wellChunked_oneByte : WellChunked (oneByte.take 11) (ascii "a") := by
  have run : bodyRun oneByte = ⟨[⟨0, 1, 1⟩], some (.last 7)⟩ := by decide +kernel
  have tidy : TidyBody oneByte := by
    rw [TidyBody, run]
    refine ⟨List.forall_mem_singleton.mpr ⟨?_, by decide, ?_⟩, fun lineEnd same => ?_⟩
    · show IsExtension _
      decide +kernel
    · show List.take _ _ = _
      decide +kernel
    · cases same
      show IsExtension _ ∧ List.take _ _ = _
      decide +kernel
  exact (@wellChunked_iff _ [(ascii "Transfer-Encoding", ascii "chunked")] ⟨ascii "a", 11, true⟩
    (by decide +kernel) (by decide +kernel) (by decide +kernel) rfl).mpr tidy

/-- A chunk of a byte that two letters follow in place of a line break. -/
def noBreak : Bytes := ascii "1\r\naXX0\r\n\r\n"

theorem not_wellChunked_noBreak :
    parseBody noBreak [(ascii "Transfer-Encoding", ascii "chunked")] =
        .ok { data := ascii "a", consumed := 11, complete := true } ∧
      ¬ WellChunked (noBreak.take 11) (ascii "a") := by
  refine ⟨by decide +kernel, fun grammar => ?_⟩
  have run : chunkRun ([] ++ (noBreak.take 11 ++ [])) 12 0 = ⟨[⟨0, 1, 1⟩], some (.last 7)⟩ := by
    decide +kernel
  have tidy := tidy_of_wellChunked grammar [] [] 12 (by decide +kernel)
  rw [List.length_nil, run] at tidy
  have ends := (List.forall_mem_singleton.mp tidy.chunks).ends
  exact absurd ends (by
    show ¬ List.take _ _ = _
    decide +kernel)

end Http1

end AsyncNet.Http
