/-
This file is about the loop of `parse_body` over a chunked body. What a pass does depends on the
position it is at and not on what has been read before, so the loop is a walk over positions. A
prefix of a body takes the same steps as long as it holds them.

The position after a chunk is a sum with a size that the peer has chosen, and the sum wraps.
-/

import AsyncNet.Http.Http1Requests
import AsyncNet.Library.Walks

namespace AsyncNet.Http

open Library

namespace Http1

/-! ### Steps -/

/-- What there is at a position of a chunked body: a line that is no size, the size of the last
chunk with the two bytes after it, or a chunk. -/
inductive ChunkStep where
  | more
  | invalid (lineEnd : Nat)
  | last (lineEnd : Nat)
  | chunk (lineEnd size : Nat)
  deriving DecidableEq, Repr

namespace ChunkStep

/-- The position after a chunk, which wraps. -/
def next (lineEnd size : Nat) : Nat := (lineEnd + 2 + size + 2) % 2 ^ 64

/-- The bytes up to the end of a step. -/
def extent : ChunkStep → Nat
  | .more => 0
  | .invalid lineEnd => lineEnd + 2
  | .last lineEnd => lineEnd + 4
  | .chunk lineEnd size => max (lineEnd + 2) (next lineEnd size)

/-- The position that a step leads to. -/
def follows : ChunkStep → Option Nat
  | .chunk lineEnd size => some (next lineEnd size)
  | _ => none

end ChunkStep

/-- The step with a line that has come in, by the size that it gives. -/
def sizeStep (length lineEnd : Nat) : Option Nat → ChunkStep
  | none => .invalid lineEnd
  | some size =>
      if size = 0 then if lineEnd + 4 ≤ length then .last lineEnd else .more
      else if length < ChunkStep.next lineEnd size then .more
      else .chunk lineEnd size

def chunkStep (data : Bytes) (position : Nat) : ChunkStep :=
  if data.length ≤ position then .more
  else
    match find data crlf position with
    | none => .more
    | some lineEnd =>
        sizeStep data.length lineEnd
          (fromCharsHex ((data.drop position).take (lineEnd - position)))

/-- What a pass of the loop over chunks does. -/
theorem parseChunks_step (data : Bytes) (position : Nat) (body : Bytes) :
    match chunkStep data position with
    | .more => ∃ result, (∀ passes, parseChunks data (passes + 1) position body = .ok result) ∧
        result.complete = false
    | .invalid _ => ∀ passes,
        parseChunks data (passes + 1) position body = .error .invalidChunkSize
    | .last lineEnd => ∀ passes, parseChunks data (passes + 1) position body =
        .ok { data := body, consumed := lineEnd + 4, complete := true }
    | .chunk lineEnd size => ∀ passes, parseChunks data (passes + 1) position body =
        parseChunks data passes (ChunkStep.next lineEnd size)
          (body ++ (data.drop (lineEnd + 2)).take size) := by
  unfold chunkStep
  simp only [parseChunks]
  by_cases done : data.length ≤ position
  · simp only [if_pos done]
    exact ⟨_, fun _ => rfl, rfl⟩
  · simp only [if_neg done]
    cases find data crlf position with
    | none => exact ⟨_, fun _ => rfl, rfl⟩
    | some lineEnd =>
      dsimp only
      unfold sizeStep ChunkStep.next
      cases fromCharsHex ((data.drop position).take (lineEnd - position)) with
      | none => exact fun _ => rfl
      | some size =>
        dsimp only
        by_cases zero : size = 0
        · simp only [if_pos zero]
          by_cases ends : lineEnd + 4 ≤ data.length
          · simp only [if_pos ends, implies_true]
          · simp only [if_neg ends]
            exact ⟨_, fun _ => rfl, rfl⟩
        · simp only [if_neg zero]
          by_cases short : data.length < (lineEnd + 2 + size + 2) % 2 ^ 64
          · simp only [if_pos short]
            exact ⟨_, fun _ => rfl, rfl⟩
          · simp only [if_neg short, implies_true]

/-- A step needs the whole line. -/
theorem le_extent_sizeStep (length lineEnd : Nat) (size : Option Nat) :
    sizeStep length lineEnd size = .more ∨ lineEnd + 2 ≤ (sizeStep length lineEnd size).extent := by
  unfold sizeStep
  split
  · exact Or.inr le_rfl
  · split
    · split
      · exact Or.inr (Nat.le_add_right _ 2)
      · exact Or.inl rfl
    · split
      · exact Or.inl rfl
      · exact Or.inr (le_max_left _ _)

theorem sizeStep_le {less length : Nat} (fewer : less ≤ length) {lineEnd : Nat}
    (line : lineEnd + 2 ≤ less) (size : Option Nat) :
    sizeStep less lineEnd size =
      if less < (sizeStep length lineEnd size).extent then .more
      else sizeStep length lineEnd size := by
  unfold sizeStep
  cases size with
  | none => exact (if_neg (Nat.not_lt.mpr line)).symm
  | some size =>
    dsimp only
    by_cases zero : size = 0
    · simp only [if_pos zero]
      by_cases ends : lineEnd + 4 ≤ less
      · rw [if_pos ends, if_pos (ends.trans fewer)]
        exact (if_neg (Nat.not_lt.mpr ends)).symm
      · rw [if_neg ends]
        by_cases later : lineEnd + 4 ≤ length
        · rw [if_pos later]
          exact (if_pos (Nat.not_le.mp ends)).symm
        · rw [if_neg later]
          exact (ite_self _).symm
    · simp only [if_neg zero]
      by_cases short : length < ChunkStep.next lineEnd size
      · rw [if_pos short, if_pos (fewer.trans_lt short)]
        exact (ite_self _).symm
      · rw [if_neg short]
        have least : less < ChunkStep.extent (.chunk lineEnd size) ↔
            less < ChunkStep.next lineEnd size := by
          show less < max _ _ ↔ _
          rw [lt_max_iff, or_iff_right (Nat.not_lt.mpr line)]
        simp only [least]

theorem chunkStep_noLine {text : Bytes} {position : Nat}
    (missing : ¬ text.length ≤ position → find text crlf position = none) :
    chunkStep text position = .more := by
  unfold chunkStep
  by_cases done : text.length ≤ position
  · rw [if_pos done]
  · rw [if_neg done, missing done]

theorem chunkStep_line {text : Bytes} {position lineEnd : Nat} (inside : ¬ text.length ≤ position)
    (found : find text crlf position = some lineEnd) :
    chunkStep text position = sizeStep text.length lineEnd
      (fromCharsHex ((text.drop position).take (lineEnd - position))) := by
  unfold chunkStep
  rw [if_neg inside, found]

/-- A prefix takes the same step if it holds all of it, and else asks for more. -/
theorem chunkStep_isPrefix {text data : Bytes} (isPrefix : text <+: data) (position : Nat) :
    chunkStep text position =
      if text.length < (chunkStep data position).extent then .more
      else chunkStep data position := by
  have length := isPrefix.length_le
  have drops : text.drop position <+: data.drop position := isPrefix.drop position
  by_cases line : data.length ≤ position ∨ find data crlf position = none
  · have missing : ¬ text.length ≤ position → find text crlf position = none := by
      intro inside
      have unfound : find data crlf position = none := line.resolve_left (by omega)
      unfold find at unfound ⊢
      rw [Option.map_eq_none_iff] at unfound ⊢
      cases here : indexOf crlf (text.drop position) with
      | none => rfl
      | some first =>
        obtain ⟨more, same⟩ := drops
        rw [← same, indexOf_append here crlf_ne_nil more] at unfound
        cases unfound
    rw [chunkStep_noLine missing, chunkStep_noLine fun inside => line.resolve_left inside]
    exact (ite_self _).symm
  · obtain ⟨inside, some⟩ := not_or.mp line
    obtain ⟨lineEnd, line⟩ := Option.ne_none_iff_exists'.mp some
    obtain ⟨first, found, rfl⟩ := Option.map_eq_some_iff.mp line
    rw [chunkStep_line inside line]
    by_cases short : text.length < first + position + 2
    · -- the line has not come in, and every step needs it
      have missing : find text crlf position = none := by
        unfold find
        rw [Option.map_eq_none_iff]
        cases here : indexOf crlf (text.drop position) with
        | none => rfl
        | some other =>
          have same := indexOf_unique drops crlf_ne_nil found here
          have fits := indexOf_add_length_le here crlf_ne_nil
          rw [List.length_drop, length_crlf] at fits
          omega
      rw [chunkStep_noLine fun _ => missing]
      obtain more | least := le_extent_sizeStep data.length (first + position)
        (fromCharsHex ((data.drop position).take (first + position - position)))
      · rw [more, ite_self]
      · rw [if_pos (short.trans_le least)]
    · have here : find text crlf position = Option.some (first + position) := by
        unfold find
        rw [indexOf_isPrefix drops crlf_ne_nil found]
        · rfl
        · rw [List.length_drop, length_crlf]
          omega
      have slice : (text.drop position).take (first + position - position) =
          (data.drop position).take (first + position - position) := by
        obtain ⟨more, same⟩ := drops
        rw [← same, List.take_append_of_le_length]
        rw [List.length_drop]
        omega
      rw [chunkStep_line (by omega) here, slice]
      exact sizeStep_le length (Nat.not_lt.mp short) _

theorem fromCharsHex_lt {text : Bytes} {value : Nat} (read : fromCharsHex text = some value) :
    value < 2 ^ 64 := by
  unfold fromCharsHex at read
  simp only at read
  split at read
  · cases read
  · split at read
    · cases read
      assumption
    · cases read

/-- The step at a size line. -/
theorem chunkStep_append {line : Bytes} {size : Nat} (sizeLine : SizeLine line size)
    (front rest : Bytes) :
    chunkStep (front ++ (line ++ crlf ++ rest)) front.length =
      sizeStep (front ++ (line ++ crlf ++ rest)).length (front.length + line.length)
        (some size) := by
  have found : find (front ++ (line ++ crlf ++ rest)) crlf front.length =
      some (line.length + front.length) := by
    rw [find_append_left, indexOf_append sizeLine.whole crlf_ne_nil rest]
    rfl
  have inside : ¬ (front ++ (line ++ crlf ++ rest)).length ≤ front.length := by
    simp only [List.length_append, length_crlf]
    omega
  rw [chunkStep_line inside found, List.drop_left, Nat.add_sub_cancel, List.append_assoc line,
    List.take_left, sizeLine.value, Nat.add_comm front.length]

/-- The line and the size that a step tells. -/
theorem eq_of_sizeStep {length lineEnd lineEnd' size : Nat} {found : Option Nat}
    (step : sizeStep length lineEnd found = .chunk lineEnd' size ∨
      sizeStep length lineEnd found = .last lineEnd' ∧ size = 0) :
    found = some size ∧ lineEnd = lineEnd' := by
  cases found with
  | none => rcases step with wrong | ⟨wrong, -⟩ <;> cases wrong
  | some other =>
    unfold sizeStep at step
    by_cases zero : other = 0
    · simp only [if_pos zero] at step
      split at step
      · rcases step with wrong | ⟨same, rfl⟩
        · cases wrong
        · cases same
          exact ⟨congrArg some zero, rfl⟩
      · rcases step with wrong | ⟨wrong, -⟩ <;> cases wrong
    · simp only [if_neg zero] at step
      split at step
      · rcases step with wrong | ⟨wrong, -⟩ <;> cases wrong
      · rcases step with same | ⟨wrong, -⟩
        · cases same
          exact ⟨rfl, rfl⟩
        · cases wrong

/-- What there is where a step takes a chunk or ends the body: a size line. -/
theorem sizeLine_of_chunkStep {data : Bytes} {position lineEnd size : Nat}
    (step : chunkStep data position = .chunk lineEnd size ∨
      chunkStep data position = .last lineEnd ∧ size = 0) :
    ∃ line rest, data.drop position = line ++ crlf ++ rest ∧ lineEnd = position + line.length ∧
      SizeLine line size ∧ chunkStep data position = sizeStep data.length lineEnd (some size) := by
  have goesOn : chunkStep data position ≠ .more := by
    rcases step with step | ⟨step, -⟩ <;> rw [step] <;> nofun
  have inside : ¬ data.length ≤ position ∧ find data crlf position ≠ none := by
    refine not_or.mp fun missing => goesOn (chunkStep_noLine fun inside => ?_)
    exact missing.resolve_left inside
  obtain ⟨other, found⟩ := Option.ne_none_iff_exists'.mp inside.2
  obtain ⟨first, here, rfl⟩ := Option.map_eq_some_iff.mp found
  obtain ⟨line, rest, split, rfl, whole⟩ := exists_append_of_indexOf here crlf_ne_nil
  have taken := chunkStep_line inside.1 found
  rw [Nat.add_sub_cancel, split, List.append_assoc, List.take_left] at taken
  rw [taken] at step
  obtain ⟨read, rfl⟩ := eq_of_sizeStep step
  refine ⟨line, rest, split, Nat.add_comm _ _, ⟨read, whole⟩, ?_⟩
  rw [taken, read]

/-- A step that a prefix takes is the step of the whole. -/
theorem chunkStep_eq {text data : Bytes} (isPrefix : text <+: data) {position reached : Nat}
    (enough : max reached (chunkStep data position).extent ≤ text.length) :
    chunkStep text position = chunkStep data position := by
  rw [chunkStep_isPrefix isPrefix, if_neg (Nat.not_lt.mpr ((le_max_right _ _).trans enough))]

/-- A chunk that does not wrap is the same in all that holds it. -/
theorem take_chunk {text data : Bytes} (isPrefix : text <+: data) {lineEnd size : Nat}
    (fits : lineEnd + 2 + size ≤ text.length) :
    (text.drop (lineEnd + 2)).take size = (data.drop (lineEnd + 2)).take size := by
  obtain ⟨more, rfl⟩ := isPrefix
  rw [List.drop_append_of_le_length (by omega), List.take_append_of_le_length]
  rw [List.length_drop]
  omega

theorem extent_chunkStep_le (data : Bytes) (position : Nat) :
    (chunkStep data position).extent ≤ data.length := by
  by_contra long
  have step := chunkStep_isPrefix (List.prefix_refl data) position
  rw [if_pos (Nat.not_le.mp long)] at step
  rw [step] at long
  exact long (Nat.zero_le _)

/-! ### Passes -/

section Passes

variable {data : Bytes} {position : Nat} {body : Bytes}

theorem lt_length_of_follows {after : Nat}
    (step : (chunkStep data position).follows = some after) : position < data.length := by
  by_contra done
  rw [chunkStep, if_pos (Nat.not_lt.mp done)] at step
  cases step

/-- The loop is endless if it walks on for all of its passes. -/
theorem parseChunks_endless_iff (passes position : Nat) (body : Bytes) :
    parseChunks data passes position body = .error .endless ↔
      (walk (fun position => (chunkStep data position).follows) passes position).isSome := by
  induction passes generalizing position body with
  | zero => exact iff_of_true rfl rfl
  | succ passes inductionHypothesis =>
    have step := parseChunks_step data position body
    rw [walk]
    cases found : chunkStep data position with
    | more =>
      rw [found] at step
      obtain ⟨result, parsed, _⟩ := step
      simp [parsed, ChunkStep.follows]
    | invalid lineEnd =>
      rw [found] at step
      simp [step, ChunkStep.follows]
    | last lineEnd =>
      rw [found] at step
      simp [step, ChunkStep.follows]
    | chunk lineEnd size =>
      rw [found] at step
      rw [step]
      exact inductionHypothesis _ _

theorem parseChunks_add {passes : Nat} (more : Nat)
    (ends : parseChunks data passes position body ≠ .error .endless) :
    parseChunks data (passes + more) position body = parseChunks data passes position body := by
  induction passes generalizing position body with
  | zero => exact absurd rfl ends
  | succ passes inductionHypothesis =>
    have step := parseChunks_step data position body
    rw [Nat.succ_add]
    cases found : chunkStep data position with
    | more =>
      rw [found] at step
      obtain ⟨result, parsed, _⟩ := step
      rw [parsed, parsed]
    | invalid lineEnd =>
      rw [found] at step
      rw [step, step]
    | last lineEnd =>
      rw [found] at step
      rw [step, step]
    | chunk lineEnd size =>
      rw [found] at step
      rw [step] at ends
      rw [step, step]
      exact inductionHypothesis ends

/-- As many passes as there are positions tell. -/
theorem parseChunks_passes {passes : Nat} (enough : data.length < passes) :
    parseChunks data passes position body =
      parseChunks data (data.length + 1) position body := by
  by_cases endless : parseChunks data (data.length + 1) position body = .error .endless
  · rw [endless]
    rw [parseChunks_endless_iff] at endless ⊢
    exact walk_goesOn (fun _ _ => lt_length_of_follows) endless passes
  · obtain ⟨more, rfl⟩ := Nat.exists_eq_add_of_le enough
    exact parseChunks_add more endless

end Passes

/-! ### Runs of the loop -/

/-- A pass that takes a chunk: where it is, where its size line ends and the size of the chunk. -/
structure ChunkPass where
  position : Nat
  lineEnd : Nat
  size : Nat
  deriving DecidableEq, Repr

namespace ChunkPass

/-- The position after the chunk, which wraps. -/
def next (pass : ChunkPass) : Nat := ChunkStep.next pass.lineEnd pass.size

/-- The position after the chunk does not wrap. -/
def Fits (pass : ChunkPass) : Prop := pass.lineEnd + 2 + pass.size + 2 < 2 ^ 64

instance (pass : ChunkPass) : Decidable pass.Fits :=
  inferInstanceAs (Decidable (_ < _))

/-- The data of the chunk, as much of it as there is. -/
def taken (pass : ChunkPass) (data : Bytes) : Bytes :=
  (data.drop (pass.lineEnd + 2)).take pass.size

end ChunkPass

/-- A run of the loop: the passes that take a chunk, and the step that it ends with if it ends. -/
structure ChunkRun where
  chunks : List ChunkPass := []
  last : Option ChunkStep := none
  deriving DecidableEq, Repr

def chunkRun (data : Bytes) : Nat → Nat → ChunkRun
  | 0, _ => {}
  | passes + 1, position =>
      match chunkStep data position with
      | .chunk lineEnd size =>
          let run := chunkRun data passes (ChunkStep.next lineEnd size)
          { run with chunks := ⟨position, lineEnd, size⟩ :: run.chunks }
      | step => { last := some step }

section Runs

variable {data : Bytes} {passes position : Nat}

theorem chunkRun_chunk {lineEnd size : Nat}
    (step : chunkStep data position = .chunk lineEnd size) :
    chunkRun data (passes + 1) position =
      { chunkRun data passes (ChunkStep.next lineEnd size) with
        chunks := ⟨position, lineEnd, size⟩ ::
          (chunkRun data passes (ChunkStep.next lineEnd size)).chunks } := by
  rw [chunkRun, step]

theorem chunkRun_last {step : ChunkStep} (here : chunkStep data position = step)
    (ends : step.follows = none) :
    chunkRun data (passes + 1) position = { last := some step } := by
  rw [chunkRun, here]
  cases step with
  | chunk lineEnd size => cases ends
  | _ => rfl

/-- What the loop returns is told by the step that its run ends with. -/
theorem parseChunks_run (data : Bytes) (passes position : Nat) (body : Bytes) :
    match (chunkRun data passes position).last with
    | none => parseChunks data passes position body = .error .endless
    | some .more => ∃ result, parseChunks data passes position body = .ok result ∧
        result.complete = false
    | some (.invalid _) => parseChunks data passes position body = .error .invalidChunkSize
    | some (.last lineEnd) => parseChunks data passes position body =
        .ok
          { data := body ++ (chunkRun data passes position).chunks.flatMap (·.taken data)
            consumed := lineEnd + 4
            complete := true }
    | some (.chunk _ _) => False := by
  induction passes generalizing position body with
  | zero => rfl
  | succ passes inductionHypothesis =>
    have step := parseChunks_step data position body
    cases here : chunkStep data position with
    | more =>
      rw [here] at step
      rw [chunkRun_last here rfl]
      obtain ⟨result, parsed, incomplete⟩ := step
      exact ⟨result, parsed passes, incomplete⟩
    | invalid lineEnd =>
      rw [here] at step
      rw [chunkRun_last here rfl]
      exact step passes
    | last lineEnd =>
      rw [here] at step
      rw [chunkRun_last here rfl]
      simp only [List.flatMap_nil, List.append_nil]
      exact step passes
    | chunk lineEnd size =>
      rw [here] at step
      have later := inductionHypothesis (ChunkStep.next lineEnd size)
        (body ++ (data.drop (lineEnd + 2)).take size)
      rw [chunkRun_chunk here, step]
      simp only [List.flatMap_cons, ← List.append_assoc]
      exact later

/-- A body that is complete is read by a run that ends with the last chunk. -/
theorem last_of_parseChunks {body : Bytes} {result : BodyResult}
    (parsed : parseChunks data passes position body = .ok result)
    (complete : result.complete = true) :
    ∃ lineEnd, (chunkRun data passes position).last = some (.last lineEnd) ∧
      result.data = body ++ (chunkRun data passes position).chunks.flatMap (·.taken data) ∧
      result.consumed = lineEnd + 4 := by
  have run := parseChunks_run data passes position body
  rw [parsed] at run
  cases ends : (chunkRun data passes position).last with
  | none =>
    rw [ends] at run
    cases run
  | some step =>
    rw [ends] at run
    cases step with
    | more =>
      obtain ⟨other, same, incomplete⟩ := run
      cases same
      rw [complete] at incomplete
      cases incomplete
    | invalid lineEnd => cases run
    | last lineEnd =>
      cases run
      exact ⟨lineEnd, rfl, rfl, rfl⟩
    | chunk lineEnd size => exact run.elim

/-- A pass of a run is a step of the loop. -/
theorem chunkStep_of_mem {pass : ChunkPass}
    (member : pass ∈ (chunkRun data passes position).chunks) :
    chunkStep data pass.position = .chunk pass.lineEnd pass.size := by
  induction passes generalizing position with
  | zero => cases member
  | succ passes inductionHypothesis =>
    cases here : chunkStep data position with
    | chunk lineEnd size =>
      rw [chunkRun_chunk here] at member
      rcases List.mem_cons.mp member with rfl | later
      · exact here
      · exact inductionHypothesis later
    | _ =>
      rw [chunkRun_last here rfl] at member
      cases member

/-- Where a chunk lies. -/
theorem bounds_of_chunkStep {lineEnd size : Nat}
    (step : chunkStep data position = .chunk lineEnd size) :
    position ≤ lineEnd ∧ lineEnd + 2 ≤ data.length ∧ size < 2 ^ 64 ∧ size ≠ 0 ∧
      ChunkStep.next lineEnd size ≤ data.length := by
  obtain ⟨line, rest, split, rfl, sizeLine, taken⟩ := sizeLine_of_chunkStep (Or.inl step)
  have length := congrArg List.length split
  simp only [List.length_append, List.length_drop, length_crlf] at length
  have reached := extent_chunkStep_le data position
  rw [step] at reached taken
  have chunk : size ≠ 0 := by
    rintro rfl
    unfold sizeStep at taken
    simp only [if_pos] at taken
    split at taken <;> cases taken
  exact ⟨Nat.le_add_right _ _, by omega, fromCharsHex_lt sizeLine.value, chunk,
    (le_max_right _ _).trans reached⟩

/-! ### Progress -/

/-- The position after the chunk wraps, if at all, to one that is still ahead. -/
def ChunkPass.Ahead (pass : ChunkPass) : Prop :=
  pass.Fits ∨ 2 ^ 64 + pass.position < pass.lineEnd + 2 + pass.size + 2

instance (pass : ChunkPass) : Decidable pass.Ahead :=
  inferInstanceAs (Decidable (_ ∨ _))

theorem ahead_iff (short : data.length < 2 ^ 63) {pass : ChunkPass}
    (member : pass ∈ (chunkRun data passes position).chunks) :
    pass.Ahead ↔ pass.position < pass.next := by
  obtain ⟨before, line, size, -, -⟩ := bounds_of_chunkStep (chunkStep_of_mem member)
  unfold ChunkPass.Ahead ChunkPass.Fits ChunkPass.next ChunkStep.next
  by_cases fits : pass.lineEnd + 2 + pass.size + 2 < 2 ^ 64
  · rw [Nat.mod_eq_of_lt fits]
    exact iff_of_true (Or.inl fits) (by omega)
  · have wraps : (pass.lineEnd + 2 + pass.size + 2) % 2 ^ 64 =
        pass.lineEnd + 2 + pass.size + 2 - 2 ^ 64 := by
      rw [Nat.mod_eq_sub_mod (Nat.not_lt.mp fits), Nat.mod_eq_of_lt (by omega)]
    rw [wraps, or_iff_right fits]
    omega

/-- A loop that goes on has advanced by a byte with every pass. -/
theorem add_le_length_of_advances (inside : position ≤ data.length)
    (goesOn : (chunkRun data passes position).last = none)
    (advances : ∀ pass ∈ (chunkRun data passes position).chunks, pass.position < pass.next) :
    position + passes ≤ data.length := by
  induction passes generalizing position with
  | zero => exact inside
  | succ passes inductionHypothesis =>
    cases here : chunkStep data position with
    | chunk lineEnd size =>
      rw [chunkRun_chunk here] at goesOn advances
      obtain ⟨first, later⟩ := List.forall_mem_cons.mp advances
      obtain ⟨-, -, -, -, next⟩ := bounds_of_chunkStep here
      have less : position < ChunkStep.next lineEnd size := first
      have most := inductionHypothesis next goesOn later
      omega
    | _ =>
      rw [chunkRun_last here rfl] at goesOn
      cases goesOn

/-- A run that has ended has all the passes of any other. -/
theorem mem_chunks_of_last {count : Nat} (ends : (chunkRun data count position).last ≠ none)
    {pass : ChunkPass} (member : pass ∈ (chunkRun data passes position).chunks) :
    pass ∈ (chunkRun data count position).chunks := by
  induction passes generalizing count position with
  | zero => cases member
  | succ passes inductionHypothesis =>
    cases count with
    | zero => exact absurd rfl ends
    | succ count =>
      cases here : chunkStep data position with
      | chunk lineEnd size =>
        rw [chunkRun_chunk here] at member ends ⊢
        rcases List.mem_cons.mp member with rfl | later
        · exact List.mem_cons_self
        · exact List.mem_cons_of_mem _ (inductionHypothesis ends later)
      | _ =>
        rw [chunkRun_last here rfl] at member
        cases member

/-- The run over a whole body. With as many passes as there are positions it ends if it ever
does. -/
def bodyRun (data : Bytes) : ChunkRun := chunkRun data (data.length + 1) 0

/-- The loop over a chunked body ends, and every pass that takes a chunk leads further on and not
out of the data. -/
def MakesProgress (data : Bytes) (hdrs : Headers) : Prop :=
  parseBody data hdrs ≠ .error .endless ∧
    ∀ passes, ∀ pass ∈ (chunkRun data passes 0).chunks,
      pass.position < pass.next ∧ pass.next ≤ data.length

/-- The loop makes progress if and only if the position never wraps to one that is not ahead. -/
theorem makesProgress_iff {hdrs : Headers} (chunked : hdrs.isChunked = true)
    (short : data.length < 2 ^ 63) :
    MakesProgress data hdrs ↔ ∀ pass ∈ (bodyRun data).chunks, pass.Ahead := by
  constructor
  · rintro ⟨-, advances⟩ pass member
    exact (ahead_iff short member).mpr (advances _ pass member).1
  · intro ahead
    have ends : (bodyRun data).last ≠ none := by
      intro goesOn
      have most := add_le_length_of_advances (Nat.zero_le _) goesOn fun pass member =>
        (ahead_iff short member).mp (ahead pass member)
      omega
    refine ⟨fun endless => ?_, fun passes pass member => ⟨?_, ?_⟩⟩
    · rw [parseBody, if_pos chunked] at endless
      have run := parseChunks_run data (data.length + 1) 0 []
      rw [endless] at run
      cases last : (chunkRun data (data.length + 1) 0).last with
      | none => exact ends last
      | some step =>
        rw [last] at run
        cases step with
        | more =>
          obtain ⟨result, wrong, -⟩ := run
          cases wrong
        | chunk lineEnd size => exact run
        | _ => cases run
    · exact (ahead_iff short member).mp (ahead pass (mem_chunks_of_last ends member))
    · exact (bounds_of_chunkStep (chunkStep_of_mem member)).2.2.2.2

/-- A chunk of a byte and the last chunk. -/
def oneByte : Bytes := ascii "1\r\na\r\n0\r\n\r\n"

theorem makesProgress_oneByte :
    MakesProgress oneByte [(ascii "Transfer-Encoding", ascii "chunked")] :=
  (makesProgress_iff (by decide +kernel) (by decide +kernel)).mpr (by decide +kernel)

/-- A size with which the position wraps to the beginning of its own line. -/
def backToStart : Bytes := ascii "FFFFFFFFFFFFFFEC\r\n"

theorem not_makesProgress_backToStart :
    parseBody backToStart [(ascii "Transfer-Encoding", ascii "chunked")] = .error .endless ∧
      ¬ MakesProgress backToStart [(ascii "Transfer-Encoding", ascii "chunked")] := by
  have endless : parseBody backToStart [(ascii "Transfer-Encoding", ascii "chunked")] =
      .error .endless := by decide +kernel
  exact ⟨endless, fun progress => progress.1 endless⟩

end Runs

end Http1

end AsyncNet.Http
