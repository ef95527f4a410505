/-
This file is about a buffer that grows: what `parse_request` has said once, a request with its
length or an exception, it says again when more bytes have come. The head ends at the same place,
and a body that is complete is complete with the same bytes. The one way in which it changes
is a chunk whose size wraps the position: `substr` then takes all that there is for its data, and
there is more of it in a longer buffer.
-/

import AsyncNet.Http.Http1Chunks
import AsyncNet.Library.Runs
import Mathlib.Algebra.Order.BigOperators.Group.List

namespace AsyncNet.Http

open Library

namespace Http1

/-! ### Runs over a longer body -/

section Runs

variable {text more : Bytes} {passes position : Nat}

/-- A step that has been taken is taken again. -/
theorem chunkStep_grows (goesOn : chunkStep text position ≠ .more) (more : Bytes) :
    chunkStep (text ++ more) position = chunkStep text position := by
  have step := chunkStep_isPrefix (List.prefix_append text more) position
  split at step
  · exact absurd step goesOn
  · exact step.symm

/-- A run that has come to its end is the same over a longer body, and with more passes. -/
theorem chunkRun_grows {step : ChunkStep} (last : (chunkRun text passes position).last = some step)
    (settled : step ≠ .more) (further : Nat) :
    chunkRun (text ++ more) (passes + further) position = chunkRun text passes position := by
  induction passes generalizing position with
  | zero => cases last
  | succ passes inductionHypothesis =>
    rw [Nat.succ_add]
    cases here : chunkStep text position with
    | more =>
      rw [chunkRun_last here rfl] at last
      cases last
      exact absurd rfl settled
    | chunk lineEnd size =>
      have again : chunkStep (text ++ more) position = .chunk lineEnd size := by
        rw [chunkStep_grows (by rw [here]; nofun), here]
      rw [chunkRun_chunk here] at last
      rw [chunkRun_chunk here, chunkRun_chunk again, inductionHypothesis last]
    | _ =>
      have goesOn : chunkStep text position ≠ .more := by
        rw [here]
        nofun
      have again := chunkStep_grows goesOn more
      rw [chunkRun_last here rfl, chunkRun_last (again.trans here) rfl]

theorem bodyRun_grows {step : ChunkStep} (last : (bodyRun text).last = some step)
    (settled : step ≠ .more) : bodyRun (text ++ more) = bodyRun text := by
  have passes : (text ++ more).length + 1 = text.length + 1 + more.length := by
    rw [List.length_append]
    omega
  rw [bodyRun, passes]
  exact chunkRun_grows last settled _

/-- A run ends with a step. -/
theorem exists_chunkStep_of_last {step : ChunkStep}
    (last : (chunkRun text passes position).last = some step) :
    ∃ visited, chunkStep text visited = step := by
  induction passes generalizing position with
  | zero => cases last
  | succ passes inductionHypothesis =>
    cases here : chunkStep text position with
    | chunk lineEnd size =>
      rw [chunkRun_chunk here] at last
      exact inductionHypothesis last
    | _ =>
      rw [chunkRun_last here rfl] at last
      cases last
      exact ⟨position, here⟩

/-- A chunk that does not wrap carries the same data, and one that wraps carries more. -/
theorem taken_grows (short : (text ++ more).length < 2 ^ 63) {pass : ChunkPass}
    (member : pass ∈ (chunkRun text passes position).chunks) :
    (pass.Fits → pass.taken (text ++ more) = pass.taken text) ∧
      (¬ pass.Fits → pass.taken (text ++ more) = pass.taken text ++ more) := by
  obtain ⟨-, line, -, -, next⟩ := bounds_of_chunkStep (chunkStep_of_mem member)
  unfold ChunkPass.Fits ChunkPass.taken
  rw [List.length_append] at short
  constructor
  · intro fits
    rw [ChunkStep.next, Nat.mod_eq_of_lt fits] at next
    exact (take_chunk (List.prefix_append text more) (by omega)).symm
  · intro wraps
    rw [List.drop_append_of_le_length line, List.take_of_length_le, List.take_of_length_le]
    · rw [List.length_drop]
      omega
    · rw [List.length_append, List.length_drop]
      omega

/-- What the chunks of a run carry is the same over a longer body if and only if none of them
wraps. -/
theorem flatMap_taken_grows_iff (short : (text ++ more).length < 2 ^ 63) (some : more ≠ []) :
    (chunkRun text passes position).chunks.flatMap (·.taken (text ++ more)) =
        (chunkRun text passes position).chunks.flatMap (·.taken text) ↔
      ∀ pass ∈ (chunkRun text passes position).chunks, pass.Fits := by
  constructor
  · intro same
    by_contra wraps
    push Not at wraps
    obtain ⟨pass, member, wraps⟩ := wraps
    have lengths := congrArg List.length same
    rw [List.length_flatMap, List.length_flatMap] at lengths
    refine lt_irrefl _ (lt_of_lt_of_eq (List.sum_lt_sum _ _ ?_ ⟨pass, member, ?_⟩) lengths)
    · intro other among
      obtain ⟨fit, wrap⟩ := taken_grows short among
      by_cases fits : other.Fits
      · rw [fit fits]
      · rw [wrap fits, List.length_append]
        exact Nat.le_add_right _ _
    · rw [(taken_grows short member).2 wraps, List.length_append]
      exact Nat.lt_add_of_pos_right (List.length_pos_of_ne_nil some)
  · exact fun fits => List.flatMap_congr fun pass member =>
      (taken_grows short member).1 (fits pass member)

end Runs

/-! ### Bodies -/

section Bodies

variable {text more : Bytes} {hdrs : Headers}

theorem parseBody_chunked (chunked : hdrs.isChunked = true) (text : Bytes) :
    parseBody text hdrs = parseChunks text (text.length + 1) 0 [] := by
  rw [parseBody, if_pos chunked]

/-- An exception is thrown again. -/
theorem parseBody_error_grows {error : ParseError} (parsed : parseBody text hdrs = .error error)
    (thrown : error ≠ .endless) : parseBody (text ++ more) hdrs = .error error := by
  cases chunked : hdrs.isChunked with
  | false =>
    rw [parseBody, if_neg (Bool.eq_false_iff.mp chunked)] at parsed
    split at parsed
    · split at parsed <;> cases parsed
    · cases parsed
  | true =>
    rw [parseBody_chunked chunked] at parsed ⊢
    have run := parseChunks_run text (text.length + 1) 0 []
    have again := parseChunks_run (text ++ more) ((text ++ more).length + 1) 0 []
    rw [parsed] at run
    cases last : (chunkRun text (text.length + 1) 0).last with
    | none =>
      rw [last] at run
      exact absurd (Except.error.inj run) thrown
    | some step =>
      rw [last] at run
      cases step with
      | more =>
        obtain ⟨result, wrong, -⟩ := run
        cases wrong
      | invalid lineEnd =>
        cases run
        have same : chunkRun (text ++ more) ((text ++ more).length + 1) 0 =
            chunkRun text (text.length + 1) 0 := bodyRun_grows last fun wrong => ChunkStep.noConfusion wrong
        rw [same, last] at again
        exact again
      | last lineEnd => cases run
      | chunk lineEnd size => exact run.elim

/-- A body that is complete is complete with as many bytes when more have come, and with the same
data if it is not one of chunks that wrap. -/
theorem parseBody_complete_grows {result : BodyResult} (short : (text ++ more).length < 2 ^ 63)
    (parsed : parseBody text hdrs = .ok result) (complete : result.complete = true) :
    result.consumed ≤ text.length ∧ ∃ data,
      parseBody (text ++ more) hdrs = .ok ⟨data, result.consumed, true⟩ ∧
        (data = result.data ↔ more = [] ∨
          (hdrs.isChunked = true → ∀ pass ∈ (bodyRun text).chunks, pass.Fits)) := by
  cases chunked : hdrs.isChunked with
  | false =>
    have plain : ¬ hdrs.isChunked = true := Bool.eq_false_iff.mp chunked
    have always (data : Bytes) : data = data ↔ more = [] ∨
        (false = true → ∀ pass ∈ (bodyRun text).chunks, pass.Fits) :=
      iff_of_true rfl (Or.inr fun wrong => absurd wrong Bool.false_ne_true)
    rw [parseBody, if_neg plain] at parsed ⊢
    split at parsed
    · rename_i length _
      split at parsed
      · cases parsed
        cases complete
      · rename_i enough
        cases parsed
        have least : ¬ (text ++ more).length < length := by
          rw [List.length_append]
          omega
        refine ⟨Nat.not_lt.mp enough, text.take length, ?_, always _⟩
        simp only [if_neg least, List.take_append_of_le_length (Nat.not_lt.mp enough)]
    · cases parsed
      exact ⟨Nat.zero_le _, [], rfl, always _⟩
  | true =>
    rw [parseBody_chunked chunked] at parsed ⊢
    obtain ⟨lineEnd, last, carried, consumed⟩ := last_of_parseChunks parsed complete
    obtain ⟨position, step⟩ := exists_chunkStep_of_last last
    have inside := extent_chunkStep_le text position
    rw [step] at inside
    have same : chunkRun (text ++ more) ((text ++ more).length + 1) 0 = bodyRun text :=
      bodyRun_grows last fun wrong => ChunkStep.noConfusion wrong
    have run := parseChunks_run (text ++ more) ((text ++ more).length + 1) 0 []
    rw [same, show (bodyRun text).last = some (.last lineEnd) from last] at run
    rw [consumed, carried]
    refine ⟨inside, _, run, ?_⟩
    by_cases nothing : more = []
    · rw [nothing, List.append_nil]
      exact iff_of_true rfl (Or.inl rfl)
    · rw [or_iff_right nothing, imp_iff_right rfl]
      exact flatMap_taken_grows_iff short nothing

end Bodies

/-! ### Requests -/

/-- The bytes behind a head. -/
def behindHead (data : Bytes) : Bytes := (findHeaderEnd data).elim [] data.drop

/-- What `parse_request` returns or throws, and that a request has no more bytes than there are, is
the same with more bytes behind. -/
structure PrefixStable (data more : Bytes) : Prop where
  returns : ∀ req consumed, parseRequest data = .ok (some (req, consumed)) →
    consumed ≤ data.length ∧ parseRequest (data ++ more) = .ok (some (req, consumed))
  throws : ∀ error, parseRequest data = .error error → error.what ≠ none →
    parseRequest (data ++ more) = .error error

section Requests

variable {data more : Bytes}

/-- A head and what is behind it, also when more has come. -/
theorem exists_head {headerEnd : Nat} (found : findHeaderEnd data = some headerEnd) :
    ∃ head body firstLineEnd, data = head ++ blankLine ++ body ∧ behindHead data = body ∧
      ∀ rest, parseRequest (head ++ blankLine ++ rest) =
        (parseHead (head ++ blankLine) firstLineEnd (head.length + 4)).bind fun req =>
          (parseBody rest req.hdrs).map fun result =>
            if result.complete then
              some ({ req with bd := result.data }, (head ++ blankLine).length + result.consumed)
            else none := by
  have behind : behindHead data = data.drop headerEnd := by rw [behindHead, found]; rfl
  obtain ⟨position, here, rfl⟩ := Option.map_eq_some_iff.mp found
  obtain ⟨head, body, rfl, rfl, ends⟩ := exists_append_of_indexOf here blankLine_ne_nil
  have own : findHeaderEnd (head ++ blankLine) = some (head.length + 4) := by
    rw [findHeaderEnd, ends]
    rfl
  obtain ⟨-, firstLineEnd, -, firstLine⟩ := findHeaderEnd_eq own
  refine ⟨head, body, firstLineEnd, rfl, ?_, parseRequest_bind ends firstLine⟩
  rw [behind, show head.length + 4 = (head ++ blankLine).length by
    rw [List.length_append, length_blankLine], List.drop_left]

/-- An exception of the head or of the body is thrown again. -/
theorem parseRequest_error_grows {error : ParseError} (parsed : parseRequest data = .error error)
    (thrown : error.what ≠ none) : parseRequest (data ++ more) = .error error := by
  cases found : findHeaderEnd data with
  | none =>
    rw [parseRequest, found] at parsed
    cases parsed
  | some headerEnd =>
    obtain ⟨head, body, firstLineEnd, rfl, -, parses⟩ := exists_head found
    rw [parses] at parsed
    rw [List.append_assoc, parses]
    cases headOf : parseHead (head ++ blankLine) firstLineEnd (head.length + 4) with
    | error error =>
      rw [headOf] at parsed
      exact parsed
    | ok req =>
      rw [headOf] at parsed
      change (parseBody body req.hdrs).map _ = _ at parsed
      change (parseBody (body ++ more) req.hdrs).map _ = _
      cases bodyOf : parseBody body req.hdrs with
      | error error =>
        rw [bodyOf] at parsed
        cases parsed
        rw [parseBody_error_grows bodyOf (by rintro rfl; exact thrown rfl)]
        rfl
      | ok result =>
        rw [bodyOf] at parsed
        cases parsed

/-- A request that is returned takes as many bytes when more have come, and has the same body if
none of its chunks wraps. -/
theorem parseRequest_complete_grows (short : (data ++ more).length < 2 ^ 63) {req : Request}
    {consumed : Nat} (parsed : parseRequest data = .ok (some (req, consumed))) :
    consumed ≤ data.length ∧ ∃ bd,
      parseRequest (data ++ more) = .ok (some ({ req with bd }, consumed)) ∧
        (bd = req.bd ↔ more = [] ∨
          (req.hdrs.isChunked = true →
            ∀ pass ∈ (bodyRun (behindHead data)).chunks, pass.Fits)) := by
  cases found : findHeaderEnd data with
  | none =>
    rw [parseRequest, found] at parsed
    cases parsed
  | some headerEnd =>
    obtain ⟨head, body, firstLineEnd, split, behind, parses⟩ := exists_head found
    have lengths := congrArg List.length split
    rw [List.length_append] at lengths short
    have shortBody : (body ++ more).length < 2 ^ 63 := by
      rw [List.length_append]
      omega
    have longer : data ++ more = head ++ blankLine ++ (body ++ more) := by
      rw [split, List.append_assoc]
    rw [split, parses] at parsed
    rw [behind, longer, parses]
    cases headOf : parseHead (head ++ blankLine) firstLineEnd (head.length + 4) with
    | error error =>
      rw [headOf] at parsed
      cases parsed
    | ok req' =>
      rw [headOf] at parsed
      obtain ⟨result, bodyOf, returned⟩ := map_ok parsed
      cases complete : result.complete with
      | false =>
        rw [complete] at returned
        cases returned
      | true =>
        rw [complete] at returned
        cases returned
        obtain ⟨inside, carried, again, same⟩ :=
          parseBody_complete_grows shortBody bodyOf complete
        refine ⟨by omega, carried, ?_, same⟩
        change (parseBody (body ++ more) req'.hdrs).map _ = _
        rw [again]
        rfl

/-- A buffer that grows gives the same request or throws again, unless it grows by bytes that a
chunk takes whose size wraps the position. -/
theorem prefixStable_iff (short : (data ++ more).length < 2 ^ 63) :
    PrefixStable data more ↔ more = [] ∨
      ∀ req consumed, parseRequest data = .ok (some (req, consumed)) →
        req.hdrs.isChunked = true → ∀ pass ∈ (bodyRun (behindHead data)).chunks, pass.Fits := by
  constructor
  · rintro ⟨returns, -⟩
    by_cases nothing : more = []
    · exact Or.inl nothing
    · refine Or.inr fun req consumed parsed => ?_
      obtain ⟨-, bd, grown, same⟩ := parseRequest_complete_grows short parsed
      have stable := (returns req consumed parsed).2
      rw [grown] at stable
      have bodies : bd = req.bd :=
        congrArg (fun entry => entry.1.bd) (Option.some.inj (Except.ok.inj stable))
      exact (same.mp bodies).resolve_left nothing
  · intro condition
    refine ⟨fun req consumed parsed => ?_, fun error => parseRequest_error_grows⟩
    obtain ⟨inside, bd, grown, same⟩ := parseRequest_complete_grows short parsed
    have bodies : bd = req.bd := same.mpr (condition.imp_right fun fits => fits req consumed parsed)
    rw [grown, bodies]
    exact ⟨inside, rfl⟩

end Requests

/-- A request without a body, and a byte of the next one. -/
theorem prefixStable_getRoot : PrefixStable (ascii "GET / HTTP/1.1" ++ blankLine) (ascii "G") :=
  (prefixStable_iff (by decide +kernel)).mpr (Or.inr fun req consumed parsed chunked => by
    have known : parseRequest (ascii "GET / HTTP/1.1" ++ blankLine) = .ok (some ({}, 18)) := by
      decide +kernel
    rw [known] at parsed
    cases parsed
    exact absurd chunked (by decide +kernel))

/-- A chunk whose size leads back to the line behind its own. -/
def takesAll : Bytes :=
  ascii "POST / HTTP/1.1\r\nTransfer-Encoding: chunked\r\n\r\nFFFFFFFFFFFFFFFE\r\n0\r\n\r\n"

/-- The body of the request grows with the bytes behind it. -/
theorem not_prefixStable_takesAll :
    (parseRequest takesAll).map (Option.map fun entry => entry.1.bd) =
        .ok (some (ascii "0\r\n\r\n")) ∧
      (parseRequest (takesAll ++ ascii "G")).map (Option.map fun entry => entry.1.bd) =
        .ok (some (ascii "0\r\n\r\nG")) ∧
      ¬ PrefixStable takesAll (ascii "G") := by
  have now : (parseRequest takesAll).map (Option.map fun entry => entry.1.bd) =
      .ok (some (ascii "0\r\n\r\n")) := by decide +kernel
  have grown : (parseRequest (takesAll ++ ascii "G")).map (Option.map fun entry => entry.1.bd) =
      .ok (some (ascii "0\r\n\r\nG")) := by decide +kernel
  refine ⟨now, grown, fun stable => ?_⟩
  cases parsed : parseRequest takesAll with
  | error error =>
    rw [parsed] at now
    cases now
  | ok entry =>
    cases entry with
    | none =>
      rw [parsed] at now
      cases now
    | some entry =>
      rw [(stable.returns entry.1 entry.2 parsed).2, ← parsed, now] at grown
      exact absurd grown (by decide +kernel)

end Http1

end AsyncNet.Http
