/-
This file is about the client that reads a response from a socket, `client::read_response` of
`src/http/client_impl.cpp`. After every read all that has come is parsed again, so what it
returns does not depend on the reads if the response has an end that its bytes tell, whatever
follows, and if it can be reached with reads of a single byte. A response that is ended by the
end of the connection is taken to be whatever has come when its first byte is there.
-/

import AsyncNet.Http.Http1Chunks
import AsyncNet.Http.Http1Pipelining

namespace AsyncNet.Http

open Library

namespace Http1

/-! ### The client -/

/-- The loop of `read_response`: the buffer is parsed and grows by a read, for a number of attempts.
A read after the last one finds the connection closed. -/
def readAttempts : Nat → Bytes → List Bytes → Except ResponseError (Option Response)
  | 0, _, _ => .ok none
  | attempts + 1, buffer, reads => do
      match ← parseResponse buffer with
      | some (resp, _) => return some resp
      | none =>
          match reads with
          | [] =>
              if buffer = [] then return none
              else return (← parseResponse buffer).map Prod.fst
          | read :: reads => readAttempts attempts (buffer ++ read) reads

/-- `client::read_response`. -/
def readResponse (reads : List Bytes) : Except ResponseError (Option Response) :=
  readAttempts 1000 [] reads

/-! ### Where a response ends -/

/-- Where a message ends: its bytes do not tell yet, it takes a number of bytes whatever follows, or
it takes whatever has come once there is a number of bytes. -/
inductive Extent where
  | unfinished
  | exactly (length : Nat)
  | atLeast (length : Nat)
  deriving DecidableEq, Repr

/-- The number of bytes with which a message is complete. -/
def Extent.length : Extent → Option Nat
  | .unfinished => none
  | .exactly length => some length
  | .atLeast length => some length

/-- A message after some bytes. -/
def Extent.after (front : Nat) : Extent → Extent
  | .unfinished => .unfinished
  | .exactly length => .exactly (front + length)
  | .atLeast length => .atLeast (front + length)

/-- Where a chunked body ends, after steps up to a number of bytes. A size with which the position
wraps takes all that has come, but this is seen only in a body that is completed. -/
def chunkExtent (data : Bytes) : Nat → Nat → Nat → Bool → Extent
  | 0, _, reached, _ => .exactly reached
  | passes + 1, position, reached, wraps =>
      let step := chunkStep data position
      let reached := max reached step.extent
      match step with
      | .more => .unfinished
      | .invalid _ => .exactly reached
      | .last _ => if wraps then .atLeast reached else .exactly reached
      | .chunk lineEnd size =>
          chunkExtent data passes (ChunkStep.next lineEnd size) reached
            (wraps || 2 ^ 64 ≤ lineEnd + 2 + size + 2)

/-- Where the body of a response ends. -/
def bodyExtent (resp : Response) (data : Bytes) : Extent :=
  if resp.hdrs.isChunked then chunkExtent data (data.length + 1) 0 0 false
  else
    match resp.hdrs.contentLength with
    | some length => if data.length < length then .unfinished else .exactly length
    | none =>
        if isBodiless resp.status then .exactly 0
        else if data = [] then .unfinished
        else .atLeast 1

/-- Where a response ends. With a head that is not valid, it is the head. -/
def extent (data : Bytes) : Extent :=
  match findHeaderEnd data with
  | none => .unfinished
  | some headerEnd =>
      match indexOf crlf data with
      | none => .unfinished
      | some firstLineEnd =>
          match parseResponseHead data firstLineEnd headerEnd with
          | .error _ => .exactly headerEnd
          | .ok resp => (bodyExtent resp (data.drop headerEnd)).after headerEnd

/-! ### Chunked bodies -/

section Extents

variable {data : Bytes} {passes position reached length : Nat} {wraps : Bool}

/-- A body ends with the step at a position, or behind the chunk that is there. -/
theorem chunkExtent_succ
    (ends : (chunkExtent data (passes + 1) position reached wraps).length = some length) :
    max reached (chunkStep data position).extent = length ∨
      ∃ next wraps', (chunkExtent data passes next
        (max reached (chunkStep data position).extent) wraps').length = some length := by
  rw [chunkExtent] at ends
  cases found : chunkStep data position with
  | more =>
    rw [found] at ends
    cases ends
  | invalid lineEnd =>
    rw [found] at ends
    exact Or.inl (Option.some_inj.mp ends)
  | last lineEnd =>
    rw [found] at ends
    cases wraps <;> exact Or.inl (Option.some_inj.mp ends)
  | chunk lineEnd size =>
    rw [found] at ends
    exact Or.inr ⟨_, _, ends⟩

theorem le_chunkExtent
    (ends : (chunkExtent data passes position reached wraps).length = some length) :
    reached ≤ length := by
  induction passes generalizing position reached wraps with
  | zero =>
    cases ends
    exact le_rfl
  | succ passes inductionHypothesis =>
    rcases chunkExtent_succ ends with rfl | ⟨next, wraps', later⟩
    · exact le_max_left _ _
    · exact (le_max_left _ _).trans (inductionHypothesis later)

theorem reaches_of_chunkExtent
    (ends : (chunkExtent data (passes + 1) position reached wraps).length = some length) :
    max reached (chunkStep data position).extent ≤ length := by
  rcases chunkExtent_succ ends with rfl | ⟨next, wraps', later⟩
  · exact le_rfl
  · exact le_chunkExtent later

theorem chunkExtent_le
    (ends : (chunkExtent data passes position reached wraps).length = some length)
    (held : reached ≤ data.length) : length ≤ data.length := by
  induction passes generalizing position reached wraps with
  | zero =>
    cases ends
    exact held
  | succ passes inductionHypothesis =>
    have reaches : max reached (chunkStep data position).extent ≤ data.length :=
      max_le held (extent_chunkStep_le data position)
    rcases chunkExtent_succ ends with rfl | ⟨next, wraps', later⟩
    · exact reaches
    · exact inductionHypothesis later reaches

end Extents

/-- As long as bytes of the body are missing, more are asked for. -/
theorem parseChunks_short {text data : Bytes} (isPrefix : text <+: data)
    (passes position reached : Nat) (wraps : Bool) (body : Bytes) (held : reached ≤ text.length)
    (short : ∀ length, (chunkExtent data passes position reached wraps).length = some length →
      text.length < length) :
    ∃ result, parseChunks text passes position body = .ok result ∧ result.complete = false := by
  induction passes generalizing position reached wraps body with
  | zero => exact absurd (short reached rfl) (Nat.not_lt.mpr held)
  | succ passes inductionHypothesis =>
    have step := parseChunks_step text position body
    rw [chunkStep_isPrefix isPrefix] at step
    by_cases few : text.length < (chunkStep data position).extent
    · rw [if_pos few] at step
      obtain ⟨result, parsed, incomplete⟩ := step
      exact ⟨result, parsed passes, incomplete⟩
    · rw [if_neg few] at step
      have enough : max reached (chunkStep data position).extent ≤ text.length :=
        max_le held (Nat.not_lt.mp few)
      rw [chunkExtent] at short
      cases found : chunkStep data position with
      | more =>
        rw [found] at step
        obtain ⟨result, parsed, incomplete⟩ := step
        exact ⟨result, parsed passes, incomplete⟩
      | invalid lineEnd =>
        rw [found] at short enough
        exact absurd (short _ rfl) (Nat.not_lt.mpr enough)
      | last lineEnd =>
        rw [found] at short enough
        cases wraps <;> exact absurd (short _ rfl) (Nat.not_lt.mpr enough)
      | chunk lineEnd size =>
        rw [found] at short enough step
        rw [step]
        exact inductionHypothesis _ _ _ _ enough short

/-- A body with an end is read in the same way from all that holds it. -/
theorem parseChunks_exactly {text text' data : Bytes} (isPrefix : text <+: data)
    (isPrefix' : text' <+: data) (passes position reached : Nat) (wraps : Bool)
    (body body' : Bytes) {length : Nat}
    (ends : chunkExtent data passes position reached wraps = .exactly length)
    (long : length ≤ text.length) (long' : length ≤ text'.length)
    (same : wraps = true ∨ body = body') :
    parseChunks text passes position body = parseChunks text' passes position body' ∧
      ∀ result, parseChunks text passes position body = .ok result → result.complete = true := by
  induction passes generalizing position reached wraps body body' with
  | zero => exact ⟨rfl, nofun⟩
  | succ passes inductionHypothesis =>
    have reaches := reaches_of_chunkExtent (congrArg Extent.length ends)
    rw [chunkExtent] at ends
    have step := parseChunks_step text position body
    have step' := parseChunks_step text' position body'
    cases found : chunkStep data position with
    | more =>
      rw [found] at ends
      cases ends
    | invalid lineEnd =>
      rw [chunkStep_eq isPrefix (reaches.trans long), found] at step
      rw [chunkStep_eq isPrefix' (reaches.trans long'), found] at step'
      rw [step, step']
      exact ⟨rfl, nofun⟩
    | last lineEnd =>
      rw [chunkStep_eq isPrefix (reaches.trans long), found] at step
      rw [chunkStep_eq isPrefix' (reaches.trans long'), found] at step'
      rw [found] at ends
      cases wraps with
      | true => cases ends
      | false =>
        obtain wrong | rfl := same
        · cases wrong
        · rw [step, step']
          refine ⟨rfl, fun result parsed => ?_⟩
          cases parsed
          rfl
    | chunk lineEnd size =>
      rw [chunkStep_eq isPrefix (reaches.trans long), found] at step
      rw [chunkStep_eq isPrefix' (reaches.trans long'), found] at step'
      rw [found] at ends reaches
      rw [step, step']
      refine inductionHypothesis _ _ _ _ _ ends ?_
      by_cases wrapped : 2 ^ 64 ≤ lineEnd + 2 + size + 2
      · left
        rw [decide_eq_true wrapped, Bool.or_true]
      · obtain already | rfl := same
        · left
          rw [already, Bool.true_or]
        · right
          have next : ChunkStep.next lineEnd size = lineEnd + 2 + size + 2 :=
            Nat.mod_eq_of_lt (Nat.not_le.mp wrapped)
          have fits : lineEnd + 2 + size + 2 ≤ length := by
            rw [← next]
            exact ((le_max_right _ _).trans (le_max_right _ _)).trans reaches
          rw [take_chunk isPrefix (by omega), take_chunk isPrefix' (by omega)]

/-- A body whose chunks wrap is longer in what is longer. -/
theorem parseChunks_atLeast {text text' data : Bytes} (isPrefix : text <+: data)
    (isPrefix' : text' <+: data) (most : text.length ≤ text'.length)
    (short : text'.length < 2 ^ 63) (passes position reached : Nat) (wraps : Bool)
    (body body' : Bytes) {length : Nat}
    (ends : chunkExtent data passes position reached wraps = .atLeast length)
    (long : length ≤ text.length) (grows : body.length ≤ body'.length)
    (grown : wraps = true → text.length < text'.length → body.length < body'.length) :
    ∃ consumed whole whole',
      parseChunks text passes position body = .ok ⟨whole, consumed, true⟩ ∧
      parseChunks text' passes position body' = .ok ⟨whole', consumed, true⟩ ∧
      (text.length < text'.length → whole.length < whole'.length) := by
  induction passes generalizing position reached wraps body body' with
  | zero => cases ends
  | succ passes inductionHypothesis =>
    have reaches := (reaches_of_chunkExtent (congrArg Extent.length ends)).trans long
    rw [chunkExtent] at ends
    have step := parseChunks_step text position body
    have step' := parseChunks_step text' position body'
    cases found : chunkStep data position with
    | more =>
      rw [found] at ends
      cases ends
    | invalid lineEnd =>
      rw [found] at ends
      cases ends
    | last lineEnd =>
      rw [found] at ends
      cases wraps with
      | false => cases ends
      | true =>
        cases ends
        rw [chunkStep_eq isPrefix reaches, found] at step
        rw [chunkStep_eq isPrefix' (reaches.trans most), found] at step'
        exact ⟨_, _, _, step passes, step' passes, grown rfl⟩
    | chunk lineEnd size =>
      rw [found] at ends
      rw [chunkStep_eq isPrefix reaches, found] at step
      rw [chunkStep_eq isPrefix' (reaches.trans most), found] at step'
      rw [found] at reaches
      have line : lineEnd + 2 ≤ text.length :=
        ((le_max_left _ _).trans (le_max_right _ _)).trans reaches
      rw [step, step']
      refine inductionHypothesis _ _ _ _ _ ends ?_ ?_
      · simp only [List.length_append, List.length_take, List.length_drop]
        omega
      · intro wrapped less
        simp only [List.length_append, List.length_take, List.length_drop]
        obtain already | now := Bool.or_eq_true_iff.mp wrapped
        · have more := grown already less
          omega
        · have wide := of_decide_eq_true now
          omega

/-! ### Bodies -/

section Bodies

variable {resp : Response} {text text' data : Bytes} {length : Nat}

theorem parseResponseBody_chunked (isChunked : resp.hdrs.isChunked = true)
    (isPrefix : text <+: data) :
    parseResponseBody resp text =
      match parseChunks text (data.length + 1) 0 [] with
      | .error error => .error (.ofBody error)
      | .ok result =>
          .ok (if result.complete then some ({ resp with bd := result.data }, result.consumed)
            else none) := by
  have announced : ¬ (resp.hdrs.contentLength = none ∧ resp.hdrs.isChunked = false) := by
    rw [isChunked]
    exact fun both => Bool.false_ne_true both.2.symm
  have enough : text.length < data.length + 1 := Nat.lt_succ_of_le isPrefix.length_le
  rewrite [parseResponseBody, if_neg announced, parseBody, if_pos isChunked,
    ← parseChunks_passes enough]
  cases parseChunks text (data.length + 1) 0 [] <;> rfl

theorem parseResponseBody_length (plain : resp.hdrs.isChunked = false)
    (known : resp.hdrs.contentLength = some length) (text : Bytes) :
    parseResponseBody resp text =
      .ok (if text.length < length then none
        else some ({ resp with bd := text.take length }, length)) := by
  have announced : ¬ (resp.hdrs.contentLength = none ∧ resp.hdrs.isChunked = false) := by
    rw [known]
    exact fun both => nomatch both.1
  rw [parseResponseBody, if_neg announced, parseBody, if_neg (Bool.eq_false_iff.mp plain), known]
  by_cases short : text.length < length
  · simp only [if_pos short]
    rfl
  · simp only [if_neg short]
    rfl

theorem parseResponseBody_unknown (plain : resp.hdrs.isChunked = false)
    (unknown : resp.hdrs.contentLength = none) (text : Bytes) :
    parseResponseBody resp text =
      .ok (if isBodiless resp.status then some (resp, 0)
        else if text = [] then none
        else some ({ resp with bd := text }, text.length)) := by
  rw [parseResponseBody, if_pos ⟨unknown, plain⟩]
  split
  · rfl
  · split <;> rfl

/-- As long as bytes of the body are missing, more are asked for. -/
theorem parseResponseBody_short (isPrefix : text <+: data)
    (short : ∀ length, (bodyExtent resp data).length = some length → text.length < length) :
    parseResponseBody resp text = .ok none := by
  have most := isPrefix.length_le
  unfold bodyExtent at short
  cases chunked : resp.hdrs.isChunked with
  | true =>
    rw [if_pos chunked] at short
    obtain ⟨result, parsed, incomplete⟩ :=
      parseChunks_short isPrefix _ 0 0 false [] (Nat.zero_le _) short
    rw [parseResponseBody_chunked chunked isPrefix, parsed]
    dsimp only
    rw [incomplete]
    rfl
  | false =>
    rw [if_neg (Bool.eq_false_iff.mp chunked)] at short
    cases known : resp.hdrs.contentLength with
    | some length =>
      rw [known] at short
      dsimp only at short
      have less : text.length < length := by
        by_cases few : data.length < length
        · exact most.trans_lt few
        · rw [if_neg few] at short
          exact short length rfl
      rw [parseResponseBody_length chunked known, if_pos less]
    | none =>
      rw [known] at short
      dsimp only at short
      rw [parseResponseBody_unknown chunked known]
      cases bodiless : isBodiless resp.status with
      | true =>
        rw [if_pos bodiless] at short
        exact absurd (short 0 rfl) (Nat.not_lt_zero _)
      | false =>
        rw [if_neg (Bool.eq_false_iff.mp bodiless)] at short
        have empty : text = [] := by
          by_cases none : data = []
          · rw [none] at isPrefix
            exact List.prefix_nil.mp isPrefix
          · rw [if_neg none] at short
            exact List.eq_nil_of_length_eq_zero (Nat.lt_one_iff.mp (short 1 rfl))
        rw [if_neg Bool.false_ne_true, if_pos empty]

/-- A body with an end is read in the same way from all that holds it. -/
theorem parseResponseBody_exactly (isPrefix : text <+: data) (isPrefix' : text' <+: data)
    (ends : bodyExtent resp data = .exactly length) (long : length ≤ text.length)
    (long' : length ≤ text'.length) :
    parseResponseBody resp text = parseResponseBody resp text' ∧
      parseResponseBody resp text ≠ .ok none := by
  unfold bodyExtent at ends
  cases chunked : resp.hdrs.isChunked with
  | true =>
    rw [if_pos chunked] at ends
    obtain ⟨same, complete⟩ := parseChunks_exactly isPrefix isPrefix' _ 0 0 false [] [] ends long
      long' (Or.inr rfl)
    rw [parseResponseBody_chunked chunked isPrefix, parseResponseBody_chunked chunked isPrefix',
      ← same]
    refine ⟨rfl, ?_⟩
    cases parsed : parseChunks text (data.length + 1) 0 [] with
    | error error => nofun
    | ok result =>
      dsimp only
      rw [complete result parsed]
      nofun
  | false =>
    rw [if_neg (Bool.eq_false_iff.mp chunked)] at ends
    cases known : resp.hdrs.contentLength with
    | some announced =>
      rw [known] at ends
      dsimp only at ends
      split at ends
      · cases ends
      · cases ends
        have same : text.take length = text'.take length := by
          rw [List.prefix_iff_eq_take.mp isPrefix, List.prefix_iff_eq_take.mp isPrefix',
            List.take_take, List.take_take, min_eq_left long, min_eq_left long']
        rw [parseResponseBody_length chunked known, parseResponseBody_length chunked known,
          if_neg (Nat.not_lt.mpr long), if_neg (Nat.not_lt.mpr long'), same]
        exact ⟨rfl, nofun⟩
    | none =>
      rw [known] at ends
      dsimp only at ends
      split at ends
      · rename_i bodiless
        rw [parseResponseBody_unknown chunked known, parseResponseBody_unknown chunked known,
          if_pos bodiless, if_pos bodiless]
        exact ⟨rfl, nofun⟩
      · split at ends <;> cases ends

/-- A body without an end is longer in what is longer. -/
theorem parseResponseBody_atLeast (isPrefix : text <+: data) (isPrefix' : text' <+: data)
    (most : text.length ≤ text'.length) (short : text'.length < 2 ^ 63)
    (ends : bodyExtent resp data = .atLeast length) (long : length ≤ text.length) :
    ∃ whole consumed whole' consumed', parseResponseBody resp text = .ok (some (whole, consumed)) ∧
      parseResponseBody resp text' = .ok (some (whole', consumed')) ∧
      (text.length < text'.length → whole ≠ whole') := by
  have differs {bd bd' : Bytes} (less : bd.length < bd'.length) :
      ({ resp with bd } : Response) ≠ { resp with bd := bd' } := by
    intro same
    have equal : bd = bd' := congrArg Response.bd same
    rw [equal] at less
    exact Nat.lt_irrefl _ less
  unfold bodyExtent at ends
  cases chunked : resp.hdrs.isChunked with
  | true =>
    rw [if_pos chunked] at ends
    obtain ⟨consumed, whole, whole', parsed, parsed', longer⟩ := parseChunks_atLeast isPrefix
      isPrefix' most short _ 0 0 false [] [] ends long le_rfl nofun
    rw [parseResponseBody_chunked chunked isPrefix, parseResponseBody_chunked chunked isPrefix',
      parsed, parsed']
    exact ⟨_, _, _, _, rfl, rfl, fun less => differs (longer less)⟩
  | false =>
    rw [if_neg (Bool.eq_false_iff.mp chunked)] at ends
    cases known : resp.hdrs.contentLength with
    | some announced =>
      rw [known] at ends
      dsimp only at ends
      split at ends <;> cases ends
    | none =>
      rw [known] at ends
      dsimp only at ends
      split at ends
      · cases ends
      · rename_i bodied
        split at ends
        · cases ends
        · cases ends
          have some : text ≠ [] := List.ne_nil_of_length_pos long
          have some' : text' ≠ [] := List.ne_nil_of_length_pos (by omega)
          rw [parseResponseBody_unknown chunked known, parseResponseBody_unknown chunked known,
            if_neg bodied, if_neg bodied, if_neg some, if_neg some']
          exact ⟨_, _, _, _, rfl, rfl, differs⟩

theorem bodyExtent_le (ends : (bodyExtent resp data).length = some length) :
    length ≤ data.length := by
  unfold bodyExtent at ends
  split at ends
  · exact chunkExtent_le ends (Nat.zero_le _)
  · split at ends
    · split at ends
      · cases ends
      · cases ends
        omega
    · split at ends
      · cases ends
        exact Nat.zero_le _
      · split at ends
        · cases ends
        · cases ends
          rename_i some
          exact List.length_pos_of_ne_nil some

end Bodies

/-! ### Responses -/

section Responses

variable {text text' data : Bytes} {headerEnd firstLineEnd length : Nat}

theorem parseResponseHead_isPrefix (isPrefix : text <+: data)
    (fits : firstLineEnd + 4 ≤ headerEnd) (long : headerEnd ≤ text.length) :
    parseResponseHead text firstLineEnd headerEnd =
      parseResponseHead data firstLineEnd headerEnd := by
  obtain ⟨more, rfl⟩ := isPrefix
  have line : (text ++ more).take firstLineEnd = text.take firstLineEnd :=
    List.take_append_of_le_length (by omega)
  have block : ((text ++ more).drop (firstLineEnd + 2)).take (headerEnd - firstLineEnd - 4) =
      (text.drop (firstLineEnd + 2)).take (headerEnd - firstLineEnd - 4) := by
    rw [List.drop_append_of_le_length (by omega), List.take_append_of_le_length]
    rw [List.length_drop]
    omega
  rw [parseResponseHead, parseResponseHead, line, block]

/-- A response whose head has come in: what is left is its body. -/
theorem parseResponse_head (isPrefix : text <+: data) (found : findHeaderEnd data = some headerEnd)
    (fits : firstLineEnd + 4 ≤ headerEnd) (line : indexOf crlf data = some firstLineEnd)
    (long : headerEnd ≤ text.length) :
    parseResponse text =
      (parseResponseHead data firstLineEnd headerEnd).bind fun resp =>
        (parseResponseBody resp (text.drop headerEnd)).map
          (Option.map fun entry => (entry.1, headerEnd + entry.2)) := by
  have here := indexOf_isPrefix isPrefix crlf_ne_nil line (by rw [length_crlf]; omega)
  rw [parseResponse, findHeaderEnd_prefix isPrefix found, if_neg (Nat.not_lt.mpr long)]
  dsimp only
  rw [here]
  dsimp only
  rw [parseResponseHead_isPrefix isPrefix fits long]
  cases parseResponseHead data firstLineEnd headerEnd with
  | error error => rfl
  | ok resp =>
    show (parseResponseBody resp (text.drop headerEnd) >>= _) =
      (parseResponseBody resp (text.drop headerEnd)).map _
    cases parseResponseBody resp (text.drop headerEnd) <;> rfl

theorem extent_head (found : findHeaderEnd data = some headerEnd)
    (line : indexOf crlf data = some firstLineEnd) :
    extent data =
      match parseResponseHead data firstLineEnd headerEnd with
      | .error _ => .exactly headerEnd
      | .ok resp => (bodyExtent resp (data.drop headerEnd)).after headerEnd := by
  unfold extent
  rw [found]
  dsimp only
  rw [line]

theorem length_after (front : Nat) (ends : Extent) :
    (ends.after front).length = ends.length.map (front + ·) := by
  cases ends <;> rfl

/-- As long as bytes of the response are missing, more are asked for. -/
theorem parseResponse_short (isPrefix : text <+: data)
    (short : ∀ length, (extent data).length = some length → text.length < length) :
    parseResponse text = .ok none := by
  cases found : findHeaderEnd data with
  | none => rw [parseResponse, findHeaderEnd_prefix_none isPrefix found]
  | some headerEnd =>
    obtain ⟨_, firstLineEnd, fits, line⟩ := findHeaderEnd_eq found
    rw [extent_head found line] at short
    by_cases few : text.length < headerEnd
    · rw [parseResponse, findHeaderEnd_prefix isPrefix found, if_pos few]
    · have long := Nat.not_lt.mp few
      rw [parseResponse_head isPrefix found fits line long]
      cases head : parseResponseHead data firstLineEnd headerEnd with
      | error error =>
        rw [head] at short
        exact absurd (short headerEnd rfl) few
      | ok resp =>
        rw [head] at short
        have body : parseResponseBody resp (text.drop headerEnd) = .ok none := by
          refine parseResponseBody_short (isPrefix.drop headerEnd) fun length ends => ?_
          have total := short (headerEnd + length) (by
            rw [length_after, ends]
            rfl)
          rw [List.length_drop]
          omega
        show (parseResponseBody resp (text.drop headerEnd)).map _ = _
        rw [body]
        rfl

/-- A response with an end is read in the same way from all that holds it. -/
theorem parseResponse_exactly (isPrefix : text <+: data) (isPrefix' : text' <+: data)
    (ends : extent data = .exactly length) (long : length ≤ text.length)
    (long' : length ≤ text'.length) :
    parseResponse text = parseResponse text' ∧ parseResponse text ≠ .ok none := by
  cases found : findHeaderEnd data with
  | none =>
    rw [extent, found] at ends
    cases ends
  | some headerEnd =>
    obtain ⟨_, firstLineEnd, fits, line⟩ := findHeaderEnd_eq found
    rw [extent_head found line] at ends
    cases head : parseResponseHead data firstLineEnd headerEnd with
    | error error =>
      rw [head] at ends
      cases ends
      rw [parseResponse_head isPrefix found fits line long,
        parseResponse_head isPrefix' found fits line long', head]
      exact ⟨rfl, nofun⟩
    | ok resp =>
      rw [head] at ends
      dsimp only at ends
      cases body : bodyExtent resp (data.drop headerEnd) with
      | unfinished =>
        rw [body] at ends
        cases ends
      | atLeast least =>
        rw [body] at ends
        cases ends
      | exactly bodyLength =>
        rw [body] at ends
        cases ends
        rw [parseResponse_head isPrefix found fits line (by omega),
          parseResponse_head isPrefix' found fits line (by omega), head]
        obtain ⟨same, settled⟩ := parseResponseBody_exactly (isPrefix.drop headerEnd)
          (isPrefix'.drop headerEnd) body (by rw [List.length_drop]; omega)
          (by rw [List.length_drop]; omega)
        show (parseResponseBody resp (text.drop headerEnd)).map _ =
            (parseResponseBody resp (text'.drop headerEnd)).map _ ∧
          (parseResponseBody resp (text.drop headerEnd)).map _ ≠ _
        rw [← same]
        refine ⟨rfl, ?_⟩
        cases parsed : parseResponseBody resp (text.drop headerEnd) with
        | error error => nofun
        | ok entry =>
          cases entry with
          | none => exact absurd parsed settled
          | some entry => nofun

/-- A response without an end is another one in what is longer. -/
theorem parseResponse_atLeast (isPrefix : text <+: data) (isPrefix' : text' <+: data)
    (most : text.length ≤ text'.length) (short : text'.length < 2 ^ 63)
    (ends : extent data = .atLeast length) (long : length ≤ text.length) :
    ∃ resp consumed resp' consumed', parseResponse text = .ok (some (resp, consumed)) ∧
      parseResponse text' = .ok (some (resp', consumed')) ∧
      (text.length < text'.length → resp ≠ resp') := by
  cases found : findHeaderEnd data with
  | none =>
    rw [extent, found] at ends
    cases ends
  | some headerEnd =>
    obtain ⟨_, firstLineEnd, fits, line⟩ := findHeaderEnd_eq found
    rw [extent_head found line] at ends
    cases head : parseResponseHead data firstLineEnd headerEnd with
    | error error =>
      rw [head] at ends
      cases ends
    | ok resp =>
      rw [head] at ends
      dsimp only at ends
      cases body : bodyExtent resp (data.drop headerEnd) with
      | unfinished =>
        rw [body] at ends
        cases ends
      | exactly bodyLength =>
        rw [body] at ends
        cases ends
      | atLeast least =>
        rw [body] at ends
        cases ends
        obtain ⟨whole, consumed, whole', consumed', parsed, parsed', differs⟩ :=
          parseResponseBody_atLeast (isPrefix.drop headerEnd) (isPrefix'.drop headerEnd)
            (by rw [List.length_drop, List.length_drop]; omega)
            (by rw [List.length_drop]; omega) body (by rw [List.length_drop]; omega)
        refine ⟨whole, headerEnd + consumed, whole', headerEnd + consumed', ?_, ?_, fun less =>
          differs (by rw [List.length_drop, List.length_drop]; omega)⟩
        · rw [parseResponse_head isPrefix found fits line (by omega), head]
          show (parseResponseBody resp (text.drop headerEnd)).map _ = _
          rw [parsed]
          rfl
        · rw [parseResponse_head isPrefix' found fits line (by omega), head]
          show (parseResponseBody resp (text'.drop headerEnd)).map _ = _
          rw [parsed']
          rfl

/-- A response ends in its bytes, and its head has four of them at least. -/
theorem extent_bounds (ends : (extent data).length = some length) :
    4 ≤ length ∧ length ≤ data.length := by
  cases found : findHeaderEnd data with
  | none =>
    rw [extent, found] at ends
    cases ends
  | some headerEnd =>
    obtain ⟨inside, firstLineEnd, fits, line⟩ := findHeaderEnd_eq found
    rw [extent_head found line] at ends
    cases head : parseResponseHead data firstLineEnd headerEnd with
    | error error =>
      rw [head] at ends
      cases ends
      exact ⟨by omega, inside⟩
    | ok resp =>
      rw [head, length_after] at ends
      obtain ⟨bodyLength, body, rfl⟩ := Option.map_eq_some_iff.mp ends
      have most := bodyExtent_le body
      rw [List.length_drop] at most
      exact ⟨by omega, by omega⟩

end Responses

/-! ### Reads -/

/-- The part of a byte stream that can be parsed: after 999 reads there is no further attempt. -/
def window (data : Bytes) : Bytes := data.take (999 * 8192)

/-- The reads bring the bytes. Each brings one at least and no more than the client's buffer. -/
structure Cut (data : Bytes) (reads : List Bytes) : Prop where
  bytes : reads.flatten = data
  nonempty : ∀ read ∈ reads, read ≠ []
  fits : ∀ read ∈ reads, read.length ≤ 8192

theorem prefix_window {text data : Bytes} (isPrefix : text <+: data)
    (short : text.length ≤ 999 * 8192) : text <+: window data :=
  List.prefix_take_iff.mpr ⟨isPrefix, short⟩

theorem length_flatten_le {reads : List Bytes} (fits : ∀ read ∈ reads, read.length ≤ 8192) :
    reads.flatten.length ≤ reads.length * 8192 := by
  induction reads with
  | nil => exact le_rfl
  | cons read reads inductionHypothesis =>
    obtain ⟨first, later⟩ := List.forall_mem_cons.mp fits
    have rest := inductionHypothesis later
    rw [List.flatten_cons, List.length_append, List.length_cons]
    omega

/-- The client goes on until a number of bytes has come, and returns what is parsed then. -/
theorem readAttempts_eq {data : Bytes} {length : Nat}
    (pending : ∀ text, text <+: window data → text.length < length → parseResponse text = .ok none)
    (settled : ∀ text, text <+: window data → length ≤ text.length →
      parseResponse text ≠ .ok none)
    (attempts : Nat) (buffer : Bytes) (reads : List Bytes)
    (bytes : buffer ++ reads.flatten = data)
    (fits : ∀ read ∈ reads, read.length ≤ 8192)
    (room : buffer.length + attempts * 8192 ≤ 1000 * 8192) :
    readAttempts attempts buffer reads =
      if length ≤ data.length ∧ needed (length - buffer.length) reads < attempts then
        (parseResponse (buffer ++
          (reads.take (needed (length - buffer.length) reads)).flatten)).map (Option.map Prod.fst)
      else .ok none := by
  induction attempts generalizing buffer reads with
  | zero => rw [if_neg (fun both => Nat.not_lt_zero _ both.2), readAttempts]
  | succ attempts inductionHypothesis =>
    have begins : buffer <+: window data :=
      prefix_window ⟨reads.flatten, bytes⟩ (by omega)
    have total := congrArg List.length bytes
    rw [List.length_append] at total
    unfold readAttempts
    by_cases here : length ≤ buffer.length
    · have enough := settled buffer begins here
      have reached : length ≤ data.length ∧ 0 < attempts + 1 := ⟨by omega, Nat.succ_pos _⟩
      rw [Nat.sub_eq_zero_of_le here, needed_zero, if_pos reached,
        List.take_zero, List.flatten_nil, List.append_nil]
      cases parsed : parseResponse buffer with
      | error error => rfl
      | ok entry =>
        cases entry with
        | none => exact absurd parsed enough
        | some entry => rfl
    · have nothing := pending buffer begins (Nat.not_le.mp here)
      rw [nothing]
      cases reads with
      | nil =>
        rw [List.flatten_nil, List.length_nil] at total
        have never : ¬ (length ≤ data.length ∧
            needed (length - buffer.length) [] < attempts + 1) := fun both => here (by omega)
        rw [if_neg never]
        show (if buffer = [] then _ else _) = _
        split
        · rfl
        · rfl
      | cons read reads =>
        obtain ⟨first, later⟩ := List.forall_mem_cons.mp fits
        have missing : ¬ length - buffer.length = 0 := by omega
        show readAttempts attempts (buffer ++ read) reads = _
        rw [inductionHypothesis (buffer ++ read) reads (by rw [List.append_assoc]; exact bytes)
          later (by rw [List.length_append]; omega), needed, if_neg missing, List.length_append,
          Nat.sub_add_eq, List.take_succ_cons, List.flatten_cons, List.append_assoc]
        simp only [Nat.add_lt_add_iff_right]

theorem needed_le (count : Nat) {reads : List Bytes} (nonempty : ∀ read ∈ reads, read ≠ []) :
    needed count reads ≤ count := by
  induction reads generalizing count with
  | nil => exact Nat.zero_le _
  | cons read reads inductionHypothesis =>
    obtain ⟨first, later⟩ := List.forall_mem_cons.mp nonempty
    have positive := List.length_pos_of_ne_nil first
    have rest := inductionHypothesis (count - read.length) later
    rw [needed]
    split
    · exact Nat.zero_le _
    · omega

/-- Reads that bring the bytes are as many as are needed. -/
theorem needed_le_of_take {count taken : Nat} {reads : List Bytes}
    (enough : count ≤ (reads.take taken).flatten.length) : needed count reads ≤ taken := by
  induction reads generalizing count taken with
  | nil => exact Nat.zero_le _
  | cons read reads inductionHypothesis =>
    rw [needed]
    split
    · exact Nat.zero_le _
    · rename_i some
      cases taken with
      | zero => exact absurd (Nat.le_zero.mp enough) some
      | succ taken =>
        rw [List.take_succ_cons, List.flatten_cons, List.length_append] at enough
        exact Nat.succ_le_succ (inductionHypothesis (by omega))

/-- Reads of a single byte. -/
def singles (data : Bytes) : List Bytes := data.map fun byte => [byte]

theorem cut_singles (data : Bytes) : Cut data (singles data) where
  bytes := by
    induction data with
    | nil => rfl
    | cons byte data inductionHypothesis =>
      exact congrArg (byte :: ·) inductionHypothesis
  nonempty := fun read member => by
    obtain ⟨byte, _, rfl⟩ := List.mem_map.mp member
    exact List.cons_ne_nil _ _
  fits := fun read member => by
    obtain ⟨byte, _, rfl⟩ := List.mem_map.mp member
    exact (by decide : 1 ≤ 8192)

theorem needed_singles {count : Nat} {data : Bytes} (enough : count ≤ data.length) :
    needed count (singles data) = count := by
  induction data generalizing count with
  | nil => exact (Nat.le_zero.mp enough).symm
  | cons byte data inductionHypothesis =>
    show (if count = 0 then 0 else needed (count - 1) (singles data) + 1) = count
    rw [List.length_cons] at enough
    split
    · exact Eq.symm ‹_›
    · rw [inductionHypothesis (by omega)]
      omega

theorem Cut.append {data data' : Bytes} {reads reads' : List Bytes} (cut : Cut data reads)
    (cut' : Cut data' reads') : Cut (data ++ data') (reads ++ reads') where
  bytes := by rw [List.flatten_append, cut.bytes, cut'.bytes]
  nonempty := List.forall_mem_append.mpr ⟨cut.nonempty, cut'.nonempty⟩
  fits := List.forall_mem_append.mpr ⟨cut.fits, cut'.fits⟩

/-- Full reads bring the most bytes. -/
theorem exists_cut (count : Nat) (text : Bytes) (short : text.length ≤ count * 8192) :
    ∃ reads, Cut text reads ∧ reads.length ≤ count := by
  induction count generalizing text with
  | zero =>
    have empty : text = [] := List.eq_nil_of_length_eq_zero (by omega)
    subst empty
    exact ⟨[], ⟨rfl, nofun, nofun⟩, le_rfl⟩
  | succ count inductionHypothesis =>
    by_cases empty : text = []
    · subst empty
      exact ⟨[], ⟨rfl, nofun, nofun⟩, Nat.zero_le _⟩
    · obtain ⟨reads, cut, few⟩ := inductionHypothesis (text.drop 8192) (by
        rw [List.length_drop]
        omega)
      have positive := List.length_pos_of_ne_nil empty
      have first : Cut (text.take 8192) [text.take 8192] :=
        { bytes := List.append_nil _
          nonempty := List.forall_mem_singleton.mpr (List.ne_nil_of_length_pos (by
            rw [List.length_take]
            omega))
          fits := List.forall_mem_singleton.mpr (by
            rw [List.length_take]
            omega) }
      have whole := first.append cut
      rw [List.take_append_drop] at whole
      exact ⟨_, whole, Nat.succ_le_succ few⟩

/-! ### Segmentation -/

/-- What is read does not depend on the reads. -/
def Unsegmented (data : Bytes) : Prop :=
  ∀ reads reads', Cut data reads → Cut data reads' → readResponse reads = readResponse reads'

/-- A response that ends within the bytes that can be parsed ends within 999 bytes, and nothing
follows one that takes whatever has come. -/
def Framed (data : Bytes) : Prop :=
  match extent (window data) with
  | .unfinished => True
  | .exactly length => length ≤ 999
  | .atLeast length => length ≤ 999 ∧ data.length = length

section Segmentation

variable {data : Bytes} {length : Nat} {reads : List Bytes}

theorem length_window_le (data : Bytes) : (window data).length ≤ 999 * 8192 :=
  List.length_take_le _ _

theorem window_isPrefix (data : Bytes) : window data <+: data := List.take_prefix _ _

/-- A response is there with all of its bytes. -/
theorem parseResponse_settled (ends : (extent (window data)).length = some length) {text : Bytes}
    (isPrefix : text <+: window data) (long : length ≤ text.length) :
    parseResponse text ≠ .ok none := by
  have short : text.length < 2 ^ 63 := by
    have most := isPrefix.length_le.trans (length_window_le data)
    omega
  cases found : extent (window data) with
  | unfinished =>
    rw [found] at ends
    cases ends
  | exactly bytes =>
    rw [found] at ends
    cases ends
    exact (parseResponse_exactly isPrefix isPrefix found long long).2
  | atLeast bytes =>
    rw [found] at ends
    cases ends
    obtain ⟨resp, consumed, _, _, parsed, _⟩ :=
      parseResponse_atLeast isPrefix isPrefix le_rfl short found long
    rw [parsed]
    nofun

/-- What the client returns on a response that ends. -/
theorem readResponse_ends (ends : (extent (window data)).length = some length)
    (cut : Cut data reads) :
    readResponse reads =
      if needed length reads ≤ 999 then
        (parseResponse (reads.take (needed length reads)).flatten).map (Option.map Prod.fst)
      else .ok none := by
  have inside := (extent_bounds ends).2.trans (window_isPrefix data).length_le
  have pending (text : Bytes) (isPrefix : text <+: window data) (short : text.length < length) :
      parseResponse text = .ok none := by
    refine parseResponse_short isPrefix fun other same => ?_
    rw [ends] at same
    cases same
    exact short
  have read := readAttempts_eq pending (fun text isPrefix => parseResponse_settled ends isPrefix)
    1000 [] reads cut.bytes cut.fits le_rfl
  rw [List.length_nil, Nat.sub_zero] at read
  unfold readResponse
  rw [read]
  by_cases few : needed length reads ≤ 999
  · rw [if_pos ⟨inside, Nat.lt_succ_of_le few⟩, if_pos few, List.nil_append]
  · rw [if_neg (fun both => few (Nat.le_of_lt_succ both.2)), if_neg few]

/-- The client returns nothing on a response that does not end in what can be parsed. -/
theorem readResponse_unfinished (ends : extent (window data) = .unfinished)
    (cut : Cut data reads) : readResponse reads = .ok none := by
  have pending (text : Bytes) (isPrefix : text <+: window data)
      (_ : text.length < data.length + 1) : parseResponse text = .ok none :=
    parseResponse_short isPrefix fun length same => by
      rw [ends] at same
      cases same
  have settled (text : Bytes) (isPrefix : text <+: window data)
      (long : data.length + 1 ≤ text.length) : parseResponse text ≠ .ok none := by
    have most := isPrefix.length_le.trans (window_isPrefix data).length_le
    omega
  have read := readAttempts_eq pending settled 1000 [] reads cut.bytes cut.fits le_rfl
  unfold readResponse
  rw [read, if_neg (fun both => by omega)]

/-- The bytes that have been read when a response is parsed. -/
theorem Cut.take_needed (cut : Cut data reads) (enough : length ≤ data.length)
    (few : needed length reads ≤ 999) :
    (reads.take (needed length reads)).flatten <+: window data ∧
      length ≤ (reads.take (needed length reads)).flatten.length := by
  have begins : (reads.take (needed length reads)).flatten <+: data :=
    ⟨_, (flatten_take_append_drop reads _).trans cut.bytes⟩
  have most := length_flatten_le fun read member =>
    cut.fits read (List.mem_of_mem_take (i := needed length reads) member)
  have count : (reads.take (needed length reads)).length ≤ 999 :=
    (List.length_take_le _ _).trans few
  have short : (reads.take (needed length reads)).flatten.length ≤ 999 * 8192 :=
    most.trans (Nat.mul_le_mul_right 8192 count)
  refine ⟨prefix_window begins short, le_length_take_needed length reads ?_⟩
  rw [cut.bytes]
  exact enough

/-- A first read that brings the end of a response is the only one that is needed. -/
theorem readResponse_first (ends : (extent (window data)).length = some length) {first : Bytes}
    (begins : first <+: data) (long : length ≤ first.length) (short : first.length ≤ 8192) :
    ∃ reads, Cut data reads ∧
      readResponse reads = (parseResponse first).map (Option.map Prod.fst) := by
  obtain ⟨rest, rfl⟩ := begins
  have positive := (extent_bounds ends).1
  have cut : Cut (first ++ rest) ([first] ++ singles rest) :=
    Cut.append
      { bytes := List.append_nil _
        nonempty := List.forall_mem_singleton.mpr (List.ne_nil_of_length_pos (by omega))
        fits := List.forall_mem_singleton.mpr short }
      (cut_singles rest)
  have one : needed length ([first] ++ singles rest) = 1 := by
    show (if length = 0 then 0 else needed (length - first.length) (singles rest) + 1) = 1
    rw [if_neg (by omega), Nat.sub_eq_zero_of_le long, needed_zero]
  refine ⟨_, cut, ?_⟩
  rw [readResponse_ends ends cut, one, if_pos (by decide)]
  exact congrArg (fun text => (parseResponse text).map _) (List.append_nil first)

/-- What ends after more than 999 bytes is not read with reads of a single byte, but it is with full
reads. -/
theorem not_unsegmented_of_long (ends : (extent (window data)).length = some length)
    (long : 999 < length) : ¬ Unsegmented data := by
  intro same
  have bounds := (extent_bounds ends).2
  have inside := bounds.trans (window_isPrefix data).length_le
  have most := bounds.trans (length_window_le data)
  obtain ⟨reads, cut, few⟩ := exists_cut 999 (data.take length) (by
    rw [List.length_take]
    omega)
  have whole := cut.append (cut_singles (data.drop length))
  rw [List.take_append_drop] at whole
  have bounded : needed length (reads ++ singles (data.drop length)) ≤ 999 := by
    refine (needed_le_of_take ?_).trans few
    rw [List.take_left, cut.bytes, List.length_take]
    omega
  have equal := same _ _ whole (cut_singles data)
  rw [readResponse_ends ends whole, readResponse_ends ends (cut_singles data),
    needed_singles inside, if_pos bounded, if_neg (Nat.not_le.mpr long)] at equal
  obtain ⟨begins, enough⟩ := whole.take_needed inside bounded
  have settled := parseResponse_settled ends begins enough
  cases parsed : parseResponse
      ((reads ++ singles (data.drop length)).take
        (needed length (reads ++ singles (data.drop length)))).flatten with
  | error error =>
    rw [parsed] at equal
    cases equal
  | ok entry =>
    cases entry with
    | none => exact settled parsed
    | some entry =>
      rw [parsed] at equal
      cases equal

end Segmentation

/-- What is read does not depend on the reads if and only if the response is framed. -/
theorem unsegmented_iff (data : Bytes) : Unsegmented data ↔ Framed data := by
  unfold Framed
  cases ends : extent (window data) with
  | unfinished =>
    refine iff_of_true (fun reads reads' cut cut' => ?_) trivial
    rw [readResponse_unfinished ends cut, readResponse_unfinished ends cut']
  | exactly length =>
    have known : (extent (window data)).length = some length := congrArg Extent.length ends
    have inside := (extent_bounds known).2.trans (window_isPrefix data).length_le
    constructor
    · intro same
      by_contra long
      exact not_unsegmented_of_long known (Nat.not_le.mp long) same
    · intro short reads reads' cut cut'
      have few := (needed_le length cut.nonempty).trans short
      have few' := (needed_le length cut'.nonempty).trans short
      obtain ⟨begins, enough⟩ := cut.take_needed inside few
      obtain ⟨begins', enough'⟩ := cut'.take_needed inside few'
      rw [readResponse_ends known cut, readResponse_ends known cut', if_pos few, if_pos few',
        (parseResponse_exactly begins begins' ends enough enough').1]
  | atLeast length =>
    have known : (extent (window data)).length = some length := congrArg Extent.length ends
    have inside := (extent_bounds known).2.trans (window_isPrefix data).length_le
    constructor
    · intro same
      by_cases long : 999 < length
      · exact absurd same (not_unsegmented_of_long known long)
      · refine ⟨Nat.not_lt.mp long, ?_⟩
        by_contra more
        -- a byte follows, so the first read may end before it or after it
        have size (count : Nat) (most : count ≤ data.length) :
            (data.take count).length = count := by
          rw [List.length_take]
          omega
        have shorter := size length inside
        have longer := size (length + 1) (by omega)
        obtain ⟨reads, cut, read⟩ := readResponse_first known (List.take_prefix length data)
          shorter.ge (by omega)
        obtain ⟨reads', cut', read'⟩ := readResponse_first known
          (List.take_prefix (length + 1) data) (by omega) (by omega)
        obtain ⟨resp, consumed, resp', consumed', parsed, parsed', differs⟩ :=
          parseResponse_atLeast (prefix_window (List.take_prefix length data) (by omega))
            (prefix_window (List.take_prefix (length + 1) data) (by omega)) (by omega) (by omega)
            ends shorter.ge
        have equal := same _ _ cut cut'
        rw [read, read', parsed, parsed'] at equal
        cases equal
        exact differs (by omega) rfl
    · rintro ⟨short, whole⟩ reads reads' cut cut'
      have few := (needed_le length cut.nonempty).trans short
      have few' := (needed_le length cut'.nonempty).trans short
      have all {reads : List Bytes} (cut : Cut data reads) (few : needed length reads ≤ 999) :
          (reads.take (needed length reads)).flatten = data := by
        obtain ⟨begins, enough⟩ := cut.take_needed inside few
        exact (begins.trans (window_isPrefix data)).eq_of_length_le (whole ▸ enough)
      rw [readResponse_ends known cut, readResponse_ends known cut', if_pos few, if_pos few',
        all cut few, all cut' few']

/-- A response with two bytes of a body that the end of the connection ends. -/
def untilClose : Bytes := ascii "HTTP/1.1 200 OK\r\n\r\nab"

/-- The client returns the first byte of the body if the second one comes with another read. -/
theorem not_unsegmented_untilClose :
    readResponse [ascii "HTTP/1.1 200 OK\r\n\r\na", ascii "b"] =
        .ok (some { bd := ascii "a" }) ∧
      readResponse [untilClose] = .ok (some { bd := ascii "ab" }) ∧
      ¬ Unsegmented untilClose := by
  have apart : readResponse [ascii "HTTP/1.1 200 OK\r\n\r\na", ascii "b"] =
      .ok (some { bd := ascii "a" }) := by decide +kernel
  have together : readResponse [untilClose] = .ok (some { bd := ascii "ab" }) := by
    decide +kernel
  refine ⟨apart, together, fun same => ?_⟩
  have equal := same [ascii "HTTP/1.1 200 OK\r\n\r\na", ascii "b"] [untilClose]
    ⟨by decide +kernel, by decide +kernel, by decide +kernel⟩
    ⟨by decide +kernel, by decide +kernel, by decide +kernel⟩
  rw [apart, together] at equal
  cases equal

end Http1

end AsyncNet.Http
