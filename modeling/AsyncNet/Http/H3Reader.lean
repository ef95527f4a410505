/-
This file shows that the `frame_reader` of HTTP/3 can be fed in any pieces. The frames that
it completes are the result of a scan of the data, one pass after the other, and a scan of
data that comes in two parts is one scan.
-/

import Mathlib.Data.List.Basic
import AsyncNet.Http.H3Frame

namespace AsyncNet.Http.H3

open H2

theorem varintLength_pos (first : UInt8) : 0 < varintLength first := by
  unfold varintLength
  split
  · exact Nat.one_pos
  · split
    · exact Nat.two_pos
    · split <;> decide

/-- The bytes that an integer takes are known from its first byte. -/
theorem decodeVarint_consumed {bytes : Bytes} {value consumed : Nat}
    (decoded : decodeVarint bytes = some (value, consumed)) :
    consumed = varintLength (bytes.getD 0 0) := by
  unfold decodeVarint at decoded
  dsimp only at decoded
  split at decoded
  · cases decoded
  · exact (congrArg Prod.snd (Option.some.inj decoded)).symm

/-- A prefix of an integer and what follows it is too short, or it is the integer. -/
theorem decodeVarint_isPrefix {earlier bytes : Bytes} (begins : earlier <+: bytes) {value : Nat}
    {consumed : Nat} (decoded : decodeVarint bytes = some (value, consumed)) :
    decodeVarint earlier = if earlier.length < consumed then none else some (value, consumed) := by
  obtain ⟨more, rfl⟩ := begins
  unfold decodeVarint at decoded ⊢
  dsimp only at decoded ⊢
  split at decoded
  · cases decoded
  · obtain ⟨rfl, rfl⟩ := Prod.mk.inj (Option.some.inj decoded)
    cases earlier with
    | nil =>
      have positive := varintLength_pos (([] ++ more).getD 0 0)
      rw [if_pos (by decide), List.length_nil, if_pos positive]
    | cons first rest =>
      have same : ((first :: rest) ++ more).getD 0 0 = (first :: rest).getD 0 0 := rfl
      rw [same]
      by_cases short : (first :: rest).length < varintLength ((first :: rest).getD 0 0)
      · rw [if_pos short, if_pos short]
      · have tail : ((first :: rest) ++ more).tail = rest ++ more := rfl
        rw [if_neg short, if_neg short, tail,
          List.take_append_of_le_length (by rw [List.length_cons] at short; omega)]
        rfl

theorem decodeVarint_prefix_none {earlier bytes : Bytes} (begins : earlier <+: bytes)
    (undecoded : decodeVarint bytes = none) : decodeVarint earlier = none := by
  obtain ⟨more, rfl⟩ := begins
  cases earlier with
  | nil => rfl
  | cons first rest =>
    unfold decodeVarint at undecoded ⊢
    dsimp only at undecoded ⊢
    split at undecoded
    · rename_i short
      have same : ((first :: rest) ++ more).getD 0 0 = (first :: rest).getD 0 0 := rfl
      rw [same, List.length_append] at short
      rw [if_pos (by omega)]
    · cases undecoded

namespace FrameReader

/-! ### Passes -/

/-- A reader between two feeds: what it is in the middle of is not complete. -/
structure Waits (reader : FrameReader) : Prop where
  varint : reader.varintBytesExpected ≠ 0 → reader.varintBuf.length < reader.varintBytesExpected
  payload : reader.state = .readPayload → reader.payloadBuf.length ≤ reader.currentLength

theorem Waits.held_lt {reader : FrameReader} (waits : reader.Waits) (data : Bytes) :
    reader.held.length < reader.expected data := by
  unfold held expected
  by_cases fresh : reader.varintBytesExpected = 0
  · rw [if_pos fresh, if_pos fresh]
    exact varintLength_pos _
  · rw [if_neg fresh, if_neg fresh]
    exact waits.varint fresh

/-- An integer that the data does not complete. -/
theorem feedVarint_few {reader : FrameReader} (data : Bytes)
    (few : data.length < reader.expected data - reader.held.length) :
    reader.feedVarint data =
      ({ reader with
          varintBuf := reader.held ++ data
          varintBytesExpected := reader.expected data }, none, []) := by
  have length : (reader.held ++ data).length ≠ reader.expected data := by
    rw [List.length_append]
    omega
  unfold feedVarint
  simp only
  rw [List.take_of_length_le few.le, if_neg length, List.drop_of_length_le few.le]

/-- An integer that the data completes. -/
theorem feedVarint_enough {reader : FrameReader} (waits : reader.Waits) (data : Bytes)
    (enough : reader.expected data - reader.held.length ≤ data.length) :
    reader.feedVarint data =
      ({ reader with varintBuf := [], varintBytesExpected := 0 },
        (decodeVarint (reader.held ++
          data.take (reader.expected data - reader.held.length))).map (·.1),
        data.drop (reader.expected data - reader.held.length)) := by
  have less := waits.held_lt data
  have length : (reader.held ++ data.take (reader.expected data - reader.held.length)).length =
      reader.expected data := by
    rw [List.length_append, List.length_take]
    omega
  unfold feedVarint
  simp only
  rw [if_pos length]

theorem expected_append {reader : FrameReader} {data : Bytes} (more : Bytes) (some : data ≠ []) :
    reader.expected (data ++ more) = reader.expected data := by
  cases data with
  | nil => exact absurd rfl some
  | cons byte data => rfl

/-- Data in two parts: the first part is taken with what follows it left over, or it is all taken
and the second part goes on where it ended. -/
theorem feedVarint_append {reader : FrameReader} (waits : reader.Waits) {data : Bytes}
    (some : data ≠ []) (more : Bytes) :
    (reader.feedVarint (data ++ more) =
        ((reader.feedVarint data).1, (reader.feedVarint data).2.1,
          (reader.feedVarint data).2.2 ++ more)) ∨
      ((reader.feedVarint data).2 = (none, []) ∧
        (reader.feedVarint data).1.feedVarint more = reader.feedVarint (data ++ more)) := by
  have less := waits.held_lt data
  rcases Nat.lt_or_ge data.length (reader.expected data - reader.held.length) with few | enough
  · right
    rw [feedVarint_few data few]
    refine ⟨rfl, ?_⟩
    have begun : ({ reader with
        varintBuf := reader.held ++ data
        varintBytesExpected := reader.expected data } : FrameReader).held = reader.held ++ data :=
      if_neg (by
        show reader.expected data ≠ 0
        omega)
    have same : ({ reader with
        varintBuf := reader.held ++ data
        varintBytesExpected := reader.expected data } : FrameReader).expected more =
        reader.expected (data ++ more) := by
      rw [expected_append more some]
      exact if_neg (by
        show reader.expected data ≠ 0
        omega)
    have gap : reader.expected data - (reader.held ++ data).length =
        reader.expected data - reader.held.length - data.length := by
      rw [List.length_append]
      omega
    unfold feedVarint
    simp only [begun, same]
    rw [expected_append more some, gap, List.take_append, List.drop_append,
      List.take_of_length_le few.le, List.drop_of_length_le few.le, List.append_assoc,
      List.nil_append]
  · left
    rw [feedVarint_enough waits data enough, feedVarint_enough waits (data ++ more),
      expected_append more some, List.take_append_of_le_length enough,
      List.drop_append_of_le_length enough]
    rw [expected_append more some, List.length_append]
    omega

/-- What the reader does with an integer that is complete. -/
def advance (reader : FrameReader) (value : Nat) : FrameReader :=
  match reader.state with
  | .readType => { reader with currentType := .ofCode value, state := .readLength }
  | _ => { reader with currentLength := value, payloadBuf := [], state := .readPayload }

theorem waits_advance (reader : FrameReader) (value : Nat)
    (ended : reader.varintBytesExpected = 0) : (reader.advance value).Waits := by
  unfold advance
  split
  · exact ⟨fun began => absurd ended began, nofun⟩
  · exact ⟨fun began => absurd ended began, fun _ => Nat.zero_le _⟩

theorem feedVarint_state (reader : FrameReader) (data : Bytes) :
    (reader.feedVarint data).1.state = reader.state := by
  unfold feedVarint
  simp only
  split <;> rfl

/-- A pass over an integer. -/
theorem feedPass_varint {reader : FrameReader}
    (integer : reader.state = .readType ∨ reader.state = .readLength) (data : Bytes) :
    reader.feedPass data =
      (((reader.feedVarint data).2.1.elim (reader.feedVarint data).1
        (reader.feedVarint data).1.advance), (reader.feedVarint data).2.2) := by
  have kept := feedVarint_state reader data
  unfold feedPass advance
  rw [kept]
  obtain ⟨next, value, rest⟩ := reader.feedVarint data
  obtain state | state := integer
  all_goals
    rw [state]
    cases value <;> rfl

/-- A pass over a payload. -/
theorem feedPass_payload {reader : FrameReader} (state : reader.state = .readPayload)
    (data : Bytes) :
    reader.feedPass data =
      ({ reader with
          payloadBuf :=
            reader.payloadBuf ++ data.take (reader.currentLength - reader.payloadBuf.length)
          state :=
            if (reader.payloadBuf ++
              data.take (reader.currentLength - reader.payloadBuf.length)).length =
                reader.currentLength then .complete
            else .readPayload },
        data.drop (reader.currentLength - reader.payloadBuf.length)) := by
  unfold feedPass
  rw [state]

theorem state_cases {reader : FrameReader} (incomplete : reader.state ≠ .complete) :
    (reader.state = .readType ∨ reader.state = .readLength) ∨ reader.state = .readPayload := by
  cases state : reader.state with
  | readType => exact Or.inl (Or.inl rfl)
  | readLength => exact Or.inl (Or.inr rfl)
  | readPayload => exact Or.inr rfl
  | complete => exact absurd state incomplete

/-- A pass over data in two parts. -/
theorem feedPass_append {reader : FrameReader} (waits : reader.Waits)
    (incomplete : reader.state ≠ .complete) {data : Bytes} (some : data ≠ []) (more : Bytes) :
    (reader.feedPass (data ++ more) =
        ((reader.feedPass data).1, (reader.feedPass data).2 ++ more)) ∨
      ((reader.feedPass data).2 = [] ∧ (reader.feedPass data).1.state = reader.state ∧
        (reader.feedPass data).1.feedPass more = reader.feedPass (data ++ more)) := by
  obtain integer | payload := state_cases incomplete
  · rw [feedPass_varint integer, feedPass_varint integer]
    obtain whole | ⟨taken, goesOn⟩ := feedVarint_append waits some more
    · left
      rw [whole]
    · right
      have kept := feedVarint_state reader data
      rw [taken]
      refine ⟨rfl, kept, ?_⟩
      show (reader.feedVarint data).1.feedPass more = _
      rw [feedPass_varint (by rw [kept]; exact integer), goesOn]
  · rw [feedPass_payload payload, feedPass_payload payload]
    have most := waits.payload payload
    rcases Nat.lt_or_ge data.length (reader.currentLength - reader.payloadBuf.length)
      with few | enough
    · right
      have still : (reader.payloadBuf ++ data).length ≠ reader.currentLength := by
        rw [List.length_append]
        omega
      have gap : reader.currentLength - (reader.payloadBuf ++ data).length =
          reader.currentLength - reader.payloadBuf.length - data.length := by
        rw [List.length_append]
        omega
      rw [List.take_of_length_le few.le, List.drop_of_length_le few.le, if_neg still]
      refine ⟨rfl, payload.symm, ?_⟩
      rw [feedPass_payload rfl]
      simp only [gap]
      rw [List.take_append, List.drop_append, List.take_of_length_le few.le,
        List.drop_of_length_le few.le, List.append_assoc, List.nil_append]
    · left
      rw [List.take_append_of_le_length enough, List.drop_append_of_le_length enough]

theorem Waits.feedPass {reader : FrameReader} (waits : reader.Waits)
    (incomplete : reader.state ≠ .complete) (data : Bytes) : (reader.feedPass data).1.Waits := by
  obtain integer | payload := state_cases incomplete
  · have none : reader.state ≠ .readPayload := by
      rintro state
      rw [state] at integer
      obtain other | other := integer <;> cases other
    rw [feedPass_varint integer]
    rcases Nat.lt_or_ge data.length (reader.expected data - reader.held.length) with few | enough
    · rw [feedVarint_few data few]
      refine ⟨fun _ => ?_, fun state => absurd state none⟩
      show (reader.held ++ data).length < reader.expected data
      rw [List.length_append]
      omega
    · rw [feedVarint_enough waits data enough]
      cases decodeVarint _ with
      | none => exact ⟨fun began => absurd rfl began, fun state => absurd state none⟩
      | some value =>
        exact waits_advance _ value.1 rfl
  · rw [feedPass_payload payload]
    refine ⟨waits.varint, fun _ => ?_⟩
    have most := waits.payload payload
    show (reader.payloadBuf ++ _).length ≤ reader.currentLength
    rw [List.length_append, List.length_take]
    omega

/-- A pass takes a byte, unless it completes a frame without a payload. -/
theorem feedPass_length {reader : FrameReader} (waits : reader.Waits)
    (incomplete : reader.state ≠ .complete) {data : Bytes} (some : data ≠ []) :
    (reader.feedPass data).2.length < data.length ∨
      reader.state = .readPayload ∧ (reader.feedPass data).1.state = .complete ∧
        (reader.feedPass data).2 = data := by
  have positive := List.length_pos_of_ne_nil some
  obtain integer | payload := state_cases incomplete
  · left
    have less := waits.held_lt data
    rw [feedPass_varint integer]
    rcases Nat.lt_or_ge data.length (reader.expected data - reader.held.length) with few | enough
    · rw [feedVarint_few data few]
      exact positive
    · rw [feedVarint_enough waits data enough]
      show (data.drop _).length < _
      rw [List.length_drop]
      omega
  · rw [feedPass_payload payload]
    have most := waits.payload payload
    by_cases empty : reader.currentLength - reader.payloadBuf.length = 0
    · right
      rw [empty, List.take_zero, List.append_nil, if_pos (by omega), List.drop_zero]
      exact ⟨payload, rfl, rfl⟩
    · left
      show (data.drop _).length < _
      rw [List.length_drop]
      omega

/-! ### Scans -/

/-- Data is scanned pass by pass: the frames that it completes, and the reader in the end. -/
inductive Scan : FrameReader → Bytes → FrameReader → List Frame → Prop
  | done {reader : FrameReader} (incomplete : reader.state ≠ .complete) : Scan reader [] reader []
  | pass {reader final : FrameReader} {data : Bytes} {frames : List Frame} (some : data ≠ [])
      (incomplete : reader.state ≠ .complete)
      (later : Scan (reader.feedPass data).1 (reader.feedPass data).2 final frames) :
      Scan reader data final frames
  | frame {reader final : FrameReader} {data : Bytes} {frames : List Frame}
      (complete : reader.state = .complete)
      (later : Scan reader.takeFrame.1 data final frames) :
      Scan reader data final (reader.takeFrame.2 :: frames)

theorem Waits.takeFrame {reader : FrameReader} (waits : reader.Waits) :
    reader.takeFrame.1.Waits :=
  ⟨waits.varint, nofun⟩

namespace Scan

theorem incomplete {reader final : FrameReader} {data : Bytes} {frames : List Frame}
    (scan : Scan reader data final frames) : final.state ≠ .complete := by
  induction scan with
  | done incomplete => exact incomplete
  | pass _ _ _ inductionHypothesis => exact inductionHypothesis
  | frame _ _ inductionHypothesis => exact inductionHypothesis

theorem waits {reader final : FrameReader} {data : Bytes} {frames : List Frame}
    (scan : Scan reader data final frames) (waits : reader.Waits) : final.Waits := by
  induction scan with
  | done _ => exact waits
  | pass _ incomplete _ inductionHypothesis =>
    exact inductionHypothesis (waits.feedPass incomplete _)
  | frame _ _ inductionHypothesis => exact inductionHypothesis waits.takeFrame

theorem unique {reader first second : FrameReader} {data : Bytes} {frames others : List Frame}
    (scan : Scan reader data first frames) (other : Scan reader data second others) :
    first = second ∧ frames = others := by
  induction scan generalizing others with
  | done incomplete =>
    cases other with
    | done _ => exact ⟨rfl, rfl⟩
    | pass some _ _ => exact absurd rfl some
    | frame complete _ => exact absurd complete incomplete
  | pass some incomplete _ inductionHypothesis =>
    cases other with
    | done _ => exact absurd rfl some
    | pass _ _ later => exact inductionHypothesis later
    | frame complete _ => exact absurd complete incomplete
  | frame complete _ inductionHypothesis =>
    cases other with
    | done incomplete => exact absurd complete incomplete
    | pass _ incomplete _ => exact absurd complete incomplete
    | frame _ later =>
      obtain ⟨rfl, rfl⟩ := inductionHypothesis later
      exact ⟨rfl, rfl⟩

/-- A scan of two parts, one after the other. -/
theorem append {reader middle final : FrameReader} {data more : Bytes} {frames others : List Frame}
    (scan : Scan reader data middle frames) (waits : reader.Waits)
    (other : Scan middle more final others) :
    Scan reader (data ++ more) final (frames ++ others) := by
  induction scan with
  | done _ => exact other
  | @pass reader middle data frames some incomplete later inductionHypothesis =>
    obtain whole | ⟨taken, kept, goesOn⟩ := feedPass_append waits incomplete some more
    · refine .pass (by simp [some]) incomplete ?_
      rw [whole]
      exact inductionHypothesis (waits.feedPass incomplete data) other
    · rw [taken] at later
      cases later with
      | done _ =>
        cases other with
        | done unfinished =>
          refine .pass (by simp [some]) incomplete ?_
          rw [List.append_nil, taken]
          exact .done unfinished
        | pass _ _ last =>
          refine .pass (by simp [some]) incomplete ?_
          rw [← goesOn]
          exact last
        | frame complete _ => exact absurd (kept ▸ complete) incomplete
      | pass none _ _ => exact absurd rfl none
      | frame complete _ => exact absurd (kept ▸ complete) incomplete
  | frame complete _ inductionHypothesis =>
    exact .frame complete (inductionHypothesis waits.takeFrame other)

end Scan

/-- All data can be scanned. -/
theorem exists_scan (data : Bytes) (reader : FrameReader) (waits : reader.Waits) :
    ∃ final frames, Scan reader data final frames := by
  induction length : data.length using Nat.strongRecOn generalizing data reader with
  | ind count inductionHypothesis =>
    have shorter (reader : FrameReader) (waits : reader.Waits) (rest : Bytes)
        (less : rest.length < data.length) : ∃ final frames, Scan reader rest final frames :=
      inductionHypothesis rest.length (length ▸ less) rest reader waits rfl
    have fresh (reader : FrameReader) (waits : reader.Waits) (incomplete : reader.state ≠ .complete)
        (noPayload : reader.state ≠ .readPayload) :
        ∃ final frames, Scan reader data final frames := by
      by_cases some : data = []
      · subst some
        exact ⟨reader, [], .done incomplete⟩
      · obtain less | ⟨payload, _⟩ := feedPass_length waits incomplete some
        · obtain ⟨final, frames, scan⟩ := shorter _ (waits.feedPass incomplete data) _ less
          exact ⟨final, frames, .pass some incomplete scan⟩
        · exact absurd payload noPayload
    have completed (reader : FrameReader) (waits : reader.Waits)
        (complete : reader.state = .complete) : ∃ final frames, Scan reader data final frames := by
      obtain ⟨final, frames, scan⟩ := fresh reader.takeFrame.1 waits.takeFrame nofun nofun
      exact ⟨final, _, .frame complete scan⟩
    by_cases complete : reader.state = .complete
    · exact completed reader waits complete
    · by_cases some : data = []
      · subst some
        exact ⟨reader, [], .done complete⟩
      · obtain less | ⟨_, complete', rest⟩ := feedPass_length waits complete some
        · obtain ⟨final, frames, scan⟩ := shorter _ (waits.feedPass complete data) _ less
          exact ⟨final, frames, .pass some complete scan⟩
        · obtain ⟨final, frames, scan⟩ := completed _ (waits.feedPass complete data) complete'
          exact ⟨final, frames, .pass some complete (by rwa [rest])⟩

/-- Every frame but one that the reader has begun takes a byte. -/
theorem Scan.length_le {reader final : FrameReader} {data : Bytes} {frames : List Frame}
    (scan : Scan reader data final frames) (waits : reader.Waits) :
    frames.length ≤ data.length +
      if reader.state = .readType ∨ reader.state = .readLength then 0 else 1 := by
  induction scan with
  | done _ => exact Nat.zero_le _
  | @pass reader final data frames some incomplete later inductionHypothesis =>
    have bound := inductionHypothesis (waits.feedPass incomplete data)
    obtain less | ⟨payload, complete, rest⟩ := feedPass_length waits incomplete some
    · split at bound <;> omega
    · rw [if_neg (by rw [payload]; decide)]
      rw [rest, if_neg (by rw [complete]; decide)] at bound
      exact bound
  | @frame reader final data frames complete later inductionHypothesis =>
    have bound := inductionHypothesis waits.takeFrame
    have fresh : reader.takeFrame.1.state = .readType := rfl
    rw [if_pos (Or.inl fresh)] at bound
    rw [if_neg (by rw [complete]; decide), List.length_cons]
    omega

/-- A feed goes over the data up to the first frame that is complete. -/
theorem feedLoop_scan {final : FrameReader} {frames : List Frame} (passes : Nat)
    (reader : FrameReader) (data : Bytes) (scan : Scan reader data final frames)
    (waits : reader.Waits) (enough : data.length < passes) :
    Scan (feedLoop passes reader data).1 (feedLoop passes reader data).2 final frames ∧
      (feedLoop passes reader data).1.Waits ∧
      ((feedLoop passes reader data).2 = [] ∨
        (feedLoop passes reader data).1.state = .complete) := by
  induction passes generalizing reader data with
  | zero => cases enough
  | succ passes inductionHypothesis =>
    rw [feedLoop]
    split
    · rename_i ended
      exact ⟨scan, waits, ended⟩
    · rename_i unended
      obtain ⟨some, incomplete⟩ := not_or.mp unended
      cases scan with
      | done _ => exact absurd rfl some
      | frame complete _ => exact absurd complete incomplete
      | pass _ _ later =>
        have next := waits.feedPass incomplete data
        obtain less | ⟨_, complete, rest⟩ := feedPass_length waits incomplete some
        · exact inductionHypothesis (reader.feedPass data).1 (reader.feedPass data).2 later next
            (by omega)
        · simp only
          have stays : feedLoop passes (reader.feedPass data).1 (reader.feedPass data).2 =
              reader.feedPass data := by
            cases passes with
            | zero => rfl
            | succ passes => rw [feedLoop, if_pos (Or.inr complete)]
          rw [stays]
          exact ⟨later, next, Or.inr complete⟩

section Reading

variable {State : Type} {handle : State → Frame → Except Fault State}

theorem handleFrames_scan {final : FrameReader} {frames : List Frame} (count : Nat)
    (reader : FrameReader) (rest : Bytes) (state : State) (scan : Scan reader rest final frames)
    (waits : reader.Waits) (fed : rest = [] ∨ reader.state = .complete)
    (enough : frames.length < count) :
    handleFrames handle count reader rest state =
      (frames.foldlM handle state).map fun state => (final, state) := by
  induction count generalizing reader rest state frames with
  | zero => cases enough
  | succ count inductionHypothesis =>
    rw [handleFrames, hasFrame]
    cases scan with
    | done incomplete =>
      rw [decide_eq_false incomplete]
      rfl
    | pass some incomplete _ =>
      obtain empty | complete := fed
      · exact absurd empty some
      · exact absurd complete incomplete
    | frame complete later =>
      rw [decide_eq_true complete, if_pos rfl, List.foldlM_cons]
      simp only
      cases handle state reader.takeFrame.2 with
      | error fault => rfl
      | ok next =>
        obtain ⟨scan, waits, fed⟩ := feedLoop_scan (rest.length + 1) _ rest later waits.takeFrame
          (Nat.lt_succ_self _)
        exact inductionHypothesis _ _ next scan waits fed (Nat.lt_of_succ_lt_succ enough)

/-- The frames of a scan are handled one after the other. -/
theorem read_scan {reader final : FrameReader} {data : Bytes} {frames : List Frame}
    (scan : Scan reader data final frames) (waits : reader.Waits) (state : State) :
    read handle reader data state =
      (frames.foldlM handle state).map fun state => (final, state) := by
  have few := scan.length_le waits
  obtain ⟨scan, waits, fed⟩ := feedLoop_scan (data.length + 1) reader data scan waits
    (Nat.lt_succ_self _)
  refine handleFrames_scan _ _ _ state scan waits fed ?_
  split at few <;> omega

end Reading

end FrameReader

end AsyncNet.Http.H3
