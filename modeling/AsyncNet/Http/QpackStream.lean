/-
This file is about the instructions of a QPACK encoder stream. Where an instruction ends does
not depend on the decoder that it acts on, nor on what follows it, and every instruction is
counted. So the number of instructions of some bytes is a function of the bytes, by which the
count of a decoder grows whenever it processes them, also when it has processed them before.
-/

import AsyncNet.Http.DecoderMemory
import AsyncNet.Http.HpackBlocks

namespace AsyncNet.Http.H3

open H2 Library

/-! ### Strings -/

/-- A string that has been read is not changed by what follows. -/
theorem qpackDecodeString_append {data text : Bytes} {consumed : Int} (more : Bytes)
    (decoded : qpackDecodeString data = .ok (text, consumed)) (positive : 0 < consumed) :
    qpackDecodeString (data ++ more) = .ok (text, consumed) ∧ consumed ≤ data.length := by
  unfold qpackDecodeString at decoded ⊢
  dsimp only at decoded ⊢
  cases prefixInt : qpackDecodeInt data 7 with
  | none =>
    rw [prefixInt] at decoded
    cases decoded
    exact absurd positive (lt_irrefl 0)
  | some found =>
    obtain ⟨strLen, start⟩ := found
    have same : qpackDecodeInt (data ++ more) 7 = some (strLen, start) :=
      (hpackDecodeInt_append data more 7 strLen start prefixInt).1
    rw [same, getD_append more (hpackDecodeInt_ne_nil _ _ _ _ prefixInt)]
    rw [prefixInt] at decoded
    dsimp only at decoded ⊢
    split at decoded
    · cases decoded
      exact absurd positive (lt_irrefl 0)
    · split at decoded
      · cases decoded
      · have octets : ((data ++ more).drop start).take strLen = (data.drop start).take strLen := by
          rw [List.drop_append_of_le_length (by omega),
            List.take_append_of_le_length (by rw [List.length_drop]; omega)]
        rw [if_neg (by rw [List.length_append]; omega), if_neg (by rw [List.length_append]; omega),
          octets]
        refine ⟨decoded, ?_⟩
        have narrow := wrapInt32_le strLen (by omega)
        have least := neg_le_wrapInt32 strLen
        have total := wrapInt32_le (start + wrapInt32 strLen) (by omega)
        split at decoded
        all_goals
          split at decoded
          · cases decoded
            exact absurd positive (lt_irrefl 0)
          · cases decoded
            omega

/-- A length that wraps the check of the bounds wraps it with more bytes too. -/
theorem qpackDecodeString_fault {data : Bytes} {fault : Fault} (more : Bytes)
    (short : (data ++ more).length < 2 ^ 62) (faulty : qpackDecodeString data = .error fault) :
    qpackDecodeString (data ++ more) = .error fault := by
  unfold qpackDecodeString at faulty ⊢
  dsimp only at faulty ⊢
  cases prefixInt : qpackDecodeInt data 7 with
  | none =>
    rw [prefixInt] at faulty
    cases faulty
  | some found =>
    obtain ⟨strLen, start⟩ := found
    have same : qpackDecodeInt (data ++ more) 7 = some (strLen, start) :=
      (hpackDecodeInt_append data more 7 strLen start prefixInt).1
    rw [same, getD_append more (hpackDecodeInt_ne_nil _ _ _ _ prefixInt)]
    rw [prefixInt] at faulty
    dsimp only at faulty ⊢
    rw [List.length_append] at short ⊢
    split at faulty
    · cases faulty
    · split at faulty
      · rw [if_neg (by omega), if_pos (by omega)]
        exact faulty
      · split at faulty <;> split at faulty <;> cases faulty

theorem readString_some {rest text after : Bytes} (more : Bytes)
    (read : readString rest = .ok (some (text, after))) :
    readString (rest ++ more) = .ok (some (text, after ++ more)) := by
  obtain ⟨⟨decoded, consumed⟩, string, next⟩ := bind_ok read
  dsimp only at next
  by_cases stops : consumed ≤ 0
  · rw [if_pos stops] at next
    cases next
  · rw [if_neg stops] at next
    cases next
    obtain ⟨same, bound⟩ := qpackDecodeString_append more string (not_le.mp stops)
    unfold readString
    rw [same]
    show Except.ok (if consumed ≤ 0 then none
      else some (text, (rest ++ more).drop consumed.toNat)) = _
    rw [if_neg stops, List.drop_append_of_le_length (by omega)]

theorem readString_length {rest text after : Bytes}
    (read : readString rest = .ok (some (text, after))) : after.length ≤ rest.length := by
  obtain ⟨⟨decoded, consumed⟩, _, next⟩ := bind_ok read
  dsimp only at next
  split at next
  · cases next
  · cases next
    rw [List.length_drop]
    exact Nat.sub_le _ _

theorem readString_fault {rest : Bytes} {fault : Fault} (more : Bytes)
    (short : (rest ++ more).length < 2 ^ 62) (faulty : readString rest = .error fault) :
    readString (rest ++ more) = .error fault := by
  unfold readString at faulty ⊢
  cases string : qpackDecodeString rest with
  | error other =>
    rw [string] at faulty
    cases faulty
    rw [qpackDecodeString_fault more short string]
    rfl
  | ok found =>
    rw [string] at faulty
    cases faulty

/-! ### Instructions -/

/-- An instruction at the front of some bytes, as what it does to a decoder, and what follows it. -/
abbrev Reading := Except Fault (Option ((QpackDecoder → QpackDecoder) × Bytes))

/-- The value of an insertion, whose name may depend on the decoder. -/
def readValue (name : QpackDecoder → Bytes) (rest : Bytes) : Reading := do
  match ← readString rest with
  | none => return none
  | some (value, rest) => return some (fun decoder => decoder.insert (name decoder) value, rest)

/-- The duplication of an entry. -/
def duplicate (index : Nat) (decoder : QpackDecoder) : QpackDecoder :=
  { decoder with
    dynamicTable :=
      match decoder.dynamicTable.get index with
      | none => decoder.dynamicTable
      | some entry => decoder.dynamicTable.insert entry.1 entry.2
    knownReceivedCount := decoder.knownReceivedCount + 1 }

/-- The instruction at the front of some bytes. -/
def readInstruction (rest : Bytes) : Reading :=
  let byte := rest.getD 0 0
  if byte &&& 0xC0 = 0xC0 then
    match qpackDecodeInt rest 5 with
    | none => .ok none
    | some (nameIdx, consumed) =>
        readValue (fun _ => if byte &&& 0x20 ≠ 0 then (qpackStaticTable[nameIdx]?.map (·.1)).getD []
          else []) (rest.drop consumed)
  else if byte &&& 0xC0 = 0x00 ∧ byte &&& 0x20 ≠ 0 then
    match qpackDecodeInt rest 5 with
    | none => .ok none
    | some (nameIdx, consumed) =>
        readValue (fun decoder => ((decoder.dynamicTable.get nameIdx).map (·.1)).getD [])
          (rest.drop consumed)
  else if byte &&& 0xE0 = 0x40 then do
    match ← readString (rest.drop 1) with
    | none => return none
    | some (name, rest) => readValue (fun _ => name) rest
  else if byte &&& 0xE0 = 0x00 ∧ byte &&& 0x10 = 0x00 then
    match qpackDecodeInt rest 4 with
    | none => .ok none
    | some (index, consumed) => .ok (some (duplicate index, rest.drop consumed))
  else .ok none

namespace QpackDecoder

theorem insertValue_eq (decoder : QpackDecoder) (name : QpackDecoder → Bytes) (rest : Bytes) :
    decoder.insertValue (name decoder) rest =
      (readValue name rest).map (Option.map fun found => (found.1 decoder, found.2)) := by
  unfold insertValue readValue
  cases readString rest with
  | error fault => rfl
  | ok found => cases found <;> rfl

/-- An instruction is read and then acts on the decoder. -/
theorem instruction_eq (decoder : QpackDecoder) (rest : Bytes) :
    decoder.instruction rest =
      (readInstruction rest).map (Option.map fun found => (found.1 decoder, found.2)) := by
  unfold instruction readInstruction
  dsimp only
  split
  · cases qpackDecodeInt rest 5 with
    | none => rfl
    | some found => exact insertValue_eq decoder (fun _ => _) _
  · split
    · cases qpackDecodeInt rest 5 with
      | none => rfl
      | some found =>
        exact insertValue_eq decoder
          (fun decoder => ((decoder.dynamicTable.get found.1).map (·.1)).getD []) _
    · rename_i _ other
      split
      · cases readString (rest.drop 1) with
        | error fault => rfl
        | ok found =>
          cases found with
          | none => rfl
          | some found => exact insertValue_eq decoder (fun _ => found.1) _
      · rw [if_neg (capacity_unreachable _ other)]
        split
        · cases qpackDecodeInt rest 4 <;> rfl
        · rfl

/-- The first pass of the loop over instructions. -/
theorem processEncoderInstructions_eq (decoder : QpackDecoder) {payload : Bytes}
    (nonempty : payload ≠ []) :
    decoder.processEncoderInstructions payload =
      (readInstruction payload).bind fun found =>
        match found with
        | none => .ok decoder
        | some (effect, rest) => instructionLoop (payload.length - 1) (effect decoder) rest := by
  obtain ⟨passes, length⟩ := Nat.exists_eq_succ_of_ne_zero
    (List.length_pos_of_ne_nil nonempty).ne'
  rw [processEncoderInstructions, length, instructionLoop, if_neg nonempty, instruction_eq]
  cases readInstruction payload with
  | error fault => rfl
  | ok found => cases found <;> rfl

end QpackDecoder

theorem readValue_effect {name : QpackDecoder → Bytes} {rest after : Bytes}
    {effect : QpackDecoder → QpackDecoder}
    (read : readValue name rest = .ok (some (effect, after))) :
    ∃ value, effect = fun decoder => decoder.insert (name decoder) value := by
  obtain ⟨found, _, last⟩ := bind_ok read
  cases found with
  | none => cases last
  | some found =>
    cases last
    exact ⟨found.1, rfl⟩

/-- Every instruction inserts an entry or duplicates one. -/
theorem readInstruction_effect {rest after : Bytes} {effect : QpackDecoder → QpackDecoder}
    (read : readInstruction rest = .ok (some (effect, after))) :
    (∃ (name : QpackDecoder → Bytes) (value : Bytes),
      effect = fun decoder => decoder.insert (name decoder) value) ∨
      ∃ index, effect = duplicate index := by
  unfold readInstruction at read
  dsimp only at read
  split at read
  · split at read
    · cases read
    · exact Or.inl ⟨_, readValue_effect read⟩
  · split at read
    · split at read
      · cases read
      · exact Or.inl ⟨_, readValue_effect read⟩
    · split at read
      · obtain ⟨found, _, last⟩ := bind_ok read
        cases found with
        | none => cases last
        | some found => exact Or.inl ⟨_, readValue_effect last⟩
      · split at read
        · split at read
          · cases read
          · cases read
            exact Or.inr ⟨_, rfl⟩
        · cases read

/-- Every instruction is counted. -/
theorem readInstruction_count {rest after : Bytes} {effect : QpackDecoder → QpackDecoder}
    (read : readInstruction rest = .ok (some (effect, after))) (decoder : QpackDecoder) :
    (effect decoder).knownReceivedCount = decoder.knownReceivedCount + 1 := by
  obtain ⟨name, value, rfl⟩ | ⟨index, rfl⟩ := readInstruction_effect read
  · rfl
  · rfl

/-- No instruction changes the capacity. -/
theorem readInstruction_maxSize {rest after : Bytes} {effect : QpackDecoder → QpackDecoder}
    (read : readInstruction rest = .ok (some (effect, after))) (decoder : QpackDecoder) :
    (effect decoder).dynamicTable.table.maxSize = decoder.dynamicTable.table.maxSize := by
  obtain ⟨name, value, rfl⟩ | ⟨index, rfl⟩ := readInstruction_effect read
  · exact HpackDynamicTable.add_maxSize _ _
  · unfold duplicate
    dsimp only
    split
    · rfl
    · exact HpackDynamicTable.add_maxSize _ _

/-- An instruction that some bytes hold, or a fault in it, does not go away with more bytes. -/
theorem readValue_append {name : QpackDecoder → Bytes} {rest : Bytes} (more : Bytes)
    (short : (rest ++ more).length < 2 ^ 62) (read : readValue name rest ≠ .ok none) :
    readValue name (rest ++ more) ≠ .ok none := by
  unfold readValue at read ⊢
  cases string : readString rest with
  | error fault =>
    rw [readString_fault more short string]
    nofun
  | ok found =>
    cases found with
    | none =>
      rw [string] at read
      exact absurd rfl read
    | some found =>
      rw [readString_some more string]
      nofun

theorem readInstruction_append {rest : Bytes} (more : Bytes)
    (short : (rest ++ more).length < 2 ^ 62) (read : readInstruction rest ≠ .ok none) :
    readInstruction (rest ++ more) ≠ .ok none := by
  have some : rest ≠ [] := by
    rintro rfl
    exact read rfl
  have integer {prefixBits value consumed : Nat}
      (decoded : qpackDecodeInt rest prefixBits = Option.some (value, consumed)) :
      qpackDecodeInt (rest ++ more) prefixBits = Option.some (value, consumed) ∧
        (rest ++ more).drop consumed = rest.drop consumed ++ more := by
    obtain ⟨same, bound⟩ := hpackDecodeInt_append rest more prefixBits value consumed decoded
    exact ⟨same, List.drop_append_of_le_length bound⟩
  have shorter (consumed : Nat) : (rest.drop consumed ++ more).length < 2 ^ 62 := by
    rw [List.length_append] at short ⊢
    rw [List.length_drop]
    omega
  unfold readInstruction at read ⊢
  rw [getD_append more some]
  dsimp only at read ⊢
  split at read
  · rw [if_pos ‹_›]
    cases decoded : qpackDecodeInt rest 5 with
    | none =>
      rw [decoded] at read
      exact absurd rfl read
    | some found =>
      obtain ⟨same, dropped⟩ := integer decoded
      rw [decoded] at read
      rw [same]
      dsimp only at read ⊢
      rw [dropped]
      exact readValue_append more (shorter _) read
  · rw [if_neg ‹_›]
    split at read
    · rw [if_pos ‹_›]
      cases decoded : qpackDecodeInt rest 5 with
      | none =>
        rw [decoded] at read
        exact absurd rfl read
      | some found =>
        obtain ⟨same, dropped⟩ := integer decoded
        rw [decoded] at read
        rw [same]
        dsimp only at read ⊢
        rw [dropped]
        exact readValue_append more (shorter _) read
    · rw [if_neg ‹_›]
      split at read
      · rw [if_pos ‹_›, List.drop_append_of_le_length (List.length_pos_of_ne_nil some)]
        cases string : readString (rest.drop 1) with
        | error fault =>
          rw [readString_fault more (shorter 1) string]
          nofun
        | ok found =>
          rw [string] at read
          cases found with
          | none => exact absurd rfl read
          | some found =>
            rw [readString_some more string]
            have less := readString_length string
            refine readValue_append more ?_ read
            have bound := shorter 1
            rw [List.length_append] at bound ⊢
            omega
      · rw [if_neg ‹_›]
        split at read
        · rw [if_pos ‹_›]
          cases decoded : qpackDecodeInt rest 4 with
          | none =>
            rw [decoded] at read
            exact absurd rfl read
          | some found =>
            rw [(integer decoded).1]
            nofun
        · exact absurd rfl read

/-! ### The loop -/

/-- The number of instructions that a run of the loop processes. -/
def instructionCount : Nat → Bytes → Nat
  | 0, _ => 0
  | passes + 1, rest =>
      if rest = [] then 0
      else
        match readInstruction rest with
        | .ok (some (_, rest)) => instructionCount passes rest + 1
        | _ => 0

namespace QpackDecoder

/-- Two decoders process the same bytes with the same count, or fail together. -/
theorem instructionLoop_count (passes : Nat) (rest : Bytes) :
    (∃ fault, ∀ decoder, instructionLoop passes decoder rest = .error fault) ∨
      ∀ decoder, ∃ final, instructionLoop passes decoder rest = .ok final ∧
        final.knownReceivedCount = decoder.knownReceivedCount + instructionCount passes rest := by
  induction passes generalizing rest with
  | zero => exact Or.inr fun decoder => ⟨decoder, rfl, rfl⟩
  | succ passes inductionHypothesis =>
    by_cases empty : rest = []
    · right
      intro decoder
      refine ⟨decoder, ?_, ?_⟩
      · rw [instructionLoop, if_pos empty]
      · rw [instructionCount, if_pos empty]
        rfl
    · cases read : readInstruction rest with
      | error fault =>
        left
        refine ⟨fault, fun decoder => ?_⟩
        rw [instructionLoop, if_neg empty, instruction_eq, read]
        rfl
      | ok found =>
        cases found with
        | none =>
          right
          intro decoder
          refine ⟨decoder, ?_, ?_⟩
          · rw [instructionLoop, if_neg empty, instruction_eq, read]
            rfl
          · rw [instructionCount, if_neg empty, read]
            rfl
        | some found =>
          obtain ⟨effect, after⟩ := found
          have step (decoder : QpackDecoder) : instructionLoop (passes + 1) decoder rest =
              instructionLoop passes (effect decoder) after := by
            rw [instructionLoop, if_neg empty, instruction_eq, read]
            rfl
          obtain ⟨fault, fails⟩ | runs := inductionHypothesis after
          · left
            exact ⟨fault, fun decoder => (step decoder).trans (fails _)⟩
          · right
            intro decoder
            obtain ⟨final, run, count⟩ := runs (effect decoder)
            refine ⟨final, (step decoder).trans run, ?_⟩
            rw [count, readInstruction_count read, instructionCount, if_neg empty, read]
            dsimp only
            omega

/-- No bytes change the capacity. -/
theorem instructionLoop_maxSize (passes : Nat) (decoder final : QpackDecoder) (rest : Bytes)
    (ran : instructionLoop passes decoder rest = .ok final) :
    final.dynamicTable.table.maxSize = decoder.dynamicTable.table.maxSize := by
  induction passes generalizing decoder rest with
  | zero =>
    cases ran
    rfl
  | succ passes inductionHypothesis =>
    unfold instructionLoop at ran
    split at ran
    · cases ran
      rfl
    · obtain ⟨step, taken, ran⟩ := bind_ok ran
      cases step with
      | none =>
        cases ran
        rfl
      | some step =>
        rw [instruction_eq] at taken
        obtain ⟨found, read, acted⟩ := map_ok taken
        obtain ⟨⟨effect, after⟩, rfl, rfl⟩ := Option.map_eq_some_iff.mp acted
        exact (inductionHypothesis _ _ ran).trans (readInstruction_maxSize read decoder)

end QpackDecoder

end AsyncNet.Http.H3
