/-
This file compares what `process_encoder_instructions` does with what RFC 9204 says the
instructions of an encoder stream do. The tests of the source tell the instructions apart by
other bits than those of the standard and read their integers with other prefixes. A duplication
of one of the fifteen newest entries is the one instruction that both have, and a stream of such
duplications leaves the table that the standard says. A stream that changes the capacity does
not, nor does one in which the first other instruction is one that the source has no test for.
-/

import AsyncNet.Http.QpackStream
import AsyncNet.Http.TableEviction

namespace AsyncNet.Http.H3

open AsyncNet.Http.H2 Library Reference

namespace QpackDecoder

/-! ### The tables side by side -/

/-- The dynamic table of a decoder as the standard has it. -/
def referenceTable (decoder : QpackDecoder) : Table where
  entries := decoder.dynamicTable.table.entries
  capacity := decoder.dynamicTable.table.maxSize
  insertCount := decoder.dynamicTable.insertCount
  maxCapacity := decoder.maxTableSize

/-- The decoder processes the instructions, if they are valid, as the standard says. -/
def Follows (decoder : QpackDecoder) (instructions : List Instruction) : Prop :=
  ∀ table, decoder.referenceTable.run instructions = some table →
    ∃ final, decoder.processEncoderInstructions (instructions.flatMap Instruction.encode) =
      .ok final ∧ final.referenceTable = table

/-- An insertion that is valid leaves the table of the standard. -/
theorem referenceTable_insert (decoder : QpackDecoder) (entry : Header) (table : Table)
    (inserted : decoder.referenceTable.insert entry = some table) :
    (decoder.insert entry.1 entry.2).referenceTable = table := by
  unfold Table.insert at inserted
  split at inserted
  · rename_i fits
    cases inserted
    have entries := decoder.dynamicTable.table.add_entries_eq entry fits
    have capacity := HpackDynamicTable.add_maxSize decoder.dynamicTable.table entry
    unfold referenceTable
    rw [Table.mk.injEq]
    exact ⟨entries, capacity, rfl, rfl⟩
  · cases inserted

/-- A duplication that is valid leaves the table of the standard. -/
theorem referenceTable_duplicate (decoder : QpackDecoder) (index : Nat) (table : Table)
    (duplicated : decoder.referenceTable.apply (.duplicate index) = some table) :
    (duplicate index decoder).referenceTable = table := by
  obtain ⟨entry, found, inserted⟩ := Option.bind_eq_some_iff.mp duplicated
  have same : duplicate index decoder = decoder.insert entry.1 entry.2 := by
    have get : decoder.dynamicTable.get index = some entry := found
    unfold duplicate
    rw [get]
    rfl
  rw [same]
  exact referenceTable_insert decoder entry table inserted

/-! ### Duplications -/

/-- A duplication of one of the fifteen newest entries. -/
def NearDuplicate : Instruction → Prop
  | .duplicate index => index ≤ 14
  | _ => False

instance (instruction : Instruction) : Decidable (NearDuplicate instruction) :=
  match instruction with
  | .duplicate index => inferInstanceAs (Decidable (index ≤ 14))
  | .setCapacity _ | .insertNameReference _ _ _ | .insertLiteralName _ _ => .isFalse id

/-- Its one octet is read as the standard reads it. -/
theorem instruction_duplicate (decoder : QpackDecoder) (index : Nat) (rest : Bytes)
    (near : index ≤ 14) :
    decoder.instruction ((Instruction.duplicate index).encode ++ rest) =
      .ok (some (duplicate index decoder, rest)) := by
  have octet : (Instruction.duplicate index).encode = [UInt8.ofNat index] := by
    rw [Instruction.encode, encodeInteger, if_pos (by omega), Nat.zero_add]
  have flags : ∀ index < 15, UInt8.ofNat index &&& 0xC0 = 0x00 ∧
      ¬ UInt8.ofNat index &&& 0x20 ≠ 0 ∧ UInt8.ofNat index &&& 0xE0 = 0x00 ∧
      UInt8.ofNat index &&& 0x10 = 0x00 ∧ (UInt8.ofNat index).toNat &&& 15 = index := by decide
  obtain ⟨high, noName, top, noStop, value⟩ := flags index (by omega)
  have read : qpackDecodeInt (UInt8.ofNat index :: rest) 4 = some (index, 1) := by
    show (if (UInt8.ofNat index).toNat &&& 15 < 15 then
      some ((UInt8.ofNat index).toNat &&& 15, 1) else _) = _
    rw [value, if_pos (by omega)]
  rw [octet, List.singleton_append, instruction_eq]
  unfold readInstruction
  rw [List.getD_cons_zero]
  dsimp only
  rw [high, top, noStop, if_neg (by decide), if_neg (fun both => noName both.2),
    if_neg (by decide), if_pos ⟨rfl, rfl⟩, read]
  rfl

theorem length_encode_duplicate (index : Nat) (near : index ≤ 14) :
    (Instruction.duplicate index).encode.length = 1 := by
  rw [Instruction.encode, encodeInteger, if_pos (by omega), List.length_singleton]

/-- The loop takes the duplications one after the other and goes on with what follows. -/
theorem instructionLoop_duplicates (instructions : List Instruction) (decoder : QpackDecoder)
    (table : Table) (rest : Bytes) (near : ∀ instruction ∈ instructions, NearDuplicate instruction)
    (valid : decoder.referenceTable.run instructions = some table) (passes : Nat)
    (enough : (instructions.flatMap Instruction.encode ++ rest).length ≤ passes) :
    ∃ reached left, instructionLoop passes decoder
        (instructions.flatMap Instruction.encode ++ rest) = instructionLoop left reached rest ∧
      rest.length ≤ left ∧ reached.referenceTable = table := by
  induction instructions generalizing decoder passes with
  | nil =>
    cases valid
    exact ⟨decoder, passes, rfl, enough, rfl⟩
  | cons instruction instructions inductionHypothesis =>
    rw [List.forall_mem_cons] at near
    cases instruction with
    | setCapacity _ => exact near.1.elim
    | insertNameReference _ _ _ => exact near.1.elim
    | insertLiteralName _ _ => exact near.1.elim
    | duplicate index =>
      have single := length_encode_duplicate index near.1
      rw [List.flatMap_cons, List.append_assoc] at enough ⊢
      have some : (Instruction.duplicate index).encode ++
          (instructions.flatMap Instruction.encode ++ rest) ≠ [] :=
        List.append_ne_nil_of_left_ne_nil (List.ne_nil_of_length_pos (by omega)) _
      rw [List.length_append, single] at enough
      obtain ⟨left, rfl⟩ := Nat.exists_eq_succ_of_ne_zero (show passes ≠ 0 by omega)
      obtain ⟨next, applied, later⟩ := Option.bind_eq_some_iff.mp valid
      rw [← referenceTable_duplicate decoder index next applied] at later
      rw [instructionLoop, if_neg some, instruction_duplicate decoder index _ near.1]
      exact inductionHypothesis (duplicate index decoder) near.2 later left (by omega)

/-- A decoder in any state processes duplications of the fifteen newest entries as the standard
says, up to every point of the sequence. -/
theorem follows_throughout (decoder : QpackDecoder) (instructions front : List Instruction)
    (near : ∀ instruction ∈ instructions, NearDuplicate instruction)
    (before : front <+: instructions) : decoder.Follows front := by
  intro table valid
  have nearFront : ∀ instruction ∈ front, NearDuplicate instruction :=
    fun instruction member => near instruction (before.subset member)
  obtain ⟨reached, left, run, _, same⟩ := instructionLoop_duplicates front decoder table []
    nearFront valid (front.flatMap Instruction.encode).length (by rw [List.append_nil])
  rw [List.append_nil] at run
  refine ⟨reached, run.trans ?_, same⟩
  cases left with
  | zero => rfl
  | succ left => rw [instructionLoop, if_pos rfl]

/-- Two entries, of which the older and then the newest is duplicated. -/
theorem follows_throughout_two :
    let decoder := (insert {} (ascii "a") (ascii "1")).insert (ascii "b") (ascii "2")
    let instructions := [Instruction.duplicate 1, Instruction.duplicate 0]
    (decoder.referenceTable.run instructions).map
        (fun table => (table.entries, table.insertCount)) =
        some ([(ascii "a", ascii "1"), (ascii "a", ascii "1"), (ascii "b", ascii "2"),
          (ascii "a", ascii "1")], 4) ∧
      decoder.Follows instructions :=
  ⟨by decide +kernel, follows_throughout _ _ _ (by decide) List.prefix_rfl⟩

/-! ### What is not processed as the standard says -/

/-- The instructions with a first octet that no test of the loop is for: an insertion with a dynamic
name, one with a Huffman coded name and a duplication of an older entry. -/
def Unrecognised : Instruction → Prop
  | .setCapacity _ => False
  | .insertNameReference isStatic _ _ => isStatic = false
  | .insertLiteralName name _ => name.huffman = true
  | .duplicate index => 16 ≤ index

/-- An octet that passes no test. -/
def FailsTests (byte : UInt8) : Prop :=
  byte &&& 0xC0 ≠ 0xC0 ∧ ¬ (byte &&& 0xC0 = 0x00 ∧ byte &&& 0x20 ≠ 0) ∧ byte &&& 0xE0 ≠ 0x40 ∧
    ¬ (byte &&& 0xE0 = 0x00 ∧ byte &&& 0x10 = 0x00)

instance (byte : UInt8) : Decidable (FailsTests byte) := inferInstanceAs (Decidable (_ ∧ _))

theorem head_encodeInteger (prefixBits flags value : Nat) :
    ∃ octets, encodeInteger prefixBits flags value =
      UInt8.ofNat (flags + min value (2 ^ prefixBits - 1)) :: octets := by
  unfold encodeInteger
  split
  · rename_i short
    rw [min_eq_left short.le]
    exact ⟨[], rfl⟩
  · rename_i long
    rw [min_eq_right (not_lt.mp long)]
    exact ⟨_, rfl⟩

theorem failsTests_of_unrecognised (instruction : Instruction)
    (unrecognised : Unrecognised instruction) :
    ∃ byte octets, instruction.encode = byte :: octets ∧ FailsTests byte := by
  cases instruction with
  | setCapacity _ => exact unrecognised.elim
  | insertNameReference isStatic index value =>
    have fails : ∀ fill < 64, FailsTests (UInt8.ofNat (0x80 + fill)) := by decide
    obtain ⟨octets, head⟩ := head_encodeInteger 6 0x80 index
    have dynamic : isStatic = false := unrecognised
    refine ⟨_, octets ++ encodeLiteral 7 0x00 value, ?_, fails (min index 63) (by omega)⟩
    rw [Instruction.encode, dynamic]
    exact congrArg (· ++ encodeLiteral 7 0x00 value) head
  | insertLiteralName name value =>
    have fails : ∀ fill < 32, FailsTests (UInt8.ofNat (0x60 + fill)) := by decide
    obtain ⟨octets, head⟩ := head_encodeInteger 5 0x60 (huffmanOctets name.text).length
    have coded : name.huffman = true := unrecognised
    refine ⟨_, octets ++ (huffmanOctets name.text ++ encodeLiteral 7 0x00 value), ?_,
      fails (min (huffmanOctets name.text).length 31) (by omega)⟩
    rw [Instruction.encode, encodeLiteral, if_pos coded, List.append_assoc]
    exact congrArg (· ++ (huffmanOctets name.text ++ encodeLiteral 7 0x00 value)) head
  | duplicate index =>
    have fails : ∀ fill < 32, 16 ≤ fill → FailsTests (UInt8.ofNat (0x00 + fill)) := by decide
    obtain ⟨octets, head⟩ := head_encodeInteger 5 0x00 index
    have old : 16 ≤ index := unrecognised
    exact ⟨_, _, head, fails (min index 31) (by omega) (by omega)⟩

/-- The loop stops at such an instruction. -/
theorem instructionLoop_unrecognised (instruction : Instruction)
    (unrecognised : Unrecognised instruction) (decoder : QpackDecoder) (rest : Bytes)
    (passes : Nat) :
    instructionLoop passes decoder (instruction.encode ++ rest) = .ok decoder := by
  obtain ⟨byte, octets, encoded, first, second, third, last⟩ :=
    failsTests_of_unrecognised instruction unrecognised
  have stops : readInstruction (byte :: (octets ++ rest)) = .ok none := by
    unfold readInstruction
    rw [List.getD_cons_zero]
    dsimp only
    rw [if_neg first, if_neg second, if_neg third, if_neg last]
  cases passes with
  | zero => rfl
  | succ passes =>
    rw [encoded, List.cons_append, instructionLoop, if_neg (List.cons_ne_nil _ _), instruction_eq,
      stops]
    rfl

end QpackDecoder

namespace Reference.Table

theorem insertCount_insert {table next : Table} {entry : Header}
    (inserted : table.insert entry = some next) : next.insertCount = table.insertCount + 1 := by
  unfold insert at inserted
  split at inserted
  · cases inserted
    rfl
  · cases inserted

/-- Every instruction but the one for the capacity inserts an entry. -/
theorem insertCount_apply {table next : Table} {instruction : Instruction}
    (applied : table.apply instruction = some next) :
    next.insertCount = table.insertCount + 1 ∨
      next.insertCount = table.insertCount ∧ ∃ capacity, instruction = .setCapacity capacity := by
  cases instruction with
  | setCapacity capacity =>
    right
    rw [apply] at applied
    split at applied
    · cases applied
      exact ⟨rfl, capacity, rfl⟩
    · cases applied
  | insertNameReference isStatic index value =>
    obtain ⟨entry, _, inserted⟩ := Option.bind_eq_some_iff.mp applied
    exact Or.inl (insertCount_insert inserted)
  | insertLiteralName name value => exact Or.inl (insertCount_insert applied)
  | duplicate index =>
    obtain ⟨entry, _, inserted⟩ := Option.bind_eq_some_iff.mp applied
    exact Or.inl (insertCount_insert inserted)

theorem insertCount_run {table final : Table} {instructions : List Instruction}
    (ran : table.run instructions = some final) : table.insertCount ≤ final.insertCount := by
  induction instructions generalizing table with
  | nil =>
    cases ran
    exact le_rfl
  | cons instruction instructions inductionHypothesis =>
    obtain ⟨next, applied, later⟩ := Option.bind_eq_some_iff.mp ran
    have grows := inductionHypothesis later
    obtain more | ⟨same, _⟩ := insertCount_apply applied
    · omega
    · omega

end Reference.Table

namespace QpackDecoder

/-- A valid sequence is not processed as the standard says if its first instruction that is not a
duplication of one of the fifteen newest entries is one that no test is for. -/
theorem not_follows_of_unrecognised (decoder : QpackDecoder) (front later : List Instruction)
    (instruction : Instruction) (near : ∀ other ∈ front, NearDuplicate other)
    (unrecognised : Unrecognised instruction) (table : Table)
    (valid : decoder.referenceTable.run (front ++ instruction :: later) = some table) :
    ¬ decoder.Follows (front ++ instruction :: later) := by
  intro follows
  obtain ⟨final, processed, same⟩ := follows table valid
  rw [Table.run, List.foldlM_append] at valid
  obtain ⟨middle, ran, rest⟩ := Option.bind_eq_some_iff.mp valid
  obtain ⟨next, applied, after⟩ := Option.bind_eq_some_iff.mp rest
  -- The decoder has what the front of the sequence leaves, and stops there.
  rw [processEncoderInstructions, List.flatMap_append, List.flatMap_cons] at processed
  obtain ⟨reached, left, run, _, stands⟩ := instructionLoop_duplicates front decoder middle _ near
    ran _ le_rfl
  rw [run, instructionLoop_unrecognised instruction unrecognised] at processed
  cases processed
  -- The standard has inserted at least one entry more.
  have more := Table.insertCount_run after
  obtain inserts | ⟨_, capacity, rfl⟩ := Table.insertCount_apply applied
  · rw [← same, stands] at more
    omega
  · exact unrecognised

/-- A valid sequence that leaves another capacity is not processed as the standard says, whatever
else it does: no bytes change the capacity. -/
theorem not_follows_of_capacity (decoder : QpackDecoder) (instructions : List Instruction)
    (table : Table) (valid : decoder.referenceTable.run instructions = some table)
    (changed : table.capacity ≠ decoder.dynamicTable.table.maxSize) :
    ¬ decoder.Follows instructions := by
  intro follows
  obtain ⟨final, processed, same⟩ := follows table valid
  have stays := instructionLoop_maxSize _ decoder final _ processed
  rw [← same] at changed
  exact changed stays

/-- The first instructions of a stream: its capacity and an insertion with a literal name. The
decoder takes the first for an insertion whose value is cut off, and stops. -/
theorem not_follows_setCapacity :
    let instructions := [Instruction.setCapacity 220,
      Instruction.insertLiteralName { text := ascii "a" } { text := ascii "1" }]
    let table : Table :=
      { entries := [(ascii "a", ascii "1")]
        capacity := 220
        insertCount := 1
        maxCapacity := 4096 }
    (referenceTable {}).run instructions = some table ∧
      processEncoderInstructions {} (instructions.flatMap Instruction.encode) = .ok {} ∧
      ¬ Follows {} instructions := by
  intro instructions table
  have valid : (referenceTable {}).run instructions = some table := by decide +kernel
  exact ⟨valid, by decide +kernel, not_follows_of_capacity {} instructions table valid (by decide)⟩

end QpackDecoder

end AsyncNet.Http.H3
