/-
This file bounds the memory that a peer can make a decoder's dynamic table take. An
insertion leaves the table within the table's own bound, and the table's bound is what
this endpoint configured, as long as the peer does not raise it: `hpack_decoder`
carries out any size update, so the bound of the configuration holds over the runs
whose updates respect it. The capacity instruction of QPACK is never carried out, and
the bound holds over every run there.
-/

import AsyncNet.Http.HpackDecode
import AsyncNet.Http.HpackTable
import AsyncNet.Http.Qpack

namespace AsyncNet.Http.H2

open Library

/-- The calls that can be made on a decoder. -/
inductive DecoderCall where
  | setMaxTableSize (size : UInt64)
  | decode (block : Bytes)

namespace HpackDecoder

/-- A call, whose result is dropped. -/
def call (decoder : HpackDecoder) : DecoderCall → Except Fault HpackDecoder
  | .setMaxTableSize size => .ok (decoder.setMaxTableSize size.toNat)
  | .decode block => (decoder.decode block).map Prod.snd

/-- The decoder after a run of calls. -/
def run (decoder : HpackDecoder) (calls : List DecoderCall) : Except Fault HpackDecoder :=
  calls.foldlM call decoder

/-- The size updates a call carries out stay within the limit that is configured then. -/
def RespectsLimit (decoder : HpackDecoder) : DecoderCall → Prop
  | .setMaxTableSize _ => True
  | .decode block => ∀ size ∈ decoder.sizeUpdates block, size ≤ decoder.maxTableSize

instance (decoder : HpackDecoder) (call : DecoderCall) : Decidable (decoder.RespectsLimit call) :=
  match call with
  | .setMaxTableSize _ => .isTrue trivial
  | .decode block =>
      inferInstanceAs (Decidable (∀ size ∈ decoder.sizeUpdates block, size ≤ decoder.maxTableSize))

/-- Every call of a run respects the limit at its point of the run. -/
def RunRespectsLimit (decoder : HpackDecoder) (calls : List DecoderCall) : Prop :=
  Along call RespectsLimit decoder calls

/-- The table is within its own bound, which is within the configured one. -/
structure Bounded (decoder : HpackDecoder) : Prop where
  table : decoder.dynamicTable.currentSize ≤ decoder.dynamicTable.maxSize
  limit : decoder.dynamicTable.maxSize ≤ decoder.maxTableSize

theorem bounded_create (maxTableSize : UInt64) : (create maxTableSize).Bounded :=
  ⟨Nat.zero_le _, le_rfl⟩

theorem foldl_resize_bounded (sizes : List Nat) (decoder : HpackDecoder) (bounded : decoder.Bounded)
    (within : ∀ size ∈ sizes, size ≤ decoder.maxTableSize) :
    Bounded { decoder with
      dynamicTable := sizes.foldl HpackDynamicTable.resize decoder.dynamicTable } := by
  induction sizes generalizing decoder with
  | nil => exact bounded
  | cons size sizes inductionHypothesis =>
    have resized : Bounded { decoder with dynamicTable := decoder.dynamicTable.resize size } := by
      refine ⟨?_, ?_⟩
      · show (decoder.dynamicTable.resize size).currentSize ≤
          (decoder.dynamicTable.resize size).maxSize
        rw [HpackDynamicTable.resize_maxSize]
        exact HpackDynamicTable.resize_currentSize_le _ size
      · show (decoder.dynamicTable.resize size).maxSize ≤ decoder.maxTableSize
        rw [HpackDynamicTable.resize_maxSize]
        exact within size List.mem_cons_self
    exact inductionHypothesis _ resized fun later member =>
      within later (List.mem_cons_of_mem _ member)

theorem insertAll_bounded (entries : Headers) (decoder : HpackDecoder)
    (bounded : decoder.Bounded) : (decoder.insertAll entries).Bounded := by
  induction entries generalizing decoder with
  | nil => exact bounded
  | cons entry entries inductionHypothesis =>
    have added : Bounded { decoder with dynamicTable := decoder.dynamicTable.add entry } := by
      refine ⟨?_, ?_⟩
      · show (decoder.dynamicTable.add entry).currentSize ≤ (decoder.dynamicTable.add entry).maxSize
        rw [HpackDynamicTable.add_maxSize]
        exact HpackDynamicTable.add_currentSize_le _ entry
      · show (decoder.dynamicTable.add entry).maxSize ≤ decoder.maxTableSize
        rw [HpackDynamicTable.add_maxSize]
        exact bounded.limit
    exact inductionHypothesis _ added

/-- One call keeps the bound if the size updates it carries out respect the limit. -/
theorem call_bounded (decoder next : HpackDecoder) (call : DecoderCall)
    (bounded : decoder.Bounded) (respects : decoder.RespectsLimit call)
    (called : decoder.call call = .ok next) : next.Bounded := by
  cases call with
  | setMaxTableSize size =>
    cases called
    refine ⟨?_, ?_⟩
    · show (decoder.dynamicTable.resize _).currentSize ≤ (decoder.dynamicTable.resize _).maxSize
      rw [HpackDynamicTable.resize_maxSize]
      exact HpackDynamicTable.resize_currentSize_le _ _
    · show (decoder.dynamicTable.resize _).maxSize ≤ _
      rw [HpackDynamicTable.resize_maxSize]
      exact le_rfl
  | decode block =>
    obtain ⟨decoded, run, rfl⟩ := map_ok called
    obtain ⟨⟨outcome, reached⟩, block', last⟩ := bind_ok run
    cases last
    obtain ⟨entries, _, rfl⟩ :=
      decodeFrom_ok decoder reached block [] [] outcome block.length le_rfl block'
    exact insertAll_bounded entries _ (foldl_resize_bounded _ decoder bounded respects)

/-- A run keeps the bound if every call of it respects the limit. -/
theorem run_bounded (calls : List DecoderCall) (decoder final : HpackDecoder)
    (bounded : decoder.Bounded) (respects : decoder.RunRespectsLimit calls)
    (ran : decoder.run calls = .ok final) : final.Bounded :=
  foldlM_along (fun decoder call next => call_bounded decoder next call) calls decoder final bounded
    respects ran

end HpackDecoder

end AsyncNet.Http.H2

namespace AsyncNet.Http.H3

open Library H2

namespace QpackDecoder

/-- The decoder after any number of calls of `process_encoder_instructions`. -/
def run (decoder : QpackDecoder) (streams : List Bytes) : Except Fault QpackDecoder :=
  streams.foldlM processEncoderInstructions decoder

/-- The table is within its own bound, which is the configured one. -/
structure Bounded (decoder : QpackDecoder) : Prop where
  table : decoder.dynamicTable.table.currentSize ≤ decoder.dynamicTable.table.maxSize
  limit : decoder.dynamicTable.table.maxSize = decoder.maxTableSize

theorem insert_bounded (dynamicTable : QpackDynamicTable) (name value : Bytes) :
    (dynamicTable.insert name value).table.currentSize ≤
      (dynamicTable.insert name value).table.maxSize ∧
    (dynamicTable.insert name value).table.maxSize = dynamicTable.table.maxSize := by
  refine ⟨?_, HpackDynamicTable.add_maxSize _ _⟩
  show (dynamicTable.table.add _).currentSize ≤ (dynamicTable.table.add _).maxSize
  rw [HpackDynamicTable.add_maxSize]
  exact HpackDynamicTable.add_currentSize_le _ _

theorem insertValue_bounded (decoder next : QpackDecoder) (name rest after : Bytes)
    (bounded : decoder.Bounded)
    (inserted : decoder.insertValue name rest = .ok (some (next, after))) :
    next.Bounded := by
  obtain ⟨value, _, last⟩ := bind_ok inserted
  cases value with
  | none => cases last
  | some value =>
    cases last
    obtain ⟨table, limit⟩ := insert_bounded decoder.dynamicTable name value.1
    exact ⟨table, limit.trans bounded.limit⟩

/-- The first bits of a capacity instruction are those of an insertion with a dynamic name. -/
theorem capacity_unreachable (byte : UInt8) (other : ¬(byte &&& 0xC0 = 0x00 ∧ byte &&& 0x20 ≠ 0)) :
    byte &&& 0xE0 ≠ 0x20 := by
  revert byte
  exact forall_byte (by decide +kernel)

/-- Every instruction keeps the bound. -/
theorem instruction_bounded (decoder next : QpackDecoder) (rest after : Bytes)
    (bounded : decoder.Bounded) (taken : decoder.instruction rest = .ok (some (next, after))) :
    next.Bounded := by
  unfold instruction at taken
  dsimp only at taken
  split at taken
  · split at taken
    · cases taken
    · exact insertValue_bounded _ _ _ _ _ bounded taken
  · split at taken
    · split at taken
      · cases taken
      · exact insertValue_bounded _ _ _ _ _ bounded taken
    · rename_i _ other
      split at taken
      · obtain ⟨name, _, last⟩ := bind_ok taken
        cases name with
        | none => cases last
        | some name => exact insertValue_bounded _ _ _ _ _ bounded last
      · rw [if_neg (capacity_unreachable _ other)] at taken
        split at taken
        · split at taken
          · cases taken
          · cases taken
            cases found : decoder.dynamicTable.get _ with
            | none => exact ⟨bounded.table, bounded.limit⟩
            | some entry =>
              obtain ⟨table, limit⟩ := insert_bounded decoder.dynamicTable entry.1 entry.2
              exact ⟨table, limit.trans bounded.limit⟩
        · cases taken

theorem instructionLoop_bounded (passes : Nat) (decoder final : QpackDecoder) (rest : Bytes)
    (bounded : decoder.Bounded) (ran : instructionLoop passes decoder rest = .ok final) :
    final.Bounded := by
  induction passes generalizing decoder rest with
  | zero =>
    cases ran
    exact bounded
  | succ passes inductionHypothesis =>
    unfold instructionLoop at ran
    split at ran
    · cases ran
      exact bounded
    · obtain ⟨step, taken, ran⟩ := bind_ok ran
      cases step with
      | none =>
        cases ran
        exact bounded
      | some step =>
        exact inductionHypothesis step.1 step.2
          (instruction_bounded decoder step.1 rest step.2 bounded taken) ran

theorem run_bounded (streams : List Bytes) (decoder final : QpackDecoder)
    (bounded : decoder.Bounded) (ran : decoder.run streams = .ok final) : final.Bounded :=
  foldlM_invariant (fun decoder _ next before called =>
    instructionLoop_bounded _ decoder next _ before called) streams decoder final bounded ran

theorem bounded_new : Bounded {} := ⟨Nat.zero_le _, rfl⟩

end QpackDecoder

end AsyncNet.Http.H3
