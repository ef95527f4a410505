/-
This file relates what the decoder makes of two header blocks in turn to what it
makes of the two joined into one. A block that is read to its end is a chain of
passes, and passes can be chained across the seam. What the chain collects for
insertion is added to the dynamic table when the block ends, not when the literal is
met, so the law of sequential processing holds exactly if the first block inserts
nothing.
-/

import AsyncNet.Http.HpackDecode
import AsyncNet.Http.HpackTable

namespace AsyncNet.Http.H2

open Library

/-! ### A pass does not look past its representation -/

theorem decodeIntTail_append (buf more : Bytes) (shift value pos result consumed : Nat)
    (decoded : decodeIntTail buf shift value pos = some (result, consumed)) :
    decodeIntTail (buf ++ more) shift value pos = some (result, consumed) ∧
      consumed ≤ pos + buf.length := by
  induction buf generalizing shift value pos with
  | nil => cases decoded
  | cons byte buf inductionHypothesis =>
    rw [List.cons_append]
    unfold decodeIntTail at decoded ⊢
    split at decoded
    · rename_i continues
      rw [if_pos continues]
      obtain ⟨same, bound⟩ := inductionHypothesis _ _ _ decoded
      exact ⟨same, by rw [List.length_cons]; omega⟩
    · rename_i ends
      rw [if_neg ends]
      cases decoded
      exact ⟨rfl, by rw [List.length_cons]; omega⟩

theorem hpackDecodeInt_append (buf more : Bytes) (prefixBits value consumed : Nat)
    (decoded : hpackDecodeInt buf prefixBits = some (value, consumed)) :
    hpackDecodeInt (buf ++ more) prefixBits = some (value, consumed) ∧ consumed ≤ buf.length := by
  cases buf with
  | nil => cases decoded
  | cons first rest =>
    unfold hpackDecodeInt at decoded ⊢
    dsimp only [List.cons_append] at decoded ⊢
    rw [List.length_cons]
    split at decoded
    · rename_i small
      rw [if_pos small]
      cases decoded
      exact ⟨rfl, by omega⟩
    · rename_i large
      rw [if_neg large]
      obtain ⟨same, bound⟩ := decodeIntTail_append rest more _ _ _ _ _ decoded
      exact ⟨same, by omega⟩

theorem wrapInt32_le (value : Int) (least : -2 ^ 31 ≤ value) : wrapInt32 value ≤ value := by
  unfold wrapInt32
  omega

theorem neg_le_wrapInt32 (value : Int) : -2 ^ 31 ≤ wrapInt32 value := by
  unfold wrapInt32
  omega

theorem getD_append {data : Bytes} (more : Bytes) (nonempty : data ≠ []) :
    (data ++ more).getD 0 0 = data.getD 0 0 := by
  cases data with
  | nil => exact absurd rfl nonempty
  | cons first rest => rfl

/-- The `int` that `decode_string` reports is the low part of the sum that it has checked. -/
theorem wrapInt32_sum_le (start strLen : Nat) :
    wrapInt32 (start + wrapInt32 strLen) ≤ (((start + strLen) % 2 ^ 64 : Nat) : Int) := by
  unfold wrapInt32
  omega

/-- Where the bit loop gives up, more octets change nothing. -/
theorem huffmanDecode_of_stuck (octets more : Bytes)
    (stuck : (octets.flatMap bitsOf).foldlM HuffmanState.step {} = none) :
    ((octets ++ more).flatMap bitsOf).foldlM HuffmanState.step {} = none ∧
      huffmanDecode (octets ++ more) = [] := by
  have loop : ((octets ++ more).flatMap bitsOf).foldlM HuffmanState.step {} = none := by
    rw [List.flatMap_append, List.foldlM_append, stuck]
    rfl
  refine ⟨loop, ?_⟩
  rw [huffmanDecode, loop]

/-- A string that is read does not run past the buffer, and what follows the buffer has no
influence on it. -/
theorem decodeString_append (data more text : Bytes) (consumed : Int)
    (decoded : decodeString data = .ok (text, consumed)) (nonzero : consumed ≠ 0) :
    decodeString (data ++ more) = .ok (text, consumed) ∧ consumed ≤ data.length := by
  unfold decodeString at decoded ⊢
  dsimp only at decoded ⊢
  cases prefixInt : hpackDecodeInt data 7 with
  | none =>
    rw [prefixInt] at decoded
    cases decoded
    exact absurd rfl nonzero
  | some found =>
    obtain ⟨strLen, start⟩ := found
    obtain ⟨same, started⟩ := hpackDecodeInt_append data more 7 strLen start prefixInt
    rw [same, getD_append more (hpackDecodeInt_ne_nil _ _ _ _ prefixInt)]
    rw [prefixInt] at decoded
    dsimp only at decoded ⊢
    have reported := wrapInt32_sum_le start strLen
    split at decoded
    · cases decoded
      exact absurd rfl nonzero
    · rename_i unwrapped
      rw [if_neg (by rw [List.length_append]; omega)]
      split at decoded
      · -- the length wraps, and the Huffman decoder gives up inside the buffer
        rename_i outside
        split at decoded
        · rename_i huffman
          split at decoded
          · rename_i stuck
            cases decoded
            refine ⟨?_, by omega⟩
            rw [if_pos huffman, if_pos huffman, List.drop_append_of_le_length started]
            obtain ⟨loop, _⟩ := huffmanDecode_of_stuck (data.drop start) more stuck
            rw [loop]
            split
            · rfl
            · have beyond : (data.drop start).length ≤ strLen := by
                rw [List.length_drop]
                omega
              rw [List.take_append, List.take_of_length_le beyond,
                (huffmanDecode_of_stuck (data.drop start) _ stuck).2]
          · cases decoded
        · cases decoded
      · rename_i inside
        have octets : ((data ++ more).drop start).take strLen = (data.drop start).take strLen := by
          rw [List.drop_append_of_le_length (by omega),
            List.take_append_of_le_length (by rw [List.length_drop]; omega)]
        rw [if_neg (by rw [List.length_append]; omega), octets]
        refine ⟨decoded, ?_⟩
        cases decoded
        omega

theorem readString_append (rest more text after : Bytes)
    (read : readString rest = .ok (some (text, after))) :
    readString (rest ++ more) = .ok (some (text, after ++ more)) := by
  obtain ⟨⟨decoded, consumed⟩, string, next⟩ := bind_ok read
  dsimp only at next
  split at next
  · cases next
  · rename_i nonzero
    obtain ⟨advanced, advancing, last⟩ := bind_ok next
    cases last
    unfold advance at advancing
    split at advancing
    · cases advancing
    · rename_i nonnegative
      cases advancing
      obtain ⟨same, bound⟩ := decodeString_append rest more _ _ string nonzero
      unfold readString
      rw [same]
      show (if consumed = 0 then Except.ok none
        else advance (rest ++ more) consumed >>= fun after => .ok (some (text, after))) = _
      rw [if_neg nonzero, advance, if_neg nonnegative,
        List.drop_append_of_le_length (by omega)]
      rfl

namespace HpackDecoder

theorem literal_append (decoder : HpackDecoder) (prefixBits : Nat) (rest more after : Bytes)
    (header : Header) (read : decoder.literal prefixBits rest = .ok (some (header, after))) :
    decoder.literal prefixBits (rest ++ more) = .ok (some (header, after ++ more)) := by
  obtain ⟨nameIndex, consumed, named, index, nameRead, valueRead⟩ :=
    literal_inv decoder prefixBits rest after header read
  obtain ⟨sameIndex, bound⟩ := hpackDecodeInt_append rest more _ _ _ index
  refine literal_eq decoder prefixBits nameIndex consumed _ (named ++ more) _ _ _ sameIndex ?_
    (readString_append _ _ _ _ valueRead)
  rw [List.drop_append_of_le_length bound]
  unfold literalName at nameRead ⊢
  split at nameRead
  · rename_i reference
    rw [if_pos reference]
    obtain ⟨entry, resolved, same⟩ := Option.map_eq_some_iff.mp (Except.ok.inj nameRead)
    obtain ⟨sameName, sameRest⟩ := Prod.mk.inj same
    rw [resolved, ← sameName, ← sameRest]
    rfl
  · rename_i spelled
    rw [if_neg spelled]
    exact readString_append _ _ _ _ nameRead

/-- The bytes that follow a representation stay where they are. -/
theorem decodePass_emit_append (decoder : HpackDecoder) (rest more after : Bytes)
    (header : Header) (indexed : Bool) (nonempty : rest ≠ [])
    (pass : decoder.decodePass rest = .ok (.emit header indexed after)) :
    decoder.decodePass (rest ++ more) = .ok (.emit header indexed (after ++ more)) := by
  have head := getD_append more nonempty
  obtain ⟨flag, rfl, index, consumed, decoded, nonzero, resolved, rfl⟩ | ⟨flag, rfl, read⟩ |
    ⟨flag, rfl, read⟩ := decodePass_emit_inv decoder rest after header indexed pass
  · obtain ⟨same, bound⟩ := hpackDecodeInt_append rest more _ _ _ decoded
    rw [decodePass_indexed _ _ (by rw [head]; exact flag), same]
    simp only [if_neg nonzero, resolved, List.drop_append_of_le_length bound]
  · rw [decodePass_incremental _ _ (by rw [head]; exact flag), literal_append _ _ _ _ _ _ read]
    rfl
  · rw [decodePass_plain _ _ (by rw [head]; exact flag), literal_append _ _ _ _ _ _ read]
    rfl

theorem decodePass_resize_append (decoder : HpackDecoder) (rest more after : Bytes)
    (newSize : Nat) (nonempty : rest ≠ [])
    (pass : decoder.decodePass rest = .ok (.resize newSize after)) :
    decoder.decodePass (rest ++ more) = .ok (.resize newSize (after ++ more)) := by
  obtain ⟨flag, consumed, decoded, rfl⟩ := decodePass_resize_inv decoder rest after newSize pass
  obtain ⟨same, bound⟩ := hpackDecodeInt_append rest more _ _ _ decoded
  rw [decodePass_sizeUpdate _ _ (by rw [getD_append more nonempty]; exact flag), same]
  simp only [List.drop_append_of_le_length bound]

/-! ### Blocks that are read to their end -/

/-- A block that is read to its end: the headers it emits, the entries it collects for insertion
and the decoder before they are inserted. -/
inductive Reads : HpackDecoder → Bytes → Headers → Headers → HpackDecoder → Prop
  | done (decoder : HpackDecoder) : Reads decoder [] [] [] decoder
  | emit {decoder reached : HpackDecoder} {rest after : Bytes} {headers entries : Headers}
      {header : Header} {indexed : Bool} (nonempty : rest ≠ [])
      (pass : decoder.decodePass rest = .ok (.emit header indexed after))
      (next : Reads decoder after headers entries reached) :
      Reads decoder rest (header :: headers) (if indexed then header :: entries else entries)
        reached
  | resize {decoder reached : HpackDecoder} {rest after : Bytes} {headers entries : Headers}
      {newSize : Nat} (nonempty : rest ≠ [])
      (pass : decoder.decodePass rest = .ok (.resize newSize after))
      (next : Reads { decoder with dynamicTable := decoder.dynamicTable.resize newSize } after
        headers entries reached) :
      Reads decoder rest headers entries reached

theorem Reads.append {decoder reached last : HpackDecoder} {block more : Bytes}
    {headers laterHeaders entries laterEntries : Headers}
    (first : Reads decoder block headers entries reached)
    (second : Reads reached more laterHeaders laterEntries last) :
    Reads decoder (block ++ more) (headers ++ laterHeaders) (entries ++ laterEntries) last := by
  induction first with
  | done decoder => exact second
  | @emit decoder reached rest after headers entries header indexed nonempty pass next
      inductionHypothesis =>
    have longer := Reads.emit (List.append_ne_nil_of_left_ne_nil nonempty more)
      (decodePass_emit_append decoder rest more after header indexed nonempty pass)
      (inductionHypothesis second)
    cases indexed <;> exact longer
  | resize nonempty pass next inductionHypothesis =>
    exact Reads.resize (List.append_ne_nil_of_left_ne_nil nonempty more)
      (decodePass_resize_append _ _ more _ _ nonempty pass) (inductionHypothesis second)

theorem Reads.decodeFrom_eq {decoder reached : HpackDecoder} {rest : Bytes}
    {headers entries : Headers} (reads : Reads decoder rest headers entries reached)
    (result newEntries : Headers) :
    decoder.decodeFrom rest result newEntries =
      .ok (some (result ++ headers), reached.insertAll (newEntries ++ entries)) := by
  induction reads generalizing result newEntries with
  | done decoder => rw [decodeFrom_nil, List.append_nil, List.append_nil]
  | @emit decoder reached rest after headers entries header indexed nonempty pass next
      inductionHypothesis =>
    rw [decodeFrom_emit _ _ _ _ _ _ _ nonempty pass, inductionHypothesis, List.append_assoc]
    cases indexed with
    | false => rfl
    | true =>
      rw [if_pos rfl, if_pos rfl, List.append_assoc]
      rfl
  | resize nonempty pass next inductionHypothesis =>
    rw [decodeFrom_resize _ _ _ _ _ _ nonempty pass, inductionHypothesis]

/-- A block that is accepted was read to its end. -/
theorem exists_reads (decoder final : HpackDecoder) (rest : Bytes)
    (result newEntries all : Headers)
    (accepted : decoder.decodeFrom rest result newEntries = .ok (some all, final)) :
    ∃ headers entries reached, Reads decoder rest headers entries reached ∧
      all = result ++ headers ∧ final = reached.insertAll (newEntries ++ entries) := by
  induction decoder, rest using passes_induction generalizing result newEntries with
  | step decoder rest emits resizes =>
  by_cases empty : rest = []
  · subst empty
    cases accepted
    exact ⟨[], [], decoder, .done decoder, by rw [List.append_nil], by rw [List.append_nil]; rfl⟩
  · cases pass : decoder.decodePass rest with
    | error fault =>
      rw [decodeFrom_pass _ _ _ _ empty, pass] at accepted
      cases accepted
    | ok made =>
      cases made with
      | reject =>
        rw [decodeFrom_pass _ _ _ _ empty, pass] at accepted
        cases accepted
      | emit header indexed after =>
        rw [decodeFrom_emit _ _ _ _ _ _ _ empty pass] at accepted
        obtain ⟨headers, entries, reached, reads, rfl, rfl⟩ :=
          emits header indexed after empty pass _ _ accepted
        refine ⟨_, _, reached, .emit empty pass reads, by rw [List.append_assoc]; rfl, ?_⟩
        cases indexed with
        | false => rfl
        | true =>
          rw [if_pos rfl, if_pos rfl, List.append_assoc]
          rfl
      | resize newSize after =>
        rw [decodeFrom_resize _ _ _ _ _ _ empty pass] at accepted
        obtain ⟨headers, entries, reached, reads, rfl, rfl⟩ :=
          resizes newSize after empty pass _ _ accepted
        exact ⟨headers, entries, reached, .resize empty pass reads, rfl, rfl⟩

theorem decodeBlock_eq_some_iff (decoder final : HpackDecoder) (block : Bytes)
    (headers : Headers) :
    decoder.decodeBlock block = .ok (some headers, final) ↔
      ∃ entries reached, Reads decoder block headers entries reached ∧
        final = reached.insertAll entries := by
  constructor
  · intro accepted
    obtain ⟨headers, entries, reached, reads, rfl, rfl⟩ :=
      exists_reads decoder final block [] [] _ accepted
    exact ⟨entries, reached, reads, rfl⟩
  · rintro ⟨entries, reached, reads, rfl⟩
    exact reads.decodeFrom_eq [] []

end HpackDecoder

/-! ### The representations of a block -/

/-- The kinds of representation, told apart by their first bits. -/
inductive Representation where
  | indexed | incremental | sizeUpdate | plain
  deriving DecidableEq, Repr

/-- The representation that starts with a byte. -/
def Representation.ofByte (byte : UInt8) : Representation :=
  if byte &&& 0x80 ≠ 0 then .indexed
  else if byte &&& 0x40 ≠ 0 then .incremental
  else if byte &&& 0x20 ≠ 0 then .sizeUpdate
  else .plain

/-- What follows a string. -/
def skipString (rest : Bytes) : Option Bytes :=
  match readString rest with
  | .ok (some (_, after)) => some after
  | _ => none

/-- What follows a literal, whose name is spelled out if its index is 0. -/
def skipLiteral (prefixBits : Nat) (rest : Bytes) : Option Bytes :=
  match hpackDecodeInt rest prefixBits with
  | none => none
  | some (nameIndex, consumed) =>
      if 0 < nameIndex then skipString (rest.drop consumed)
      else (skipString (rest.drop consumed)).bind skipString

/-- What follows a representation. No table is needed to find its end. -/
def skipRepresentation (rest : Bytes) : Option Bytes :=
  match Representation.ofByte (rest.getD 0 0) with
  | .indexed => (hpackDecodeInt rest 7).map fun found => rest.drop found.2
  | .incremental => skipLiteral 6 rest
  | .sizeUpdate => (hpackDecodeInt rest 5).map fun found => rest.drop found.2
  | .plain => skipLiteral 4 rest

/-- The representations of a block up to a number of them. -/
def representationsUpTo : Nat → Bytes → List Representation
  | 0, _ => []
  | count + 1, rest =>
      if rest = [] then []
      else Representation.ofByte (rest.getD 0 0) ::
        match skipRepresentation rest with
        | none => []
        | some after => representationsUpTo count after

/-- The representations a block consists of. Each takes at least a byte. -/
def representations (block : Bytes) : List Representation :=
  representationsUpTo block.length block

theorem ofByte_indexed (byte : UInt8) (flag : byte &&& 0x80 ≠ 0) :
    Representation.ofByte byte = .indexed := if_pos flag

theorem ofByte_incremental (byte : UInt8) (flag : byte &&& 0xC0 = 0x40) :
    Representation.ofByte byte = .incremental := by
  revert byte
  exact forall_byte (by decide +kernel)

theorem ofByte_sizeUpdate (byte : UInt8) (flag : byte &&& 0xE0 = 0x20) :
    Representation.ofByte byte = .sizeUpdate := by
  revert byte
  exact forall_byte (by decide +kernel)

theorem ofByte_plain (byte : UInt8) (flag : byte &&& 0xE0 = 0) :
    Representation.ofByte byte = .plain := by
  revert byte
  exact forall_byte (by decide +kernel)

theorem skipString_eq {rest text after : Bytes}
    (read : readString rest = .ok (some (text, after))) : skipString rest = some after := by
  rw [skipString, read]

namespace HpackDecoder

theorem skipLiteral_eq (decoder : HpackDecoder) (prefixBits : Nat) (rest after : Bytes)
    (header : Header) (read : decoder.literal prefixBits rest = .ok (some (header, after))) :
    skipLiteral prefixBits rest = some after := by
  obtain ⟨nameIndex, consumed, named, index, nameRead, valueRead⟩ :=
    literal_inv decoder prefixBits rest after header read
  rw [skipLiteral, index]
  dsimp only
  unfold literalName at nameRead
  split at nameRead
  · rename_i reference
    obtain ⟨entry, _, same⟩ := Option.map_eq_some_iff.mp (Except.ok.inj nameRead)
    rw [if_pos reference, (Prod.mk.inj same).2]
    exact skipString_eq valueRead
  · rename_i spelled
    rw [if_neg spelled, skipString_eq nameRead]
    exact skipString_eq valueRead

/-- A pass that emits a header steps over one representation, and the header is due for insertion
if that is a literal with incremental indexing. -/
theorem skipRepresentation_emit (decoder : HpackDecoder) (rest after : Bytes) (header : Header)
    (indexed : Bool) (pass : decoder.decodePass rest = .ok (.emit header indexed after)) :
    skipRepresentation rest = some after ∧
      (indexed = true ↔ Representation.ofByte (rest.getD 0 0) = .incremental) := by
  unfold skipRepresentation
  obtain ⟨flag, rfl, index, consumed, decoded, _, _, rfl⟩ | ⟨flag, rfl, read⟩ |
    ⟨flag, rfl, read⟩ := decodePass_emit_inv decoder rest after header indexed pass
  · rw [ofByte_indexed _ flag, decoded]
    exact ⟨rfl, by decide⟩
  · rw [ofByte_incremental _ flag]
    exact ⟨skipLiteral_eq decoder 6 rest after header read, by decide⟩
  · rw [ofByte_plain _ flag]
    exact ⟨skipLiteral_eq decoder 4 rest after header read, by decide⟩

theorem skipRepresentation_resize (decoder : HpackDecoder) (rest after : Bytes) (newSize : Nat)
    (pass : decoder.decodePass rest = .ok (.resize newSize after)) :
    skipRepresentation rest = some after ∧
      Representation.ofByte (rest.getD 0 0) = .sizeUpdate := by
  obtain ⟨flag, consumed, decoded, rfl⟩ := decodePass_resize_inv decoder rest after newSize pass
  unfold skipRepresentation
  rw [ofByte_sizeUpdate _ flag, decoded]
  exact ⟨rfl, rfl⟩

/-- A block collects entries for insertion exactly if it has a literal with incremental
indexing. -/
theorem Reads.entries_eq_nil_iff {decoder reached : HpackDecoder} {block : Bytes}
    {headers entries : Headers} (reads : Reads decoder block headers entries reached)
    (count : Nat) (enough : block.length ≤ count) :
    entries = [] ↔ .incremental ∉ representationsUpTo count block := by
  induction reads generalizing count with
  | done decoder => cases count <;> simp [representationsUpTo]
  | @emit decoder reached rest after headers entries header indexed nonempty pass next
      inductionHypothesis =>
    obtain ⟨taken, pos, shorter⟩ := decodePass_emit_drop _ _ _ _ _ pass
    obtain ⟨skipped, kind⟩ := skipRepresentation_emit _ _ _ _ _ pass
    have length := congrArg List.length shorter
    have positive := List.length_pos_of_ne_nil nonempty
    rw [List.length_drop] at length
    obtain ⟨count, rfl⟩ := Nat.exists_eq_succ_of_ne_zero (by omega : count ≠ 0)
    have later := inductionHypothesis count (by omega)
    rw [representationsUpTo, if_neg nonempty, skipped, List.mem_cons, not_or, ← later, ← ne_eq,
      ne_comm, ne_eq, ← kind]
    cases indexed <;> simp
  | @resize decoder reached rest after headers entries newSize nonempty pass next
      inductionHypothesis =>
    obtain ⟨_, consumed, decoded, shorter⟩ := decodePass_resize_inv _ _ _ _ pass
    obtain ⟨skipped, kind⟩ := skipRepresentation_resize _ _ _ _ pass
    have pos := hpackDecodeInt_pos _ _ _ _ decoded
    have length := congrArg List.length shorter
    have positive := List.length_pos_of_ne_nil nonempty
    rw [List.length_drop] at length
    obtain ⟨count, rfl⟩ := Nat.exists_eq_succ_of_ne_zero (by omega : count ≠ 0)
    have later := inductionHypothesis count (by omega)
    rw [representationsUpTo, if_neg nonempty, skipped, List.mem_cons, not_or, ← later, kind]
    simp

/-! ### Two blocks and their join -/

/-- The law of sequential processing for a first block: whatever valid block follows it, the join
is decoded into the two lists of headers, one after the other, and leaves the same decoder. -/
def SequentialAfter (decoder : HpackDecoder) (block : Bytes) : Prop :=
  ∀ headers next, decoder.decodeBlock block = .ok (some headers, next) →
    ∀ more laterHeaders last, next.decodeBlock more = .ok (some laterHeaders, last) →
      decoder.decodeBlock (block ++ more) = .ok (some (headers ++ laterHeaders), last)

/-- A size update to nothing and one to all there is: it forgets what was inserted before. -/
def forgetful : Bytes := hpackEncodeInt 16 0 5 0x20 ++ hpackEncodeInt 16 (2 ^ 64 - 1) 5 0x20

theorem reads_forgetful (decoder : HpackDecoder) :
    Reads decoder forgetful [] []
      { decoder with dynamicTable := (decoder.dynamicTable.resize 0).resize (2 ^ 64 - 1) } := by
  have toZero : decoder.decodePass forgetful =
      .ok (.resize 0 (hpackEncodeInt 16 (2 ^ 64 - 1) 5 0x20)) := rfl
  have toAll (decoder : HpackDecoder) :
      decoder.decodePass (hpackEncodeInt 16 (2 ^ 64 - 1) 5 0x20) =
        .ok (.resize (2 ^ 64 - 1) []) := rfl
  exact .resize (by decide) toZero (.resize (by decide) (toAll _) (.done _))

theorem Reads.mem_headers {decoder reached : HpackDecoder} {block : Bytes}
    {headers entries : Headers} (reads : Reads decoder block headers entries reached)
    (entry : Header) (member : entry ∈ entries) : entry ∈ headers := by
  induction reads with
  | done decoder => cases member
  | @emit decoder reached rest after headers entries header indexed nonempty pass next
      inductionHypothesis =>
    cases indexed with
    | false => exact List.mem_cons_of_mem _ (inductionHypothesis member)
    | true =>
      rcases List.mem_cons.mp member with rfl | later
      · exact List.mem_cons_self
      · exact List.mem_cons_of_mem _ (inductionHypothesis later)
  | resize nonempty pass next inductionHypothesis => exact inductionHypothesis member

/-- Insertions that can fit do not leave the table empty. -/
theorem foldl_add_ne_nil (entries : Headers) (table : HpackDynamicTable) (some' : entries ≠ [])
    (fit : ∀ entry ∈ entries, entrySize entry ≤ table.maxSize) :
    (entries.foldl HpackDynamicTable.add table).entries ≠ [] := by
  obtain ⟨earlier, last, rfl⟩ := List.eq_nil_or_concat entries |>.resolve_left some'
  rw [List.concat_eq_append, List.foldl_append]
  set before := earlier.foldl HpackDynamicTable.add table with definition
  have bound : before.maxSize = table.maxSize := HpackDynamicTable.foldl_add_maxSize earlier table
  have lastFits : entrySize last ≤ before.maxSize := by
    rw [bound]
    exact fit last (by simp)
  obtain ⟨kept, _, inserted⟩ := before.add_entries_of_le last lastFits
  show (before.add last).entries ≠ []
  rw [inserted]
  exact List.cons_ne_nil last kept

/-- The law of sequential processing holds for a valid first block exactly if the block has no
literal with incremental indexing. -/
theorem sequentialAfter_iff (decoder next : HpackDecoder) (block : Bytes) (headers : Headers)
    (accepted : decoder.decodeBlock block = .ok (some headers, next))
    (sizes : ∀ header ∈ headers, entrySize header < 2 ^ 64) :
    SequentialAfter decoder block ↔ .incremental ∉ representations block := by
  obtain ⟨entries, reached, reads, rfl⟩ :=
    (decodeBlock_eq_some_iff decoder next block headers).mp accepted
  rw [representations, ← reads.entries_eq_nil_iff block.length le_rfl]
  constructor
  · intro law
    by_contra collects
    have apart := law headers _ accepted forgetful [] _ ((reads_forgetful _).decodeFrom_eq [] [])
    have joined := (reads.append (reads_forgetful reached)).decodeFrom_eq [] []
    rw [decodeBlock_eq, joined] at apart
    have tables := congrArg (fun outcome => outcome.map fun found => found.2.dynamicTable.entries)
      apart
    have apartEmpty : (((reached.insertAll entries).dynamicTable.resize 0).resize
        (2 ^ 64 - 1)).entries = [] := by
      refine List.prefix_nil.mp ?_
      rw [← HpackDynamicTable.resize_zero_entries (reached.insertAll entries).dynamicTable]
      exact HpackDynamicTable.resize_entries _ _
    refine foldl_add_ne_nil entries ((reached.dynamicTable.resize 0).resize (2 ^ 64 - 1)) collects
      (fun entry member => ?_) ?_
    · have small := sizes entry (reads.mem_headers entry member)
      rw [HpackDynamicTable.resize_maxSize]
      omega
    · have same := Except.ok.inj tables
      rw [← apartEmpty]
      simpa [insertAll] using same
  · rintro rfl headers' next' accepted' more laterHeaders last later
    rw [accepted] at accepted'
    cases accepted'
    obtain ⟨laterEntries, laterReached, laterReads, rfl⟩ :=
      (decodeBlock_eq_some_iff _ last more laterHeaders).mp later
    exact (decodeBlock_eq_some_iff _ _ _ _).mpr
      ⟨laterEntries, laterReached, reads.append laterReads, rfl⟩

/-- A block of indexed fields and a plain literal, and whatever follows it. -/
theorem sequentialAfter_plain :
    SequentialAfter {} [0x82, 0x84, 0x00, 0x01, 0x62, 0x01, 0x31] :=
  (sequentialAfter_iff {} {} [0x82, 0x84, 0x00, 0x01, 0x62, 0x01, 0x31]
    [(ascii ":method", ascii "GET"), (ascii ":path", ascii "/"), (ascii "b", ascii "1")]
    (by decide +kernel) (by decide)).mpr (by decide)

/-- With `a: 0` in the table, the literal `b: 1` and then the index 63: in two blocks the index
means `b: 1`, in one it means `a: 0`. -/
theorem not_sequentialAfter_incremental :
    ¬ SequentialAfter
      { dynamicTable := HpackDynamicTable.add { maxSize := 4096 } (ascii "a", ascii "0") }
      [0x40, 0x01, 0x62, 0x01, 0x31] := by
  set decoder : HpackDecoder :=
    { dynamicTable := HpackDynamicTable.add { maxSize := 4096 } (ascii "a", ascii "0") }
  have apart : ∃ next, decoder.decodeBlock [0x40, 0x01, 0x62, 0x01, 0x31] =
      .ok (some [(ascii "b", ascii "1")], next) ∧
      next.decodeBlock [0xBF] = .ok (some [(ascii "b", ascii "1")], next) :=
    ⟨{ dynamicTable := decoder.dynamicTable.add (ascii "b", ascii "1") }, by decide +kernel,
      by decide +kernel⟩
  have joined : (decoder.decodeBlock [0x40, 0x01, 0x62, 0x01, 0x31, 0xBF]).map Prod.fst =
      .ok (some [(ascii "b", ascii "1"), (ascii "a", ascii "0")]) := by decide +kernel
  obtain ⟨next, first, second⟩ := apart
  intro law
  rw [show [0x40, 0x01, 0x62, 0x01, 0x31, 0xBF] = ([0x40, 0x01, 0x62, 0x01, 0x31] : Bytes) ++ [0xBF]
    from rfl, law _ _ first _ _ _ second] at joined
  exact absurd (Option.some.inj (Except.ok.inj joined)) (by decide)

end HpackDecoder

end AsyncNet.Http.H2
