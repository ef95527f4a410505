/-
This file collects what the other HPACK files use of the decoder: one equation per
representation for a pass of its loop, the fact that a pass always takes bytes off
the front of the block, and from it the loop as a recursion on the bytes that are
left, without the bound on its passes.
-/

import AsyncNet.Http.Hpack
import AsyncNet.Library.Runs

namespace AsyncNet.Http.H2

open Library

/-- What holds of the 256 values of a byte holds of every byte. -/
theorem forall_byte {property : UInt8 → Prop}
    (check : ∀ value < 256, property (UInt8.ofNat value)) (byte : UInt8) : property byte := by
  rw [← UInt8.ofNat_toNat (x := byte)]
  exact check byte.toNat byte.toNat_lt

theorem hpackStaticTable_length : hpackStaticTable.length = 62 := by decide

/-! ### Every pass takes bytes off the front -/

theorem decodeIntTail_pos (buf : Bytes) (shift value pos result consumed : Nat)
    (decoded : decodeIntTail buf shift value pos = some (result, consumed)) : pos < consumed := by
  induction buf generalizing shift value pos with
  | nil => cases decoded
  | cons byte buf inductionHypothesis =>
    unfold decodeIntTail at decoded
    split at decoded
    · exact lt_trans (Nat.lt_succ_self pos) (inductionHypothesis _ _ _ decoded)
    · cases decoded
      exact Nat.lt_succ_self pos

theorem hpackDecodeInt_pos (buf : Bytes) (prefixBits value consumed : Nat)
    (decoded : hpackDecodeInt buf prefixBits = some (value, consumed)) : 0 < consumed := by
  unfold hpackDecodeInt at decoded
  cases buf with
  | nil => cases decoded
  | cons first rest =>
    dsimp only at decoded
    split at decoded
    · cases decoded
      exact Nat.one_pos
    · exact Nat.lt_of_succ_lt (decodeIntTail_pos _ _ _ _ _ _ decoded)

theorem hpackDecodeInt_ne_nil (buf : Bytes) (prefixBits value consumed : Nat)
    (decoded : hpackDecodeInt buf prefixBits = some (value, consumed)) : buf ≠ [] := by
  rintro rfl
  cases decoded

theorem readString_drop (rest text after : Bytes)
    (read : readString rest = .ok (some (text, after))) :
    ∃ count, 0 < count ∧ after = rest.drop count := by
  obtain ⟨⟨decoded, consumed⟩, _, next⟩ := bind_ok read
  simp only at next
  split at next
  · cases next
  · rename_i nonzero
    obtain ⟨advanced, advancing, last⟩ := bind_ok next
    cases last
    unfold advance at advancing
    split at advancing
    · cases advancing
    · cases advancing
      exact ⟨consumed.toNat, by omega, rfl⟩

namespace HpackDecoder

theorem literalName_drop (decoder : HpackDecoder) (nameIndex : Nat) (rest name after : Bytes)
    (read : decoder.literalName nameIndex rest = .ok (some (name, after))) :
    ∃ count, after = rest.drop count := by
  unfold literalName at read
  split at read
  · obtain ⟨entry, _, same⟩ := Option.map_eq_some_iff.mp (Except.ok.inj read)
    cases same
    exact ⟨0, rfl⟩
  · obtain ⟨count, _, same⟩ := readString_drop rest name after read
    exact ⟨count, same⟩

/-- A literal is read when its index, its name and its value are. -/
theorem literal_eq (decoder : HpackDecoder) (prefixBits nameIndex consumed : Nat)
    (rest named last name value : Bytes)
    (index : hpackDecodeInt rest prefixBits = some (nameIndex, consumed))
    (nameRead : decoder.literalName nameIndex (rest.drop consumed) = .ok (some (name, named)))
    (valueRead : readString named = .ok (some (value, last))) :
    decoder.literal prefixBits rest = .ok (some ((name, value), last)) := by
  rw [literal, index]
  show (decoder.literalName nameIndex (rest.drop consumed) >>= _) = _
  rw [nameRead]
  show (readString named >>= _) = _
  rw [valueRead]
  rfl

/-- A literal that is read has an index, a name and a value. -/
theorem literal_inv (decoder : HpackDecoder) (prefixBits : Nat) (rest last : Bytes)
    (header : Header) (read : decoder.literal prefixBits rest = .ok (some (header, last))) :
    ∃ nameIndex consumed named, hpackDecodeInt rest prefixBits = some (nameIndex, consumed) ∧
      decoder.literalName nameIndex (rest.drop consumed) = .ok (some (header.1, named)) ∧
      readString named = .ok (some (header.2, last)) := by
  unfold literal at read
  split at read
  · cases read
  · rename_i nameIndex consumed index
    obtain ⟨nameRead, nameEq, read⟩ := bind_ok read
    cases nameRead with
    | none => cases read
    | some nameRead =>
      obtain ⟨valueRead, valueEq, read⟩ := bind_ok read
      cases valueRead with
      | none => cases read
      | some valueRead =>
        cases read
        exact ⟨nameIndex, consumed, nameRead.2, index, nameEq, valueEq⟩

theorem literal_drop (decoder : HpackDecoder) (prefixBits : Nat) (rest last : Bytes)
    (header : Header) (read : decoder.literal prefixBits rest = .ok (some (header, last))) :
    ∃ count, 0 < count ∧ last = rest.drop count := by
  obtain ⟨nameIndex, consumed, named, index, nameRead, valueRead⟩ :=
    literal_inv decoder prefixBits rest last header read
  obtain ⟨nameCount, rfl⟩ := literalName_drop decoder nameIndex _ _ _ nameRead
  obtain ⟨valueCount, _, rfl⟩ := readString_drop _ _ _ valueRead
  have positive := hpackDecodeInt_pos _ _ _ _ index
  exact ⟨consumed + nameCount + valueCount, by omega,
    by rw [List.drop_drop, List.drop_drop, Nat.add_assoc]⟩

/-! ### A pass of the loop, by representation -/

theorem decodePass_indexed (decoder : HpackDecoder) (rest : Bytes)
    (flag : rest.getD 0 0 &&& 0x80 ≠ 0) :
    decoder.decodePass rest =
      match hpackDecodeInt rest 7 with
      | none => .ok .reject
      | some (index, consumed) =>
          if index = 0 then .ok .reject
          else
            match decoder.getIndexed index with
            | none => .ok .reject
            | some header => .ok (.emit header false (rest.drop consumed)) := by
  rewrite [decodePass, if_pos flag]
  rfl

theorem decodePass_incremental (decoder : HpackDecoder) (rest : Bytes)
    (flag : rest.getD 0 0 &&& 0xC0 = 0x40) :
    decoder.decodePass rest = (decoder.literal 6 rest).map (.ofLiteral true) := by
  have bits : ∀ byte : UInt8, byte &&& 0xC0 = 0x40 → byte &&& 0x80 = 0 ∧ byte &&& 0x40 ≠ 0 :=
    forall_byte (by decide +kernel)
  obtain ⟨high, low⟩ := bits _ flag
  rw [decodePass, if_neg (not_not.mpr high), if_pos low]

theorem decodePass_sizeUpdate (decoder : HpackDecoder) (rest : Bytes)
    (flag : rest.getD 0 0 &&& 0xE0 = 0x20) :
    decoder.decodePass rest =
      match hpackDecodeInt rest 5 with
      | none => .ok .reject
      | some (newSize, consumed) => .ok (.resize newSize (rest.drop consumed)) := by
  have bits : ∀ byte : UInt8, byte &&& 0xE0 = 0x20 →
      byte &&& 0x80 = 0 ∧ byte &&& 0x40 = 0 ∧ byte &&& 0x20 ≠ 0 :=
    forall_byte (by decide +kernel)
  obtain ⟨high, middle, low⟩ := bits _ flag
  rewrite [decodePass, if_neg (not_not.mpr high), if_neg (not_not.mpr middle), if_pos low]
  rfl

theorem decodePass_plain (decoder : HpackDecoder) (rest : Bytes)
    (flag : rest.getD 0 0 &&& 0xE0 = 0) :
    decoder.decodePass rest = (decoder.literal 4 rest).map (.ofLiteral false) := by
  have bits : ∀ byte : UInt8, byte &&& 0xE0 = 0 →
      byte &&& 0x80 = 0 ∧ byte &&& 0x40 = 0 ∧ byte &&& 0x20 = 0 :=
    forall_byte (by decide +kernel)
  obtain ⟨high, middle, low⟩ := bits _ flag
  rw [decodePass, if_neg (not_not.mpr high), if_neg (not_not.mpr middle),
    if_neg (not_not.mpr low)]

/-- The four kinds of representation, told apart by the first byte. -/
theorem representation_cases (rest : Bytes) :
    rest.getD 0 0 &&& 0x80 ≠ 0 ∨ rest.getD 0 0 &&& 0xC0 = 0x40 ∨
      rest.getD 0 0 &&& 0xE0 = 0x20 ∨ rest.getD 0 0 &&& 0xE0 = 0 := by
  have bits : ∀ byte : UInt8, byte &&& 0x80 ≠ 0 ∨ byte &&& 0xC0 = 0x40 ∨
      byte &&& 0xE0 = 0x20 ∨ byte &&& 0xE0 = 0 := forall_byte (by decide +kernel)
  exact bits _

theorem map_ofLiteral_emit {read : Except Fault (Option (Header × Bytes))} {due indexed : Bool}
    {header : Header} {after : Bytes}
    (pass : read.map (DecodePass.ofLiteral due) = .ok (.emit header indexed after)) :
    indexed = due ∧ read = .ok (some (header, after)) := by
  obtain fault | (_ | found) := read
  · cases pass
  · cases pass
  · cases pass
    exact ⟨rfl, rfl⟩

theorem map_ofLiteral_resize {read : Except Fault (Option (Header × Bytes))} {due : Bool}
    {newSize : Nat} {after : Bytes} :
    read.map (DecodePass.ofLiteral due) ≠ .ok (.resize newSize after) := by
  intro pass
  obtain fault | (_ | found) := read <;> cases pass

/-- A pass that emits a header has read an index or a literal. -/
theorem decodePass_emit_inv (decoder : HpackDecoder) (rest after : Bytes) (header : Header)
    (indexed : Bool) (pass : decoder.decodePass rest = .ok (.emit header indexed after)) :
    (rest.getD 0 0 &&& 0x80 ≠ 0 ∧ indexed = false ∧ ∃ index consumed,
      hpackDecodeInt rest 7 = some (index, consumed) ∧ index ≠ 0 ∧
      decoder.getIndexed index = some header ∧ after = rest.drop consumed) ∨
    (rest.getD 0 0 &&& 0xC0 = 0x40 ∧ indexed = true ∧
      decoder.literal 6 rest = .ok (some (header, after))) ∨
    (rest.getD 0 0 &&& 0xE0 = 0 ∧ indexed = false ∧
      decoder.literal 4 rest = .ok (some (header, after))) := by
  obtain flag | flag | flag | flag := representation_cases rest
  · rw [decodePass_indexed decoder rest flag] at pass
    split at pass
    · cases pass
    · rename_i index consumed decoded
      split at pass
      · cases pass
      · rename_i nonzero
        split at pass
        · cases pass
        · rename_i found resolved
          cases pass
          exact Or.inl ⟨flag, rfl, index, consumed, decoded, nonzero, resolved, rfl⟩
  · rw [decodePass_incremental decoder rest flag] at pass
    obtain ⟨due, read⟩ := map_ofLiteral_emit pass
    exact Or.inr (Or.inl ⟨flag, due, read⟩)
  · rw [decodePass_sizeUpdate decoder rest flag] at pass
    split at pass <;> cases pass
  · rw [decodePass_plain decoder rest flag] at pass
    obtain ⟨due, read⟩ := map_ofLiteral_emit pass
    exact Or.inr (Or.inr ⟨flag, due, read⟩)

theorem decodePass_emit_drop (decoder : HpackDecoder) (rest after : Bytes) (header : Header)
    (indexed : Bool) (pass : decoder.decodePass rest = .ok (.emit header indexed after)) :
    ∃ count, 0 < count ∧ after = rest.drop count := by
  obtain ⟨_, _, index, consumed, decoded, _, _, rfl⟩ | ⟨_, _, read⟩ | ⟨_, _, read⟩ :=
    decodePass_emit_inv decoder rest after header indexed pass
  · exact ⟨consumed, hpackDecodeInt_pos _ _ _ _ decoded, rfl⟩
  · exact literal_drop decoder 6 rest after header read
  · exact literal_drop decoder 4 rest after header read

/-- A pass that resizes the table has read a size update. -/
theorem decodePass_resize_inv (decoder : HpackDecoder) (rest after : Bytes) (newSize : Nat)
    (pass : decoder.decodePass rest = .ok (.resize newSize after)) :
    rest.getD 0 0 &&& 0xE0 = 0x20 ∧
      ∃ consumed, hpackDecodeInt rest 5 = some (newSize, consumed) ∧
        after = rest.drop consumed := by
  obtain flag | flag | flag | flag := representation_cases rest
  · rw [decodePass_indexed decoder rest flag] at pass
    split at pass
    · cases pass
    · split at pass
      · cases pass
      · split at pass <;> cases pass
  · rw [decodePass_incremental decoder rest flag] at pass
    exact absurd pass map_ofLiteral_resize
  · rw [decodePass_sizeUpdate decoder rest flag] at pass
    split at pass
    · cases pass
    · rename_i size consumed decoded
      cases pass
      exact ⟨flag, consumed, decoded, rfl⟩
  · rw [decodePass_plain decoder rest flag] at pass
    exact absurd pass map_ofLiteral_resize

/-! ### The loop without its bound -/

/-- The loop with as many passes as there are bytes. -/
def decodeFrom (decoder : HpackDecoder) (rest : Bytes) (result newEntries : Headers) :
    Except Fault (Option Headers × HpackDecoder) :=
  decodeLoop rest.length decoder rest result newEntries

/-- The dynamic table once the entries collected for insertion are added. -/
def insertAll (decoder : HpackDecoder) (newEntries : Headers) : HpackDecoder :=
  { decoder with dynamicTable := newEntries.foldl HpackDynamicTable.add decoder.dynamicTable }

/-- More passes than there are bytes change nothing. -/
theorem decodeLoop_eq_decodeFrom (passes : Nat) (decoder : HpackDecoder) (rest : Bytes)
    (result newEntries : Headers) (enough : rest.length ≤ passes) :
    decodeLoop passes decoder rest result newEntries =
      decodeFrom decoder rest result newEntries := by
  have shorter (count : Nat) (pos : 0 < count) (rest : Bytes) (nonempty : rest ≠ []) :
      (rest.drop count).length < rest.length := by
    have := List.length_pos_of_ne_nil nonempty
    rw [List.length_drop]
    omega
  have agree (bound : Nat) : ∀ (few many : Nat) (decoder : HpackDecoder) (rest : Bytes)
      (result newEntries : Headers), rest.length ≤ bound → rest.length ≤ few →
      rest.length ≤ many → decodeLoop few decoder rest result newEntries =
        decodeLoop many decoder rest result newEntries := by
    induction bound with
    | zero =>
      intro few many decoder rest result newEntries small _ _
      obtain rfl := List.length_eq_zero_iff.mp (Nat.le_zero.mp small)
      cases few <;> cases many <;> rfl
    | succ bound inductionHypothesis =>
      intro few many decoder rest result newEntries small fewEnough manyEnough
      by_cases empty : rest = []
      · subst empty
        cases few <;> cases many <;> rfl
      · have positive := List.length_pos_of_ne_nil empty
        obtain ⟨few, rfl⟩ := Nat.exists_eq_succ_of_ne_zero (by omega : few ≠ 0)
        obtain ⟨many, rfl⟩ := Nat.exists_eq_succ_of_ne_zero (by omega : many ≠ 0)
        rw [decodeLoop, decodeLoop, if_neg empty, if_neg empty]
        cases pass : decoder.decodePass rest with
        | error fault => rfl
        | ok pass' =>
          cases pass' with
          | reject => rfl
          | emit header indexed after =>
            obtain ⟨count, pos, rfl⟩ := decodePass_emit_drop decoder rest after header indexed pass
            have less := shorter count pos rest empty
            exact inductionHypothesis few many _ _ _ _ (by omega) (by omega) (by omega)
          | resize newSize after =>
            obtain ⟨_, consumed, decoded, rfl⟩ :=
              decodePass_resize_inv decoder rest after newSize pass
            have less := shorter consumed (hpackDecodeInt_pos _ _ _ _ decoded) rest empty
            exact inductionHypothesis few many _ _ _ _ (by omega) (by omega) (by omega)
  exact agree rest.length _ _ _ _ _ _ le_rfl enough le_rfl

theorem decodeBlock_eq (decoder : HpackDecoder) (data : Bytes) :
    decoder.decodeBlock data = decodeFrom decoder data [] [] := rfl

@[simp] theorem decodeFrom_nil (decoder : HpackDecoder) (result newEntries : Headers) :
    decodeFrom decoder [] result newEntries =
      .ok (some result, decoder.insertAll newEntries) := rfl

/-- One pass of the loop. -/
theorem decodeFrom_pass (decoder : HpackDecoder) (rest : Bytes) (result newEntries : Headers)
    (nonempty : rest ≠ []) :
    decodeFrom decoder rest result newEntries = (decoder.decodePass rest >>= fun pass =>
      match pass with
      | .reject => .ok (none, decoder)
      | .emit header indexed after =>
          decodeFrom decoder after (result ++ [header])
            (if indexed then newEntries ++ [header] else newEntries)
      | .resize newSize after =>
          decodeFrom { decoder with dynamicTable := decoder.dynamicTable.resize newSize } after
            result newEntries) := by
  rw [← decodeLoop_eq_decodeFrom (rest.length + 1) _ _ _ _ (Nat.le_succ _), decodeLoop,
    if_neg nonempty]
  cases pass : decoder.decodePass rest with
  | error fault => rfl
  | ok pass' =>
    cases pass' with
    | reject => rfl
    | emit header indexed after =>
      obtain ⟨count, _, rfl⟩ := decodePass_emit_drop decoder rest after header indexed pass
      exact decodeLoop_eq_decodeFrom _ _ _ _ _ (by rw [List.length_drop]; omega)
    | resize newSize after =>
      obtain ⟨_, consumed, _, rfl⟩ := decodePass_resize_inv decoder rest after newSize pass
      exact decodeLoop_eq_decodeFrom _ _ _ _ _ (by rw [List.length_drop]; omega)

theorem decodeFrom_emit (decoder : HpackDecoder) (rest after : Bytes)
    (result newEntries : Headers) (header : Header) (indexed : Bool) (nonempty : rest ≠ [])
    (pass : decoder.decodePass rest = .ok (.emit header indexed after)) :
    decodeFrom decoder rest result newEntries =
      decodeFrom decoder after (result ++ [header])
        (if indexed then newEntries ++ [header] else newEntries) := by
  rw [decodeFrom_pass _ _ _ _ nonempty, pass]
  rfl

theorem decodeFrom_resize (decoder : HpackDecoder) (rest after : Bytes)
    (result newEntries : Headers) (newSize : Nat) (nonempty : rest ≠ [])
    (pass : decoder.decodePass rest = .ok (.resize newSize after)) :
    decodeFrom decoder rest result newEntries =
      decodeFrom { decoder with dynamicTable := decoder.dynamicTable.resize newSize } after
        result newEntries := by
  rw [decodeFrom_pass _ _ _ _ nonempty, pass]
  rfl

/-- Induction over the passes the decoder can make from some bytes on. -/
theorem passes_induction {motive : HpackDecoder → Bytes → Prop}
    (step : ∀ decoder rest,
      (∀ header indexed after, rest ≠ [] →
        decoder.decodePass rest = .ok (.emit header indexed after) → motive decoder after) →
      (∀ newSize after, rest ≠ [] → decoder.decodePass rest = .ok (.resize newSize after) →
        motive { decoder with dynamicTable := decoder.dynamicTable.resize newSize } after) →
      motive decoder rest)
    (decoder : HpackDecoder) (rest : Bytes) : motive decoder rest := by
  induction bound : rest.length using Nat.strong_induction_on generalizing decoder rest with
  | _ bound' inductionHypothesis =>
  refine step decoder rest ?_ ?_
  · intro header indexed after nonempty pass
    obtain ⟨count, pos, same⟩ := decodePass_emit_drop _ _ _ _ _ pass
    have positive := List.length_pos_of_ne_nil nonempty
    have shorter : after.length < bound' := by rw [same, List.length_drop]; omega
    exact inductionHypothesis after.length shorter decoder after rfl
  · intro newSize after nonempty pass
    obtain ⟨_, consumed, decoded, same⟩ := decodePass_resize_inv _ _ _ _ pass
    have pos := hpackDecodeInt_pos _ _ _ _ decoded
    have positive := List.length_pos_of_ne_nil nonempty
    have shorter : after.length < bound' := by rw [same, List.length_drop]; omega
    exact inductionHypothesis after.length shorter _ after rfl

/-! ### The size updates of a block -/

/-- The size updates the decoder carries out in a number of passes. -/
def sizeUpdatesUpTo : Nat → HpackDecoder → Bytes → List Nat
  | 0, _, _ => []
  | passes + 1, decoder, rest =>
      if rest = [] then []
      else
        match decoder.decodePass rest with
        | .ok (.emit _ _ after) => sizeUpdatesUpTo passes decoder after
        | .ok (.resize newSize after) =>
            newSize :: sizeUpdatesUpTo passes
              { decoder with dynamicTable := decoder.dynamicTable.resize newSize } after
        | _ => []

/-- The size updates the decoder carries out in a block, up to where it stops reading. -/
def sizeUpdates (decoder : HpackDecoder) (block : Bytes) : List Nat :=
  sizeUpdatesUpTo block.length decoder block

/-- A block changes the table by its size updates and by the insertions at its end, of which there
are none if it is rejected. -/
theorem decodeFrom_ok (decoder next : HpackDecoder) (rest : Bytes) (result newEntries : Headers)
    (outcome : Option Headers) (passes : Nat) (enough : rest.length ≤ passes)
    (decoded : decoder.decodeFrom rest result newEntries = .ok (outcome, next)) :
    ∃ entries, (outcome = none → entries = []) ∧
      next = insertAll { decoder with
        dynamicTable := (sizeUpdatesUpTo passes decoder rest).foldl HpackDynamicTable.resize
          decoder.dynamicTable } entries := by
  induction decoder, rest using passes_induction generalizing result newEntries passes with
  | step decoder rest emits resizes =>
  by_cases empty : rest = []
  · subst empty
    cases decoded
    refine ⟨newEntries, nofun, ?_⟩
    cases passes <;> rfl
  · have positive := List.length_pos_of_ne_nil empty
    obtain ⟨passes, rfl⟩ := Nat.exists_eq_succ_of_ne_zero (by omega : passes ≠ 0)
    rw [sizeUpdatesUpTo, if_neg empty]
    cases pass : decoder.decodePass rest with
    | error fault =>
      rw [decodeFrom_pass _ _ _ _ empty, pass] at decoded
      cases decoded
    | ok made =>
      cases made with
      | reject =>
        rw [decodeFrom_pass _ _ _ _ empty, pass] at decoded
        cases decoded
        exact ⟨[], fun _ => rfl, rfl⟩
      | emit header indexed after =>
        rw [decodeFrom_emit _ _ _ _ _ _ _ empty pass] at decoded
        obtain ⟨count, pos, same⟩ := decodePass_emit_drop _ _ _ _ _ pass
        exact emits header indexed after empty pass _ _ passes
          (by rw [same, List.length_drop]; omega) decoded
      | resize newSize after =>
        rw [decodeFrom_resize _ _ _ _ _ _ empty pass] at decoded
        obtain ⟨_, consumed, size, same⟩ := decodePass_resize_inv _ _ _ _ pass
        have pos := hpackDecodeInt_pos _ _ _ _ size
        exact resizes newSize after empty pass _ _ passes
          (by rw [same, List.length_drop]; omega) decoded

end HpackDecoder

end AsyncNet.Http.H2
