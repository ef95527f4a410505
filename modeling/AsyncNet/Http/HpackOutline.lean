/-
This file separates what `hpack_decoder::decode` finds out about the structure of a block from what
it makes of the strings in it. The outline of a block has the fields with their strings as they
stand there, coded or not; it is broken where an integer or a string is cut off or an index names
nothing. Decoding a block is finding its outline and then decoding the strings, which cannot fail:
`decode_string` takes the empty string that `huffman_decode` returns on an error for the string.
So a block with a malformed Huffman string is rejected exactly when its outline is broken.
-/

import AsyncNet.Http.HpackBlocks
import AsyncNet.Http.HpackTable
import AsyncNet.Http.QpackReference

namespace AsyncNet.Http.H2

open Library H3.Reference

/-! ### Strings -/

/-- A string as it stands in a block. -/
structure StringLiteral where
  huffman : Bool
  octets : Bytes
  deriving DecidableEq

namespace StringLiteral

/-- The string that `decode_string` takes it for. -/
def text (literal : StringLiteral) : Bytes :=
  if literal.huffman then huffmanDecode literal.octets else literal.octets

/-- The octets are flagged as Huffman coded, and they are not: there is a code that is no symbol's,
which includes the one for the end of the string, or the padding is not less than an octet of
ones. -/
def Malformed (literal : StringLiteral) : Prop :=
  literal.huffman = true ∧ huffmanText literal.octets = none

end StringLiteral

/-- The string at the front of some bytes and what follows it, `none` where `decode_string` reports
0 octets. -/
def stringLiteral (rest : Bytes) : Except Fault (Option (StringLiteral × Bytes)) :=
  let huffman := rest.getD 0 0 &&& 0x80 ≠ 0
  match hpackDecodeInt rest 7 with
  | none => .ok none
  | some (strLen, consumed) =>
      let inside := rest.drop consumed
      if rest.length < (consumed + strLen) % 2 ^ 64 then .ok none
      else if rest.length < consumed + strLen ∧ ¬ huffman then .error .lengthError
      else if rest.length < consumed + strLen ∧
          ((inside.flatMap bitsOf).foldlM HuffmanState.step {}).isSome then
        .error .outOfBounds
      else
        let count := wrapInt32 (consumed + wrapInt32 strLen)
        if count = 0 then .ok none
        else
          (advance rest count).map fun after =>
            some ({ huffman := decide huffman, octets := inside.take strLen }, after)

theorem readString_of_ok (rest text : Bytes) (count : Int)
    (decoded : decodeString rest = .ok (text, count)) :
    readString rest =
      if count = 0 then .ok none else (advance rest count).map fun after => some (text, after) := by
  rw [readString, decoded]
  show (if count = 0 then Except.ok none
    else advance rest count >>= fun after => .ok (some (text, after))) = _
  split
  · rfl
  · cases advance rest count <;> rfl

theorem readString_of_error (rest : Bytes) (fault : Fault)
    (decoded : decodeString rest = .error fault) : readString rest = .error fault := by
  rw [readString, decoded]
  rfl

theorem stringLiteral_of_accepted (rest : Bytes) (strLen consumed : Nat)
    (integer : hpackDecodeInt rest 7 = some (strLen, consumed))
    (accepted : ¬ rest.length < (consumed + strLen) % 2 ^ 64)
    (coded : ¬ (rest.length < consumed + strLen ∧ ¬ rest.getD 0 0 &&& 0x80 ≠ 0))
    (stops : ¬ (rest.length < consumed + strLen ∧
      (((rest.drop consumed).flatMap bitsOf).foldlM HuffmanState.step {}).isSome)) :
    stringLiteral rest =
      if wrapInt32 (consumed + wrapInt32 strLen) = 0 then .ok none
      else (advance rest (wrapInt32 (consumed + wrapInt32 strLen))).map fun after =>
        some ({ huffman := rest.getD 0 0 &&& 0x80 ≠ 0, octets := (rest.drop consumed).take strLen },
          after) := by
  rw [stringLiteral, integer]
  dsimp only
  rw [if_neg accepted, if_neg coded, if_neg stops]

/-- The end of a string, which is decoded. -/
theorem map_text (rest text : Bytes) (literal : StringLiteral) (count : Int)
    (same : literal.text = text) :
    (if count = 0 then .ok none
      else (advance rest count).map fun after => some (text, after)) =
    (if count = 0 then Except.ok none
      else (advance rest count).map fun after => some (literal, after)).map
        (Option.map fun found => (found.1.text, found.2)) := by
  subst same
  split
  · rfl
  · cases advance rest count <;> rfl

/-- A string is read and then decoded. -/
theorem readString_eq (rest : Bytes) :
    readString rest =
      (stringLiteral rest).map (Option.map fun found => (found.1.text, found.2)) := by
  rcases integer : hpackDecodeInt rest 7 with _ | ⟨strLen, consumed⟩
  · have decoded : decodeString rest = .ok ([], 0) := by rw [decodeString, integer]
    rw [readString_of_ok rest [] 0 decoded, if_pos rfl, stringLiteral, integer]
    rfl
  · by_cases refused : rest.length < (consumed + strLen) % 2 ^ 64
    · have decoded : decodeString rest = .ok ([], 0) := by
        rw [decodeString, integer]
        dsimp only
        rw [if_pos refused]
      rw [readString_of_ok rest [] 0 decoded, if_pos rfl, stringLiteral, integer]
      dsimp only
      rw [if_pos refused]
      rfl
    · by_cases outside : rest.length < consumed + strLen
      · by_cases huffman : rest.getD 0 0 &&& 0x80 ≠ 0
        · rcases loop : ((rest.drop consumed).flatMap bitsOf).foldlM HuffmanState.step {} with
            _ | final
          · -- the Huffman decoder gives up inside the buffer
            have decoded : decodeString rest =
                .ok ([], wrapInt32 (consumed + wrapInt32 strLen)) := by
              rw [decodeString, integer]
              dsimp only
              rw [if_neg refused, if_pos outside, if_pos huffman, loop]
            have found := stringLiteral_of_accepted rest strLen consumed integer refused
              (fun raw => raw.2 huffman) (fun past => by rw [loop] at past; cases past.2)
            have all : (rest.drop consumed).take strLen = rest.drop consumed :=
              List.take_of_length_le (by rw [List.length_drop]; omega)
            have empty : huffmanDecode (rest.drop consumed) = [] := by
              simpa using (huffmanDecode_of_stuck (rest.drop consumed) [] loop).2
            rw [readString_of_ok rest _ _ decoded, found]
            refine map_text rest [] _ _ ?_
            rw [StringLiteral.text, if_pos (decide_eq_true huffman), all, empty]
          · have decoded : decodeString rest = .error .outOfBounds := by
              rw [decodeString, integer]
              dsimp only
              rw [if_neg refused, if_pos outside, if_pos huffman, loop]
            rw [readString_of_error rest _ decoded, stringLiteral, integer]
            dsimp only
            rw [if_neg refused, if_neg fun raw => raw.2 huffman, loop, if_pos ⟨outside, rfl⟩]
            rfl
        · have decoded : decodeString rest = .error .lengthError := by
            rw [decodeString, integer]
            dsimp only
            rw [if_neg refused, if_pos outside, if_neg huffman]
          rw [readString_of_error rest _ decoded, stringLiteral, integer]
          dsimp only
          rw [if_neg refused, if_pos ⟨outside, huffman⟩]
          rfl
      · have decoded : decodeString rest =
            .ok (if rest.getD 0 0 &&& 0x80 ≠ 0 then huffmanDecode ((rest.drop consumed).take strLen)
              else (rest.drop consumed).take strLen, wrapInt32 (consumed + wrapInt32 strLen)) := by
          rw [decodeString, integer]
          dsimp only
          rw [if_neg refused, if_neg outside]
        have found := stringLiteral_of_accepted rest strLen consumed integer refused
          (fun raw => outside raw.1) (fun past => outside past.1)
        rw [readString_of_ok rest _ _ decoded, found]
        refine map_text rest _ _ _ ?_
        simp only [StringLiteral.text, decide_eq_true_eq]

/-! ### The outline of a block -/

/-- A header field of a block: one of the tables, or a literal whose name is one of the tables or a
string, and which may be due for insertion. -/
inductive Field where
  | indexed (header : Header)
  | literal (name : Bytes ⊕ StringLiteral) (value : StringLiteral) (due : Bool)
  deriving DecidableEq

namespace Field

/-- The strings that stand in the block. -/
def strings : Field → List StringLiteral
  | .indexed _ => []
  | .literal (.inl _) value _ => [value]
  | .literal (.inr name) value _ => [name, value]

/-- The header that the decoder makes of it. -/
def header : Field → Header
  | .indexed header => header
  | .literal (.inl name) value _ => (name, value.text)
  | .literal (.inr name) value _ => (name.text, value.text)

def due : Field → Bool
  | .indexed _ => false
  | .literal _ _ due => due

end Field

/-- What a pass of the decoder finds, before it decodes strings. -/
inductive OutlinePass where
  | broken
  | emit (field : Field) (rest : Bytes)
  | resize (newSize : Nat) (rest : Bytes)

/-- The pass that comes of it when the strings are decoded. -/
def OutlinePass.decode : OutlinePass → DecodePass
  | .broken => .reject
  | .emit field rest => .emit field.header field.due rest
  | .resize newSize rest => .resize newSize rest

namespace HpackDecoder

/-- The name of a literal, which is a reference unless the index is 0. -/
def outlineName (decoder : HpackDecoder) (nameIndex : Nat) (rest : Bytes) :
    Except Fault (Option ((Bytes ⊕ StringLiteral) × Bytes)) :=
  if 0 < nameIndex then
    .ok ((decoder.getIndexed nameIndex).map fun entry => (.inl entry.1, rest))
  else (stringLiteral rest).map (Option.map fun found => (.inr found.1, found.2))

/-- A literal representation, whose index has the given prefix. -/
def outlineLiteral (decoder : HpackDecoder) (prefixBits : Nat) (due : Bool) (rest : Bytes) :
    Except Fault OutlinePass :=
  match hpackDecodeInt rest prefixBits with
  | none => .ok .broken
  | some (nameIndex, consumed) => do
      match ← decoder.outlineName nameIndex (rest.drop consumed) with
      | none => return .broken
      | some (name, rest) =>
          match ← stringLiteral rest with
          | none => return .broken
          | some (value, rest) => return .emit (.literal name value due) rest

/-- What a pass of the loop finds at the front of some bytes. -/
def outlinePass (decoder : HpackDecoder) (rest : Bytes) : Except Fault OutlinePass :=
  let byte := rest.getD 0 0
  if byte &&& 0x80 ≠ 0 then
    match hpackDecodeInt rest 7 with
    | none => .ok .broken
    | some (index, consumed) =>
        if index = 0 then .ok .broken
        else
          match decoder.getIndexed index with
          | none => .ok .broken
          | some header => .ok (.emit (.indexed header) (rest.drop consumed))
  else if byte &&& 0x40 ≠ 0 then decoder.outlineLiteral 6 true rest
  else if byte &&& 0x20 ≠ 0 then
    match hpackDecodeInt rest 5 with
    | none => .ok .broken
    | some (newSize, consumed) => .ok (.resize newSize (rest.drop consumed))
  else decoder.outlineLiteral 4 false rest

/-- The fields of a block, `none` if it is broken, and the decoder with its table resized. -/
def outlineLoop : Nat → HpackDecoder → Bytes → List Field →
    Except Fault (Option (List Field) × HpackDecoder)
  | 0, decoder, rest, fields =>
      if rest = [] then .ok (some fields, decoder) else .ok (none, decoder)
  | passes + 1, decoder, rest, fields =>
      if rest = [] then .ok (some fields, decoder)
      else do
        match ← decoder.outlinePass rest with
        | .broken => return (none, decoder)
        | .emit field rest => outlineLoop passes decoder rest (fields ++ [field])
        | .resize newSize rest =>
            outlineLoop passes { decoder with dynamicTable := decoder.dynamicTable.resize newSize }
              rest fields

def outline (decoder : HpackDecoder) (block : Bytes) :
    Except Fault (Option (List Field) × HpackDecoder) :=
  outlineLoop block.length decoder block []

/-! ### Decoding a block is decoding the strings of its outline -/

theorem literal_eq_outline (decoder : HpackDecoder) (prefixBits : Nat) (due : Bool)
    (rest : Bytes) :
    (decoder.literal prefixBits rest).map (DecodePass.ofLiteral due) =
      (decoder.outlineLiteral prefixBits due rest).map OutlinePass.decode := by
  unfold literal outlineLiteral
  cases hpackDecodeInt rest prefixBits with
  | none => rfl
  | some found =>
    obtain ⟨nameIndex, consumed⟩ := found
    dsimp only
    unfold literalName outlineName
    split
    · cases decoder.getIndexed nameIndex with
      | none => rfl
      | some entry =>
        show ((readString (rest.drop consumed) >>= _).map _ : Except Fault DecodePass) =
          (stringLiteral (rest.drop consumed) >>= _).map _
        rw [readString_eq]
        obtain fault | (_ | ⟨value, after⟩) := stringLiteral (rest.drop consumed) <;> rfl
    · rw [readString_eq]
      obtain fault | (_ | ⟨name, after⟩) := stringLiteral (rest.drop consumed)
      · rfl
      · rfl
      · show ((readString after >>= _).map _ : Except Fault DecodePass) =
          (stringLiteral after >>= _).map _
        rw [readString_eq]
        obtain fault | (_ | ⟨value, last⟩) := stringLiteral after <;> rfl

theorem decodePass_eq_outline (decoder : HpackDecoder) (rest : Bytes) :
    decoder.decodePass rest = (decoder.outlinePass rest).map OutlinePass.decode := by
  unfold decodePass outlinePass
  dsimp only
  split
  · cases hpackDecodeInt rest 7 with
    | none => rfl
    | some found =>
      dsimp only
      split
      · rfl
      · cases decoder.getIndexed found.1 <;> rfl
  · split
    · exact literal_eq_outline decoder 6 true rest
    · split
      · cases hpackDecodeInt rest 5 <;> rfl
      · exact literal_eq_outline decoder 4 false rest

/-- The headers and the insertions that a block comes to when the strings of its fields are
decoded. -/
def decodeOutline (found : Option (List Field) × HpackDecoder) : Option Headers × HpackDecoder :=
  match found with
  | (none, decoder) => (none, decoder)
  | (some fields, decoder) =>
      (some (fields.map Field.header),
        decoder.insertAll ((fields.filter Field.due).map Field.header))

theorem decodeLoop_eq_outline (passes : Nat) (decoder : HpackDecoder) (rest : Bytes)
    (fields : List Field) :
    decodeLoop passes decoder rest (fields.map Field.header)
        ((fields.filter Field.due).map Field.header) =
      (outlineLoop passes decoder rest fields).map decodeOutline := by
  induction passes generalizing decoder rest fields with
  | zero =>
    rw [decodeLoop, outlineLoop]
    split <;> rfl
  | succ passes inductionHypothesis =>
    rw [decodeLoop, outlineLoop]
    split
    · rfl
    · rw [decodePass_eq_outline]
      obtain fault | (_ | ⟨field, after⟩ | ⟨newSize, after⟩) := decoder.outlinePass rest
      · rfl
      · rfl
      · have longer := inductionHypothesis decoder after (fields ++ [field])
        rw [List.map_append, List.filter_append, List.map_append] at longer
        refine Eq.trans ?_ longer
        show decodeLoop passes decoder after (fields.map Field.header ++ [field.header])
          (if field.due = true then (fields.filter Field.due).map Field.header ++ [field.header]
            else (fields.filter Field.due).map Field.header) = _
        cases due : field.due <;> simp [due]
      · exact inductionHypothesis _ after fields

/-- Decoding a block is decoding the strings of its outline. -/
theorem decodeBlock_eq_outline (decoder : HpackDecoder) (block : Bytes) :
    decoder.decodeBlock block = (decoder.outline block).map decodeOutline :=
  decodeLoop_eq_outline block.length decoder block []

end HpackDecoder

/-! ### The strings of a block -/

/-- The string at the front of some bytes, if it is complete, and what follows it. -/
def completeString (rest : Bytes) : List StringLiteral × Option Bytes :=
  match stringLiteral rest with
  | .ok (some (literal, after)) => ([literal], some after)
  | _ => ([], none)

/-- The complete strings of a literal, and what follows it if the whole literal is complete. -/
def literalStrings (prefixBits : Nat) (rest : Bytes) : List StringLiteral × Option Bytes :=
  match hpackDecodeInt rest prefixBits with
  | none => ([], none)
  | some (nameIndex, consumed) =>
      let (names, after) :=
        if 0 < nameIndex then ([], some (rest.drop consumed))
        else completeString (rest.drop consumed)
      match after with
      | none => (names, none)
      | some rest =>
          let (values, after) := completeString rest
          (names ++ values, after)

/-- The complete strings of the representation at the front of some bytes, and what follows it. It
does not depend on a decoder. -/
def representationStrings (rest : Bytes) : List StringLiteral × Option Bytes :=
  let byte := rest.getD 0 0
  if byte &&& 0x80 ≠ 0 then ([], (hpackDecodeInt rest 7).map fun found => rest.drop found.2)
  else if byte &&& 0x40 ≠ 0 then literalStrings 6 rest
  else if byte &&& 0x20 ≠ 0 then ([], (hpackDecodeInt rest 5).map fun found => rest.drop found.2)
  else literalStrings 4 rest

/-- The strings of a block, up to where it is cut off. -/
def stringsUpTo : Nat → Bytes → List StringLiteral
  | 0, _ => []
  | passes + 1, rest =>
      if rest = [] then []
      else
        let (strings, after) := representationStrings rest
        strings ++ (after.map (stringsUpTo passes)).getD []

def blockStrings (block : Bytes) : List StringLiteral := stringsUpTo block.length block

namespace HpackDecoder

theorem literalStrings_of_outline (decoder : HpackDecoder) (prefixBits : Nat) (due : Bool)
    (rest after : Bytes) (field : Field)
    (found : decoder.outlineLiteral prefixBits due rest = .ok (.emit field after)) :
    literalStrings prefixBits rest = (field.strings, some after) := by
  unfold outlineLiteral at found
  unfold literalStrings
  cases integer : hpackDecodeInt rest prefixBits with
  | none =>
    rw [integer] at found
    cases found
  | some index =>
    obtain ⟨nameIndex, consumed⟩ := index
    rw [integer] at found
    dsimp only at found ⊢
    unfold outlineName at found
    split at found
    · rename_i indexed
      rw [if_pos indexed]
      cases entry : decoder.getIndexed nameIndex with
      | none =>
        rw [entry] at found
        cases found
      | some header =>
        rw [entry] at found
        obtain ⟨_, same, found⟩ := bind_ok found
        cases same
        obtain ⟨read, value, last⟩ := bind_ok found
        cases read with
        | none => cases last
        | some read =>
          cases last
          dsimp only
          rw [completeString, value]
          rfl
    · rename_i named
      rw [if_neg named]
      obtain ⟨name, nameRead, found⟩ := bind_ok found
      obtain ⟨literal, string, same⟩ := map_ok nameRead
      rw [completeString, string]
      cases literal with
      | none =>
        subst same
        cases found
      | some literal =>
        subst same
        obtain ⟨read, value, last⟩ := bind_ok found
        cases read with
        | none => cases last
        | some read =>
          cases last
          dsimp only
          rw [completeString, value]
          rfl

theorem outlineLiteral_ne_resize (decoder : HpackDecoder) (prefixBits newSize : Nat) (due : Bool)
    (rest after : Bytes) :
    decoder.outlineLiteral prefixBits due rest ≠ .ok (.resize newSize after) := by
  intro found
  have decoded := congrArg (Except.map OutlinePass.decode) found
  rw [← literal_eq_outline] at decoded
  exact map_ofLiteral_resize decoded

/-- The strings at the front of some bytes are those of the field that a decoder finds there. -/
theorem representationStrings_of_emit (decoder : HpackDecoder) (rest after : Bytes) (field : Field)
    (found : decoder.outlinePass rest = .ok (.emit field after)) :
    representationStrings rest = (field.strings, some after) := by
  unfold outlinePass at found
  unfold representationStrings
  dsimp only at found ⊢
  split at found
  · rename_i indexed
    rw [if_pos indexed]
    cases integer : hpackDecodeInt rest 7 with
    | none =>
      rw [integer] at found
      cases found
    | some index =>
      rw [integer] at found
      dsimp only at found
      split at found
      · cases found
      · split at found
        · cases found
        · cases found
          rfl
  · rename_i other
    rw [if_neg other]
    split at found
    · rename_i incremental
      rw [if_pos incremental]
      exact literalStrings_of_outline decoder 6 true rest after field found
    · rename_i other'
      rw [if_neg other']
      split at found
      · split at found <;> cases found
      · rename_i plain
        rw [if_neg plain]
        exact literalStrings_of_outline decoder 4 false rest after field found

theorem representationStrings_of_resize (decoder : HpackDecoder) (rest after : Bytes)
    (newSize : Nat) (found : decoder.outlinePass rest = .ok (.resize newSize after)) :
    representationStrings rest = ([], some after) := by
  unfold outlinePass at found
  unfold representationStrings
  dsimp only at found ⊢
  split at found
  · split at found
    · cases found
    · split at found
      · cases found
      · split at found <;> cases found
  · rename_i other
    rw [if_neg other]
    split at found
    · exact absurd found (outlineLiteral_ne_resize decoder 6 newSize true rest after)
    · rename_i other'
      rw [if_neg other']
      split at found
      · rename_i update
        rw [if_pos update]
        cases integer : hpackDecodeInt rest 5 with
        | none =>
          rw [integer] at found
          cases found
        | some size =>
          rw [integer] at found
          cases found
          rfl
      · exact absurd found (outlineLiteral_ne_resize decoder 4 newSize false rest after)

/-- A block that is not broken has the strings of its fields. -/
theorem outlineLoop_strings (passes : Nat) (decoder next : HpackDecoder) (rest : Bytes)
    (fields found : List Field)
    (intact : outlineLoop passes decoder rest fields = .ok (some found, next)) :
    ∃ more, found = fields ++ more ∧ stringsUpTo passes rest = more.flatMap Field.strings := by
  induction passes generalizing decoder rest fields with
  | zero =>
    rw [outlineLoop] at intact
    split at intact
    · cases intact
      exact ⟨[], (List.append_nil _).symm, rfl⟩
    · cases intact
  | succ passes inductionHypothesis =>
    rw [outlineLoop] at intact
    rw [stringsUpTo]
    by_cases empty : rest = []
    · rw [if_pos empty] at intact ⊢
      cases intact
      exact ⟨[], (List.append_nil _).symm, rfl⟩
    · rw [if_neg empty] at intact ⊢
      obtain ⟨pass, made, later⟩ := bind_ok intact
      cases pass with
      | broken => cases later
      | emit field after =>
        obtain ⟨more, same, strings⟩ := inductionHypothesis decoder after (fields ++ [field]) later
        refine ⟨field :: more, by rw [same, List.append_assoc, List.singleton_append], ?_⟩
        rw [representationStrings_of_emit decoder rest after field made, List.flatMap_cons,
          ← strings]
        rfl
      | resize newSize after =>
        obtain ⟨more, same, strings⟩ := inductionHypothesis _ after fields later
        refine ⟨more, same, ?_⟩
        rw [representationStrings_of_resize decoder rest after newSize made, ← strings]
        rfl

/-! ### Malformed strings -/

/-- The outline of a block is broken: an integer or a string in it is cut off, or an index names
nothing. It has nothing to do with the code of the strings. -/
def Broken (decoder : HpackDecoder) (block : Bytes) : Prop :=
  ∃ next, decoder.outline block = .ok (none, next)

/-- The decoder returns no headers and adds nothing to its table. -/
def Rejects (decoder : HpackDecoder) (block : Bytes) : Prop :=
  ∃ next, decoder.decode block = .ok ([], next) ∧
    next.dynamicTable.entries <+: decoder.dynamicTable.entries

/-- The outline of a block changes the table by resizing it. -/
theorem outlineLoop_entries (passes : Nat) (decoder next : HpackDecoder) (rest : Bytes)
    (fields : List Field) (found : Option (List Field))
    (outlined : outlineLoop passes decoder rest fields = .ok (found, next)) :
    next.dynamicTable.entries <+: decoder.dynamicTable.entries := by
  induction passes generalizing decoder rest fields with
  | zero =>
    rw [outlineLoop] at outlined
    split at outlined <;> cases outlined <;> exact List.prefix_rfl
  | succ passes inductionHypothesis =>
    rw [outlineLoop] at outlined
    split at outlined
    · cases outlined
      exact List.prefix_rfl
    · obtain ⟨pass, _, later⟩ := bind_ok outlined
      cases pass with
      | broken =>
        cases later
        exact List.prefix_rfl
      | emit field after => exact inductionHypothesis decoder after _ later
      | resize newSize after =>
        exact (inductionHypothesis _ after fields later).trans
          (HpackDynamicTable.resize_entries _ _)

theorem decode_eq_outline (decoder : HpackDecoder) (block : Bytes) :
    decoder.decode block = (decoder.outline block).map fun found =>
      ((decodeOutline found).1.getD [], (decodeOutline found).2) := by
  rw [decode, decodeBlock_eq_outline]
  cases decoder.outline block <;> rfl

/-- A block that holds a malformed Huffman string is rejected exactly if its outline is broken. -/
theorem rejects_iff_broken (decoder : HpackDecoder) (block : Bytes)
    (malformed : ∃ literal ∈ blockStrings block, literal.Malformed) :
    decoder.Rejects block ↔ decoder.Broken block := by
  constructor
  · rintro ⟨next, decoded, _⟩
    rw [decode_eq_outline] at decoded
    obtain ⟨⟨found, outlined⟩, run, same⟩ := map_ok decoded
    cases found with
    | none => exact ⟨outlined, run⟩
    | some fields =>
      -- a block with a string has a field, and its header would have been returned
      obtain ⟨more, split, strings⟩ := outlineLoop_strings _ _ _ _ _ _ run
      have none : fields = [] := List.map_eq_nil_iff.mp (congrArg Prod.fst same)
      obtain ⟨literal, member, _⟩ := malformed
      rw [none] at split
      rw [List.nil_append] at split
      rw [blockStrings, strings, ← split] at member
      cases member
  · rintro ⟨next, outlined⟩
    refine ⟨next, ?_, outlineLoop_entries _ _ _ _ _ _ outlined⟩
    rw [decode_eq_outline, outlined]
    rfl

/-- An incremental literal `a` whose value is `0` in the Huffman code, padded with zeros. -/
def zeroPadded : Bytes := [0x40, 0x01, 0x61, 0x81, 0x00]

/-- The value is taken for the empty string, and the entry is added. -/
theorem not_rejects_zeroPadded :
    (∃ literal ∈ blockStrings zeroPadded, literal.Malformed) ∧ ¬ Rejects {} zeroPadded := by
  refine ⟨⟨{ huffman := true, octets := [0x00] }, by decide +kernel, rfl, by decide +kernel⟩, ?_⟩
  rintro ⟨next, decoded, _⟩
  have returned : (decode {} zeroPadded).map Prod.fst = .ok [(ascii "a", [])] := by decide +kernel
  rw [decoded] at returned
  cases returned

/-- The same block with the next field cut off. -/
theorem rejects_zeroPadded_cut :
    Rejects {} (zeroPadded ++ [0x40]) ↔ Broken {} (zeroPadded ++ [0x40]) :=
  rejects_iff_broken {} (zeroPadded ++ [0x40])
    ⟨{ huffman := true, octets := [0x00] }, by decide +kernel, rfl, by decide +kernel⟩

end HpackDecoder

end AsyncNet.Http.H2
