/-
This file compares the decoder's index address space with the one of RFC 7541 §2.3.3:
the static entries at 1 to 61 and behind them the dynamic entries, the newest one
first, from 62 on. The decoder subtracts the length of its static table, which counts
the placeholder, and looks the difference up with one-based indices, so its dynamic
entries start at 63. The two agree exactly while the dynamic table is empty.
-/

import AsyncNet.Http.HpackBlocks

namespace AsyncNet.Http.H2

/-! ### Where the decoder looks an index up -/

namespace HpackDecoder

theorem getIndexed_static (decoder : HpackDecoder) (index : Nat) (positive : 0 < index)
    (small : index < 62) : decoder.getIndexed index = hpackStaticTable[index]? := by
  rw [getIndexed, hpackStaticTable_length, if_pos ⟨positive, small⟩]

/-- The dynamic entries start at 63. -/
theorem getIndexed_dynamic (decoder : HpackDecoder) (index : Nat) (large : 62 ≤ index)
    (word : index < 2 ^ 64) :
    decoder.getIndexed index =
      if index = 62 then none else decoder.dynamicTable.entries[index - 63]? := by
  have offset : (index + 2 ^ 64 - 62) % 2 ^ 64 = index - 62 := by omega
  rw [getIndexed, hpackStaticTable_length, if_neg (by omega), offset, HpackDynamicTable.get]
  by_cases first : index = 62
  · rw [if_pos first, if_pos (Or.inl (by omega))]
  · rw [if_neg first]
    by_cases beyond : decoder.dynamicTable.entries.length < index - 62
    · rw [if_pos (Or.inr beyond), List.getElem?_eq_none (by omega)]
    · rw [if_neg (by omega), show index - 62 - 1 = index - 63 by omega]

/-! ### What has been inserted -/

/-- The decoders that calls of `decode` and `set_max_table_size` reach, each with all that was
ever inserted into its dynamic table, the newest entry first. -/
inductive Reached : HpackDecoder → Headers → Prop
  | create (maxTableSize : UInt64) : Reached (HpackDecoder.create maxTableSize) []
  | setMaxTableSize {decoder : HpackDecoder} {history : Headers}
      (before : Reached decoder history) (size : UInt64) :
      Reached (decoder.setMaxTableSize size.toNat) history
  | accepted {decoder reached : HpackDecoder} {history headers entries : Headers} {block : Bytes}
      (before : Reached decoder history) (reads : Reads decoder block headers entries reached) :
      Reached (reached.insertAll entries)
        ((entries.filter fun entry => entrySize entry ≤ reached.dynamicTable.maxSize).reverse ++
          history)
  | rejected {decoder next : HpackDecoder} {history : Headers} {block : Bytes}
      (before : Reached decoder history) (decoded : decoder.decodeBlock block = .ok (none, next)) :
      Reached next history

/-- A block only evicts entries until it ends. -/
theorem Reads.entries_of_history {decoder reached : HpackDecoder} {block : Bytes}
    {headers entries : Headers} (reads : Reads decoder block headers entries reached) :
    reached.dynamicTable.entries <+: decoder.dynamicTable.entries := by
  induction reads with
  | done decoder => exact List.prefix_rfl
  | emit nonempty pass next inductionHypothesis => exact inductionHypothesis
  | resize nonempty pass next inductionHypothesis =>
    exact inductionHypothesis.trans (HpackDynamicTable.resize_entries _ _)

end HpackDecoder

theorem foldl_add_entries (entries history : Headers) (table : HpackDynamicTable)
    (live : table.entries <+: history) :
    (entries.foldl HpackDynamicTable.add table).entries <+:
      (entries.filter fun entry => entrySize entry ≤ table.maxSize).reverse ++ history := by
  induction entries generalizing table history with
  | nil => exact live
  | cons entry entries inductionHypothesis =>
    rw [List.foldl_cons]
    by_cases fits : entrySize entry ≤ table.maxSize
    · obtain ⟨kept, front, inserted⟩ := table.add_entries_of_le entry fits
      have longer : (table.add entry).entries <+: entry :: history := by
        rw [inserted]
        exact List.cons_prefix_cons.mpr ⟨rfl, front.trans live⟩
      have later := inductionHypothesis (entry :: history) (table.add entry) longer
      rw [HpackDynamicTable.add_maxSize] at later
      simpa only [List.filter_cons, decide_eq_true fits, if_true, List.reverse_cons,
        List.append_assoc, List.singleton_append] using later
    · have emptied : (table.add entry).entries <+: history := by
        rw [table.add_entries_of_lt entry (not_le.mp fits)]
        exact List.nil_prefix
      have later := inductionHypothesis history (table.add entry) emptied
      rw [HpackDynamicTable.add_maxSize] at later
      simpa only [List.filter_cons, decide_eq_true_iff, if_neg fits] using later

namespace HpackDecoder

theorem foldl_resize_entries (sizes : List Nat) (table : HpackDynamicTable) :
    (sizes.foldl HpackDynamicTable.resize table).entries <+: table.entries := by
  induction sizes generalizing table with
  | nil => exact List.prefix_rfl
  | cons size sizes inductionHypothesis =>
    exact (inductionHypothesis (table.resize size)).trans (table.resize_entries size)

/-- The entries of a reached decoder are the most recent of all that were inserted. -/
theorem Reached.entries_of_history {decoder : HpackDecoder} {history : Headers}
    (reached : Reached decoder history) : decoder.dynamicTable.entries <+: history := by
  induction reached with
  | create maxTableSize => exact List.prefix_rfl
  | setMaxTableSize before size inductionHypothesis =>
    exact (HpackDynamicTable.resize_entries _ _).trans inductionHypothesis
  | accepted before reads inductionHypothesis =>
    exact foldl_add_entries _ _ _ (reads.entries_of_history.trans inductionHypothesis)
  | @rejected decoder next history block before decoded inductionHypothesis =>
    obtain ⟨entries, none', rfl⟩ :=
      decodeFrom_ok decoder next block [] [] none block.length le_rfl decoded
    rw [none' rfl]
    exact (foldl_resize_entries _ _).trans inductionHypothesis

/-! ### The address space of RFC 7541 -/

/-- What an index means, given the number of live entries and all that was inserted. -/
def resolve (live : Nat) (history : Headers) (index : Nat) : Option Header :=
  if 1 ≤ index ∧ index ≤ 61 then hpackStaticTable[index]?
  else if 62 ≤ index ∧ index ≤ 61 + live then history[index - 62]?
  else none

/-- The pass of a literal whose name is the name of an entry. -/
def namedLiteral (due : Bool) (entry : Option Header) (rest : Bytes) : Except Fault DecodePass :=
  match entry with
  | none => .ok .reject
  | some (name, _) =>
      (readString rest).map fun value =>
        DecodePass.ofLiteral due (value.map fun found => ((name, found.1), found.2))

/-- Indexed fields and the names of literals of either kind are looked up where the RFC puts
them, and other indices are rejected. -/
structure AddressSpace (decoder : HpackDecoder) (history : Headers) : Prop where
  indexed : ∀ rest index consumed, rest.getD 0 0 &&& 0x80 ≠ 0 →
    hpackDecodeInt rest 7 = some (index, consumed) →
    decoder.decodePass rest =
      .ok (match resolve decoder.dynamicTable.entries.length history index with
        | none => .reject
        | some header => .emit header false (rest.drop consumed))
  incremental : ∀ rest index consumed, rest.getD 0 0 &&& 0xC0 = 0x40 →
    hpackDecodeInt rest 6 = some (index, consumed) → index ≠ 0 →
    decoder.decodePass rest =
      namedLiteral true (resolve decoder.dynamicTable.entries.length history index)
        (rest.drop consumed)
  plain : ∀ rest index consumed, rest.getD 0 0 &&& 0xE0 = 0 →
    hpackDecodeInt rest 4 = some (index, consumed) → index ≠ 0 →
    decoder.decodePass rest =
      namedLiteral false (resolve decoder.dynamicTable.entries.length history index)
        (rest.drop consumed)

/-- A literal with a name index is a lookup and a string. -/
theorem map_literal_eq (decoder : HpackDecoder) (prefixBits index consumed : Nat) (due : Bool)
    (rest : Bytes) (decoded : hpackDecodeInt rest prefixBits = some (index, consumed))
    (nonzero : index ≠ 0) :
    (decoder.literal prefixBits rest).map (DecodePass.ofLiteral due) =
      namedLiteral due (decoder.getIndexed index) (rest.drop consumed) := by
  rw [literal, decoded]
  dsimp only
  rw [literalName, if_pos (Nat.pos_of_ne_zero nonzero)]
  cases decoder.getIndexed index with
  | none => rfl
  | some entry =>
    show Except.map _ (readString (rest.drop consumed) >>= _) = Except.map _ (readString _)
    obtain fault | (_ | found) := readString (rest.drop consumed) <;> rfl

/-- The static indices are the only ones while the dynamic table is empty. -/
theorem getIndexed_of_empty (decoder : HpackDecoder) (history : Headers)
    (empty : decoder.dynamicTable.entries = []) (index : Nat) :
    decoder.getIndexed index = resolve 0 history index := by
  unfold resolve
  by_cases static : 1 ≤ index ∧ index ≤ 61
  · rw [if_pos static, getIndexed_static decoder index static.1 (by omega)]
  · rw [if_neg static, if_neg (by omega), getIndexed, hpackStaticTable_length, if_neg (by omega),
      HpackDynamicTable.get, empty]
    split <;> rfl

theorem not_addressSpace_of_live (decoder : HpackDecoder) (history : Headers)
    (recent : decoder.dynamicTable.entries <+: history)
    (live : decoder.dynamicTable.entries ≠ []) : ¬ AddressSpace decoder history := by
  intro space
  obtain ⟨newest, older, entries⟩ := List.exists_cons_of_ne_nil live
  obtain ⟨past, rfl⟩ := recent
  have resolved : resolve decoder.dynamicTable.entries.length
      (decoder.dynamicTable.entries ++ past) 62 = some newest := by
    rw [resolve, if_neg (by decide), entries, if_pos ⟨le_rfl, by rw [List.length_cons]; omega⟩]
    rfl
  have missing : decoder.getIndexed 62 = none := by
    rw [getIndexed_dynamic decoder 62 le_rfl (by decide), if_pos rfl]
  have actual : decoder.decodePass [0xBE] = .ok .reject := by
    rw [decodePass_indexed decoder [0xBE] (by decide)]
    show (match decoder.getIndexed 62 with
      | none => Except.ok DecodePass.reject
      | some header => .ok (.emit header false [])) = _
    rw [missing]
  have expected := space.indexed [0xBE] 62 1 (by decide) (by decide)
  rw [resolved, actual] at expected
  cases expected

theorem addressSpace_of_empty (decoder : HpackDecoder) (history : Headers)
    (empty : decoder.dynamicTable.entries = []) : AddressSpace decoder history := by
  have looked := getIndexed_of_empty decoder history empty
  refine ⟨?_, ?_, ?_⟩
  · intro rest index consumed flag decoded
    rw [decodePass_indexed decoder rest flag, decoded, empty, List.length_nil, ← looked]
    dsimp only
    by_cases zero : index = 0
    · rw [if_pos zero, looked, zero]
      rfl
    · rw [if_neg zero]
      cases decoder.getIndexed index <;> rfl
  · intro rest index consumed flag decoded nonzero
    rw [decodePass_incremental decoder rest flag, map_literal_eq _ _ _ _ _ _ decoded nonzero,
      looked, empty]
    rfl
  · intro rest index consumed flag decoded nonzero
    rw [decodePass_plain decoder rest flag, map_literal_eq _ _ _ _ _ _ decoded nonzero,
      looked, empty]
    rfl

/-- In every state that calls reach, the decoder's address space is the RFC's exactly if the
dynamic table is empty. -/
theorem addressSpace_iff (decoder : HpackDecoder) (history : Headers)
    (reached : Reached decoder history) :
    AddressSpace decoder history ↔ decoder.dynamicTable.entries = [] := by
  constructor
  · intro space
    by_contra live
    exact not_addressSpace_of_live decoder history reached.entries_of_history live space
  · exact addressSpace_of_empty decoder history

/-- A new decoder. -/
theorem addressSpace_new : AddressSpace {} [] :=
  (addressSpace_iff {} [] (.create 4096)).mpr rfl

/-- The decoder once the block of the single literal `b: 1` with incremental indexing is read:
its entry should have index 62. -/
theorem not_addressSpace_literal :
    Reached { dynamicTable := HpackDynamicTable.add { maxSize := 4096 } (ascii "b", ascii "1") }
      [(ascii "b", ascii "1")] ∧
    ¬ AddressSpace
      { dynamicTable := HpackDynamicTable.add { maxSize := 4096 } (ascii "b", ascii "1") }
      [(ascii "b", ascii "1")] := by
  have pass : HpackDecoder.decodePass {} [0x40, 0x01, 0x62, 0x01, 0x31] =
      .ok (.emit (ascii "b", ascii "1") true []) := rfl
  have reached := (Reached.create 4096).accepted (.emit (by decide) pass (.done _))
  refine ⟨reached, not_addressSpace_of_live _ _ reached.entries_of_history ?_⟩
  exact List.cons_ne_nil _ _

end HpackDecoder

end AsyncNet.Http.H2
