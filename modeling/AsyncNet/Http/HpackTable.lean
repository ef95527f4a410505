/-
This file says what the operations of the HPACK dynamic table do: eviction leaves a
front of the entries, an insertion and a resize leave no more than the table's own
bound, and the bound changes in a resize only.
-/

import AsyncNet.Http.Hpack

namespace AsyncNet.Http.H2

theorem entriesSize_eq_zero_iff (entries : List Header) :
    entriesSize entries = 0 ↔ entries = [] := by
  cases entries with
  | nil => simp [entriesSize]
  | cons entry entries => simp [entriesSize, entrySize]

namespace HpackDynamicTable

@[simp] theorem evict_maxSize (table : HpackDynamicTable) :
    table.evict.maxSize = table.maxSize := by
  unfold evict
  split <;> rfl

theorem evict_entries (table : HpackDynamicTable) :
    table.evict.entries = table.entries.dropLast := by
  unfold evict
  split
  · rename_i empty
    rw [List.getLast?_eq_none_iff.mp empty]
    rfl
  · rfl

@[simp] theorem makeRoom_maxSize (room passes : Nat) (table : HpackDynamicTable) :
    (makeRoom room passes table).maxSize = table.maxSize := by
  induction passes generalizing table with
  | zero => rfl
  | succ passes inductionHypothesis =>
    unfold makeRoom
    split
    · rw [inductionHypothesis, evict_maxSize]
    · rfl

/-- Eviction leaves a front of the entries, which are the newest. -/
theorem makeRoom_entries (room passes : Nat) (table : HpackDynamicTable) :
    (makeRoom room passes table).entries <+: table.entries := by
  induction passes generalizing table with
  | zero => exact List.prefix_rfl
  | succ passes inductionHypothesis =>
    unfold makeRoom
    split
    · refine (inductionHypothesis table.evict).trans ?_
      rw [evict_entries]
      exact List.dropLast_prefix table.entries
    · exact List.prefix_rfl

/-- With a pass for every entry, the loop ends with room or with no entries. -/
theorem makeRoom_room (room passes : Nat) (table : HpackDynamicTable)
    (enough : table.entries.length ≤ passes) :
    (makeRoom room passes table).entries = [] ∨
      (makeRoom room passes table).currentSize + room ≤ table.maxSize := by
  induction passes generalizing table with
  | zero => exact Or.inl (List.length_eq_zero_iff.mp (Nat.le_zero.mp enough))
  | succ passes inductionHypothesis =>
    unfold makeRoom
    split
    · have fewer : table.evict.entries.length ≤ passes := by
        rw [evict_entries, List.length_dropLast]
        omega
      rw [← evict_maxSize table]
      exact inductionHypothesis table.evict fewer
    · rename_i stops
      by_cases empty : table.entries = []
      · exact Or.inl empty
      · exact Or.inr (not_lt.mp fun excess => stops ⟨excess, empty⟩)

theorem makeRoom_bound (room passes : Nat) (table : HpackDynamicTable)
    (enough : table.entries.length ≤ passes) :
    (makeRoom room passes table).currentSize = 0 ∨
      (makeRoom room passes table).currentSize + room ≤ table.maxSize := by
  rw [(makeRoom room passes table).accounted, entriesSize_eq_zero_iff,
    ← (makeRoom room passes table).accounted]
  exact makeRoom_room room passes table enough

@[simp] theorem add_maxSize (table : HpackDynamicTable) (entry : Header) :
    (table.add entry).maxSize = table.maxSize := by
  unfold add
  dsimp only
  split <;> exact makeRoom_maxSize _ _ _

/-- An entry that can fit is the newest one after its insertion. -/
theorem add_entries_of_le (table : HpackDynamicTable) (entry : Header)
    (fits : entrySize entry ≤ table.maxSize) :
    ∃ kept, kept <+: table.entries ∧ (table.add entry).entries = entry :: kept := by
  refine ⟨_, makeRoom_entries (entrySize entry) table.entries.length table, ?_⟩
  unfold add
  rw [if_pos fits]

/-- An entry that cannot fit empties the table. -/
theorem add_entries_of_lt (table : HpackDynamicTable) (entry : Header)
    (large : table.maxSize < entrySize entry) : (table.add entry).entries = [] := by
  unfold add
  rw [if_neg (not_le.mpr large)]
  refine (makeRoom_room _ _ table le_rfl).resolve_right fun room => ?_
  omega

/-- An insertion leaves the table within its bound, wherever it was before. -/
theorem add_currentSize_le (table : HpackDynamicTable) (entry : Header) :
    (table.add entry).currentSize ≤ table.maxSize := by
  have room := makeRoom_bound (entrySize entry) table.entries.length table le_rfl
  unfold add
  dsimp only
  split
  · show (makeRoom _ _ table).currentSize + entrySize entry ≤ table.maxSize
    omega
  · omega

@[simp] theorem resize_maxSize (table : HpackDynamicTable) (newMaxSize : Nat) :
    (table.resize newMaxSize).maxSize = newMaxSize := by
  unfold resize
  rw [makeRoom_maxSize]

theorem resize_entries (table : HpackDynamicTable) (newMaxSize : Nat) :
    (table.resize newMaxSize).entries <+: table.entries :=
  makeRoom_entries 0 table.entries.length _

/-- A resize leaves the table within its new bound. -/
theorem resize_currentSize_le (table : HpackDynamicTable) (newMaxSize : Nat) :
    (table.resize newMaxSize).currentSize ≤ newMaxSize := by
  have room := makeRoom_bound 0 table.entries.length { table with maxSize := newMaxSize } le_rfl
  unfold resize
  dsimp only at room
  omega

theorem resize_zero_entries (table : HpackDynamicTable) : (table.resize 0).entries = [] := by
  rw [← entriesSize_eq_zero_iff, ← (table.resize 0).accounted]
  exact Nat.le_zero.mp (resize_currentSize_le table 0)

@[simp] theorem foldl_add_maxSize (entries : Headers) (table : HpackDynamicTable) :
    (entries.foldl add table).maxSize = table.maxSize := by
  induction entries generalizing table with
  | nil => rfl
  | cons entry entries inductionHypothesis => rw [List.foldl_cons, inductionHypothesis, add_maxSize]

end HpackDynamicTable

end AsyncNet.Http.H2
