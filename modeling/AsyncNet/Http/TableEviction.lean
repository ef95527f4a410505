/-
This file says what the dynamic tables of HPACK and QPACK hold after any calls of `add` and
`resize`, or of `insert` and `set_max_size`. The two standards describe one table: a limit and the
live entries, newest first. An entry that fits is put in front of the newest entries that leave it
room, an entry larger than the limit empties the table, and a new limit keeps the newest entries
within it. The loops of the source evict one oldest entry at a time until the recorded size
leaves room, which ends at those entries. The sizes are those of strings that are in memory at
once, so their sums stay below the range of `size_t`.
-/

import AsyncNet.Http.HpackTable
import AsyncNet.Http.QpackReference

namespace AsyncNet.Http

open H2 H3 Reference

/-! ### The newest entries that fit -/

/-- No entry is left out that could stay: every front of the entries that fits is kept. -/
theorem isPrefix_newest_iff (room : Nat) (front entries : List Header) :
    front <+: newest room entries ↔ front <+: entries ∧ entriesSize front ≤ room := by
  induction entries generalizing room front with
  | nil =>
    rw [newest, List.prefix_nil]
    refine ⟨?_, And.left⟩
    rintro rfl
    exact ⟨rfl, Nat.zero_le _⟩
  | cons entry older inductionHypothesis =>
    cases front with
    | nil => simp [entriesSize]
    | cons first front =>
      have size : entriesSize (first :: front) = entrySize first + entriesSize front := by
        simp [entriesSize]
      rw [newest]
      split
      · rw [List.cons_prefix_cons, List.cons_prefix_cons, inductionHypothesis]
        refine ⟨?_, ?_⟩
        · rintro ⟨rfl, isPrefix, small⟩
          exact ⟨⟨rfl, isPrefix⟩, by omega⟩
        · rintro ⟨⟨rfl, isPrefix⟩, small⟩
          exact ⟨rfl, isPrefix, by omega⟩
      · rw [List.prefix_nil, List.cons_prefix_cons]
        refine iff_of_false (List.cons_ne_nil _ _) ?_
        rintro ⟨⟨rfl, _⟩, small⟩
        omega

theorem newest_of_le (room : Nat) (entries : List Header) (fits : entriesSize entries ≤ room) :
    newest room entries = entries := by
  induction entries generalizing room with
  | nil => rfl
  | cons entry older inductionHypothesis =>
    have size : entriesSize (entry :: older) = entrySize entry + entriesSize older := by
      simp [entriesSize]
    rw [newest, if_pos (by omega), inductionHypothesis _ (by omega)]

/-- The oldest entry is not among the newest that fit, if not all do. -/
theorem newest_dropLast (room : Nat) (entries : List Header) (excess : room < entriesSize entries) :
    newest room entries.dropLast = newest room entries := by
  induction entries generalizing room with
  | nil => rfl
  | cons entry older inductionHypothesis =>
    have size : entriesSize (entry :: older) = entrySize entry + entriesSize older := by
      simp [entriesSize]
    cases older with
    | nil =>
      rw [entriesSize_nil] at size
      rw [List.dropLast_singleton, newest, newest, if_neg (by omega)]
    | cons next older =>
      rw [List.dropLast_cons_cons, newest, newest]
      by_cases fits : entrySize entry ≤ room
      · rw [if_pos fits, if_pos fits, inductionHypothesis _ (by omega)]
      · rw [if_neg fits, if_neg fits]

namespace H2.HpackDynamicTable

/-- The eviction loop leaves the newest entries that fit. -/
theorem makeRoom_entries_eq (room passes : Nat) (table : HpackDynamicTable)
    (possible : room ≤ table.maxSize) (enough : table.entries.length ≤ passes) :
    (makeRoom room passes table).entries =
      newest (table.maxSize - room) table.entries := by
  induction passes generalizing table with
  | zero =>
    have empty := List.length_eq_zero_iff.mp (Nat.le_zero.mp enough)
    rw [makeRoom, empty]
    rfl
  | succ passes inductionHypothesis =>
    have accounted := table.accounted
    unfold makeRoom
    split
    · rename_i excess
      have fewer : table.evict.entries.length ≤ passes := by
        rw [evict_entries, List.length_dropLast]
        omega
      rw [inductionHypothesis table.evict (by rwa [evict_maxSize]) fewer,
        evict_maxSize, evict_entries,
        newest_dropLast _ _ (by omega)]
    · rename_i stops
      by_cases empty : table.entries = []
      · rw [empty]
        rfl
      · have fits : table.currentSize + room ≤ table.maxSize :=
          not_lt.mp fun excess => stops ⟨excess, empty⟩
        rw [newest_of_le _ _ (by omega)]

theorem add_entries_eq (table : HpackDynamicTable) (entry : Header)
    (fits : entrySize entry ≤ table.maxSize) :
    (table.add entry).entries =
      entry :: newest (table.maxSize - entrySize entry) table.entries := by
  unfold add
  rw [if_pos fits]
  exact congrArg (entry :: ·) (makeRoom_entries_eq _ _ table fits le_rfl)

theorem resize_entries_eq (table : HpackDynamicTable) (newMaxSize : Nat) :
    (table.resize newMaxSize).entries = newest newMaxSize table.entries :=
  makeRoom_entries_eq 0 _ { table with maxSize := newMaxSize } (Nat.zero_le _) le_rfl

end H2.HpackDynamicTable

/-! ### Runs of calls -/

/-- A call that changes a dynamic table: `add` or `insert`, and `resize` or `set_max_size`. -/
inductive TableCall where
  | add (name value : Bytes)
  | resize (newMaxSize : Nat)
  deriving DecidableEq

def H2.HpackDynamicTable.call (table : HpackDynamicTable) : TableCall → HpackDynamicTable
  | .add name value => table.add (name, value)
  | .resize newMaxSize => table.resize newMaxSize

def H3.QpackDynamicTable.call (dynamicTable : QpackDynamicTable) : TableCall → QpackDynamicTable
  | .add name value => dynamicTable.insert name value
  | .resize newMaxSize => dynamicTable.setMaxSize newMaxSize

/-- The table of the standards: its limit and the live entries, newest first. -/
structure ReferenceTable where
  limit : Nat
  live : List Header := []
  deriving DecidableEq

namespace ReferenceTable

/-- What a call leaves. Room is made for an entry before it is added. -/
def call (table : ReferenceTable) : TableCall → ReferenceTable
  | .add name value =>
      let size := entrySize (name, value)
      if size ≤ table.limit then
        { table with live := (name, value) :: newest (table.limit - size) table.live }
      else { table with live := [] }
  | .resize newMaxSize => { limit := newMaxSize, live := newest newMaxSize table.live }

end ReferenceTable

/-- A dynamic table of the source is the one of the standards and its size is accounted for. -/
structure Represents (table : HpackDynamicTable) (reference : ReferenceTable) : Prop where
  size : table.currentSize = entriesSize table.entries
  bounded : table.currentSize ≤ table.maxSize
  limit : table.maxSize = reference.limit
  entries : table.entries = reference.live

namespace Represents

theorem initial (maxSize : Nat) : Represents { maxSize } { limit := maxSize } where
  size := rfl
  bounded := Nat.zero_le _
  limit := rfl
  entries := rfl

theorem call (table : HpackDynamicTable) (reference : ReferenceTable) (call : TableCall)
    (before : Represents table reference) : Represents (table.call call) (reference.call call) := by
  obtain ⟨_, _, limit, entries⟩ := before
  cases call with
  | add name value =>
    refine ⟨(table.add (name, value)).accounted, ?_, ?_, ?_⟩
    · show (table.add (name, value)).currentSize ≤ (table.add (name, value)).maxSize
      rw [HpackDynamicTable.add_maxSize]
      exact table.add_currentSize_le (name, value)
    · show (table.add (name, value)).maxSize = _
      rw [HpackDynamicTable.add_maxSize, limit, ReferenceTable.call]
      split <;> rfl
    · show (table.add (name, value)).entries = _
      rw [ReferenceTable.call, ← limit, ← entries]
      split
      · rename_i fits
        exact table.add_entries_eq (name, value) fits
      · rename_i large
        exact table.add_entries_of_lt (name, value) (not_le.mp large)
  | resize newMaxSize =>
    refine ⟨(table.resize newMaxSize).accounted, ?_, table.resize_maxSize newMaxSize, ?_⟩
    · show (table.resize newMaxSize).currentSize ≤ (table.resize newMaxSize).maxSize
      rw [HpackDynamicTable.resize_maxSize]
      exact table.resize_currentSize_le newMaxSize
    · show (table.resize newMaxSize).entries = newest newMaxSize reference.live
      rw [table.resize_entries_eq, entries]

theorem calls (calls : List TableCall) (table : HpackDynamicTable) (reference : ReferenceTable)
    (before : Represents table reference) :
    Represents (calls.foldl HpackDynamicTable.call table)
      (calls.foldl ReferenceTable.call reference) := by
  induction calls generalizing table reference with
  | nil => exact before
  | cons first calls inductionHypothesis =>
    exact inductionHypothesis _ _ (before.call table reference first)

end Represents

theorem H3.QpackDynamicTable.foldl_call_table (calls : List TableCall)
    (dynamicTable : QpackDynamicTable) :
    (calls.foldl QpackDynamicTable.call dynamicTable).table =
      calls.foldl HpackDynamicTable.call dynamicTable.table := by
  induction calls generalizing dynamicTable with
  | nil => rfl
  | cons first calls inductionHypothesis =>
    rw [List.foldl_cons, inductionHypothesis, List.foldl_cons]
    cases first <;> rfl

/-- After any calls both dynamic tables hold what the standards say. -/
theorem dynamicTables_represent (maxSize : Nat) (calls : List TableCall) :
    Represents (calls.foldl HpackDynamicTable.call { maxSize })
        (calls.foldl ReferenceTable.call { limit := maxSize }) ∧
      Represents (calls.foldl QpackDynamicTable.call {}).table
        (calls.foldl ReferenceTable.call { limit := 4096 }) := by
  refine ⟨(Represents.initial maxSize).calls calls _ _, ?_⟩
  rw [H3.QpackDynamicTable.foldl_call_table]
  exact (Represents.initial 4096).calls calls _ _

end AsyncNet.Http
