/-
This file is about parsers that take one item off the front of a buffer that grows. A frame
of an item is read when the buffer holds all of it, whatever follows, and is waited for
until then. A parser can be driven in two ways: the bytes are pushed to it, and it takes all
that the buffer holds, or it pulls bytes until it has an item. However the frames of a list
of items are cut into pieces, both ways find the items, one after the other and each when
its last byte has come.
-/

import Mathlib.Data.List.Basic

namespace AsyncNet.Library

universe u v w

variable {Symbol : Type u} {Item : Type v} {Failure : Type w}

/-- A parser of an item at the front of a buffer: nothing while there is none, else the item and
what follows it. -/
abbrev FrontParser (Symbol : Type u) (Item : Type v) (Failure : Type w) :=
  List Symbol → Except Failure (Option (Item × List Symbol))

variable {parse : FrontParser Symbol Item Failure}

/-- The symbols that a parser reads as an item. -/
structure Frames (parse : FrontParser Symbol Item Failure) (item : Item) (frame : List Symbol) :
    Prop where
  whole : ∀ rest, parse (frame ++ rest) = .ok (some (item, rest))
  incomplete : ∀ front more, front ++ more = frame → more ≠ [] → parse front = .ok none

theorem Frames.ne_nil {item : Item} {frame : List Symbol} (frames : Frames parse item frame)
    (empty : parse [] = .ok none) : frame ≠ [] := by
  rintro rfl
  have found := frames.whole []
  rw [List.append_nil, empty] at found
  cases found

/-- The items of a list whose frames are within a number of symbols. -/
def arrived (encode : Item → List Symbol) : List Item → Nat → List Item
  | [], _ => []
  | item :: items, count =>
      if (encode item).length ≤ count then
        item :: arrived encode items (count - (encode item).length)
      else []

section Arrived

variable {encode : Item → List Symbol}

/-- The items have arrived that are followed by less than a whole frame. -/
theorem arrived_append (taken left : List Item) (count : Nat)
    (short : ∀ item ∈ left.head?, count < (encode item).length) :
    arrived encode (taken ++ left) ((taken.flatMap encode).length + count) = taken := by
  induction taken with
  | nil =>
    rw [List.flatMap_nil, List.length_nil, Nat.zero_add, List.nil_append]
    cases left with
    | nil => rfl
    | cons item items =>
      rw [arrived, if_neg (Nat.not_le_of_lt (short item rfl))]
  | cons item taken inductionHypothesis =>
    rw [List.flatMap_cons, List.length_append, List.cons_append, arrived, if_pos (by omega),
      show (encode item).length + (taken.flatMap encode).length + count - (encode item).length =
        (taken.flatMap encode).length + count by omega, inductionHypothesis]

end Arrived

/-! ### Pushing -/

/-- The items at the front of a buffer, and what is left of it. -/
def drain (parse : FrontParser Symbol Item Failure) :
    Nat → List Symbol → Except Failure (List Item × List Symbol)
  | 0, buffer => .ok ([], buffer)
  | passes + 1, buffer => do
      match ← parse buffer with
      | none => return ([], buffer)
      | some (item, rest) =>
          let (items, rest) ← drain parse passes rest
          return (item :: items, rest)

/-- A buffer that holds the beginning of the frames of some items: the items that it holds whole
are taken, and less than a frame is left. -/
theorem drain_frames {encode : Item → List Symbol} (items : List Item)
    (frames : ∀ item ∈ items, Frames parse item (encode item)) (empty : parse [] = .ok none)
    (passes : Nat) (buffer rest : List Symbol) (stream : buffer ++ rest = items.flatMap encode)
    (enough : buffer.length ≤ passes) :
    ∃ taken left buffer', items = taken ++ left ∧ buffer = taken.flatMap encode ++ buffer' ∧
      drain parse (passes + 1) buffer = .ok (taken, buffer') ∧
      ∀ item ∈ left.head?, buffer'.length < (encode item).length := by
  induction items generalizing passes buffer with
  | nil =>
    obtain ⟨rfl, _⟩ := List.append_eq_nil_iff.mp stream
    refine ⟨[], [], [], rfl, rfl, ?_, nofun⟩
    rw [drain, empty]
    rfl
  | cons item items inductionHypothesis =>
    have frame := frames item List.mem_cons_self
    rw [List.flatMap_cons] at stream
    by_cases held : (encode item).length ≤ buffer.length
    · have begins : encode item <+: buffer :=
        List.prefix_of_prefix_length_le (List.prefix_append _ _)
          (stream ▸ List.prefix_append buffer rest) held
      obtain ⟨later, rfl⟩ := begins
      have positive := List.length_pos_of_ne_nil (frame.ne_nil empty)
      rw [List.append_assoc, List.append_cancel_left_eq] at stream
      rw [List.length_append] at enough
      obtain ⟨fewer, rfl⟩ := Nat.exists_eq_succ_of_ne_zero (n := passes) (by omega)
      obtain ⟨taken, left, buffer', rfl, rfl, run, short⟩ :=
        inductionHypothesis (fun other member => frames other (List.mem_cons_of_mem _ member))
          fewer later stream (by omega)
      refine ⟨item :: taken, left, buffer', rfl, ?_, ?_, short⟩
      · rw [List.flatMap_cons, List.append_assoc]
      · rw [drain, frame.whole]
        simp only [bind, Except.bind, run]
        rfl
    · refine ⟨[], item :: items, buffer, rfl, rfl, ?_, ?_⟩
      · obtain ⟨more, whole⟩ : buffer <+: encode item :=
          List.prefix_of_prefix_length_le (stream ▸ List.prefix_append buffer rest)
            (List.prefix_append _ _) (Nat.le_of_not_le held)
        have unfinished : more ≠ [] := by
          rintro rfl
          rw [← whole, List.append_nil] at held
          exact held (Nat.le_refl _)
        rw [drain, frame.incomplete buffer more whole unfinished]
        rfl
      · intro other member
        cases Option.mem_some.mp member
        exact Nat.lt_of_not_le held

/-! ### Pulling -/

/-- Pieces are added to a buffer until it holds an item: the item, the buffer and the pieces that
are left, or nothing if there are no more pieces. -/
def pull (parse : FrontParser Symbol Item Failure) :
    List (List Symbol) → List Symbol →
      Except Failure (Option (Item × List Symbol × List (List Symbol)))
  | [], buffer => do
      match ← parse buffer with
      | none => return none
      | some (item, rest) => return some (item, rest, [])
  | piece :: pieces, buffer => do
      match ← parse buffer with
      | none => pull parse pieces (buffer ++ piece)
      | some (item, rest) => return some (item, rest, piece :: pieces)

theorem pull_found {item : Item} {buffer rest : List Symbol} (pieces : List (List Symbol))
    (found : parse buffer = .ok (some (item, rest))) :
    pull parse pieces buffer = .ok (some (item, rest, pieces)) := by
  cases pieces with
  | nil =>
    rw [pull, found]
    rfl
  | cons piece pieces =>
    rw [pull, found]
    rfl

/-- An item whose frame comes next is found, wherever the pieces are cut. -/
theorem pull_frame {item : Item} {frame : List Symbol} (frames : Frames parse item frame)
    (pieces : List (List Symbol)) (buffer later : List Symbol)
    (stream : buffer ++ pieces.flatten = frame ++ later) :
    ∃ buffer' pieces', pull parse pieces buffer = .ok (some (item, buffer', pieces')) ∧
      buffer' ++ pieces'.flatten = later ∧ pieces' <:+ pieces := by
  induction pieces generalizing buffer with
  | nil =>
    rw [List.flatten_nil, List.append_nil] at stream
    refine ⟨later, [], ?_, by rw [List.flatten_nil, List.append_nil], List.suffix_rfl⟩
    rw [stream]
    exact pull_found [] (frames.whole later)
  | cons piece pieces inductionHypothesis =>
    rcases List.append_eq_append_iff.mp stream with ⟨more, whole, rest⟩ | ⟨rest, held, ahead⟩
    · by_cases finished : more = []
      · subst finished
        rw [List.append_nil] at whole
        refine ⟨[], piece :: pieces, ?_, rest, List.suffix_rfl⟩
        have found := frames.whole []
        rw [List.append_nil, whole] at found
        exact pull_found _ found
      · rw [pull, frames.incomplete buffer more whole.symm finished]
        rw [List.flatten_cons, ← List.append_assoc] at stream
        obtain ⟨buffer', pieces', found, left, isSuffix⟩ :=
          inductionHypothesis (buffer ++ piece) stream
        exact ⟨buffer', pieces', found, left, isSuffix.trans (List.suffix_cons piece pieces)⟩
    · refine ⟨rest, piece :: pieces, ?_, ahead.symm, List.suffix_rfl⟩
      rw [held]
      exact pull_found _ (frames.whole rest)

/-- Nothing is found where nothing comes. -/
theorem pull_nil (empty : parse [] = .ok none) (pieces : List (List Symbol))
    (buffer : List Symbol) (stream : buffer ++ pieces.flatten = []) :
    pull parse pieces buffer = .ok none := by
  obtain ⟨rfl, nothing⟩ := List.append_eq_nil_iff.mp stream
  induction pieces with
  | nil =>
    rw [pull, empty]
    rfl
  | cons piece pieces inductionHypothesis =>
    rw [List.flatten_cons] at nothing
    obtain ⟨rfl, rest⟩ := List.append_eq_nil_iff.mp nothing
    rw [pull, empty]
    exact inductionHypothesis rest rest

/-! ### Sums that wrap -/

/-- A header is followed by as much as it declares, and the sum of the two lengths wraps. A test
with that sum takes what wraps for complete, so that only a test with the sum itself finds what
would be read past the end. -/
theorem test_wrapping_sum {Result : Type u} {header modulus declared : Nat}
    (small : declared < modulus) (fits : header ≤ modulus) (size : Nat)
    (nothing fault result : Result) :
    (if size < header then nothing
      else if size < (header + declared) % modulus then nothing
      else if size < header + declared then fault else result) =
      if header ≤ size ∧ header + declared ≤ size then result
      else if header ≤ size ∧ modulus - header ≤ declared then fault else nothing := by
  by_cases cut : size < header
  · rw [if_pos cut, if_neg fun whole => Nat.not_le.mpr cut whole.1,
      if_neg fun wide => Nat.not_le.mpr cut wide.1]
  have headed := Nat.not_lt.mp cut
  rw [if_neg cut]
  by_cases short : size < header + declared
  · rw [if_neg fun whole : header ≤ size ∧ _ => Nat.not_le.mpr short whole.2, if_pos short]
    by_cases large : modulus - header ≤ declared
    · have wrapped : (header + declared) % modulus = header + declared - modulus := by
        rw [Nat.mod_eq_sub_mod (by omega), Nat.mod_eq_of_lt (by omega)]
      rw [if_neg (by omega), if_pos ⟨headed, large⟩]
    · rw [Nat.mod_eq_of_lt (by omega), if_pos short, if_neg fun wide => large wide.2]
  · have most : (header + declared) % modulus ≤ header + declared := Nat.mod_le _ _
    rw [if_neg (by omega), if_neg short, if_pos ⟨headed, Nat.not_lt.mp short⟩]

end AsyncNet.Library
