/-
This file is about the first occurrence of a pattern in a list, as a search through a
string finds it. What decides whether a pattern occurs at a position are the elements
from there to its end, so an occurrence that is found stays the first one when the list
grows, and a prefix of the list that holds all of an occurrence has it at the same place.
-/

import Mathlib.Data.List.Infix

namespace AsyncNet.Library

universe u

variable {Element : Type u} [DecidableEq Element]

/-- The position of the first occurrence of a pattern. -/
def indexOf (pattern : List Element) : List Element → Option Nat
  | [] => if pattern = [] then some 0 else none
  | head :: tail =>
      if pattern <+: head :: tail then some 0 else (indexOf pattern tail).map (· + 1)

section Occurrences

variable {pattern text : List Element} {position : Nat}

/-- A pattern occurs where it is found. -/
theorem prefix_drop_of_indexOf (found : indexOf pattern text = some position) :
    pattern <+: text.drop position := by
  induction text generalizing position with
  | nil =>
    rw [indexOf] at found
    split at found
    · rename_i empty
      rw [empty]
      exact List.nil_prefix
    · cases found
  | cons head tail inductionHypothesis =>
    rw [indexOf] at found
    split at found
    · rename_i here
      cases found
      exact here
    · obtain ⟨before, later, rfl⟩ := Option.map_eq_some_iff.mp found
      exact inductionHypothesis later

theorem indexOf_add_length_le (found : indexOf pattern text = some position)
    (nonempty : pattern ≠ []) :
    position + pattern.length ≤ text.length := by
  have occurs := (prefix_drop_of_indexOf found).length_le
  rw [List.length_drop] at occurs
  have positive := List.length_pos_of_ne_nil nonempty
  omega

/-- A pattern that is found in a list is found at the same place when the list grows. -/
theorem indexOf_append (found : indexOf pattern text = some position) (nonempty : pattern ≠ [])
    (more : List Element) : indexOf pattern (text ++ more) = some position := by
  induction text generalizing position with
  | nil =>
    rw [indexOf, if_neg nonempty] at found
    cases found
  | cons head tail inductionHypothesis =>
    have fits := indexOf_add_length_le found nonempty
    rw [indexOf] at found
    rw [List.cons_append, indexOf]
    split at found
    · rename_i here
      have stillHere : pattern <+: head :: (tail ++ more) :=
        here.trans (List.prefix_append (head :: tail) more)
      rw [if_pos stillHere]
      exact found
    · rename_i notHere
      obtain ⟨before, later, rfl⟩ := Option.map_eq_some_iff.mp found
      have stillNotHere : ¬ pattern <+: head :: (tail ++ more) := by
        intro here
        refine notHere (List.prefix_of_prefix_length_le here ?_ ?_)
        · exact List.prefix_append (head :: tail) more
        · exact (Nat.le_add_left _ _).trans fits
      rw [if_neg stillNotHere, inductionHypothesis later]
      rfl

/-- A prefix of a list in which the pattern is found has it where the list has it. -/
theorem indexOf_unique {whole : List Element} {first : Nat}
    (isPrefix : text <+: whole) (nonempty : pattern ≠ [])
    (found : indexOf pattern whole = some first) (here : indexOf pattern text = some position) :
    position = first := by
  obtain ⟨more, rfl⟩ := isPrefix
  rw [indexOf_append here nonempty more] at found
  exact Option.some_inj.mp found

/-- A prefix of a list that begins with a front and the first occurrence of the pattern: it holds
no occurrence yet, or all of the front and of the pattern. -/
theorem indexOf_prefix_cases {front more : List Element} (nonempty : pattern ≠ [])
    (first : indexOf pattern (front ++ pattern) = some front.length)
    (isPrefix : text <+: front ++ pattern ++ more) :
    indexOf pattern text = none ∨ ∃ rest, text = front ++ pattern ++ rest ∧ rest <+: more := by
  cases found : indexOf pattern text with
  | none => exact Or.inl rfl
  | some position =>
    have same := indexOf_unique isPrefix nonempty (indexOf_append first nonempty more) found
    have fits := indexOf_add_length_le found nonempty
    have begins : front ++ pattern <+: text := by
      refine List.prefix_of_prefix_length_le (List.prefix_append _ more) isPrefix ?_
      rw [List.length_append, ← same]
      exact fits
    obtain ⟨rest, rfl⟩ := begins
    exact Or.inr ⟨rest, rfl, (List.prefix_append_right_inj _).mp isPrefix⟩

/-- A prefix that is long enough has the first occurrence. -/
theorem indexOf_isPrefix {whole : List Element} (isPrefix : text <+: whole)
    (nonempty : pattern ≠ []) (found : indexOf pattern whole = some position)
    (long : position + pattern.length ≤ text.length) : indexOf pattern text = some position := by
  induction text generalizing whole position with
  | nil =>
    have positive := List.length_pos_of_ne_nil nonempty
    rw [List.length_nil] at long
    omega
  | cons head tail inductionHypothesis =>
    obtain ⟨more, rfl⟩ := isPrefix
    rw [List.cons_append, indexOf] at found
    rw [indexOf]
    split at found
    · rename_i here
      cases found
      have begins : pattern <+: head :: tail :=
        List.prefix_of_prefix_length_le here (List.prefix_append (head :: tail) more) (by omega)
      rw [if_pos begins]
    · rename_i notHere
      obtain ⟨before, later, rfl⟩ := Option.map_eq_some_iff.mp found
      have stillNotHere : ¬ pattern <+: head :: tail := fun here =>
        notHere (here.trans (List.prefix_append (head :: tail) more))
      rw [List.length_cons] at long
      rw [if_neg stillNotHere,
        inductionHypothesis (List.prefix_append tail more) later (by omega)]
      rfl

/-- A pattern that occurs is found, there or before. -/
theorem exists_indexOf_le (occurs : pattern <+: text.drop position) (nonempty : pattern ≠ []) :
    ∃ first ≤ position, indexOf pattern text = some first := by
  induction text generalizing position with
  | nil =>
    rw [List.drop_nil] at occurs
    exact absurd (List.prefix_nil.mp occurs) nonempty
  | cons head tail inductionHypothesis =>
    rw [indexOf]
    split
    · exact ⟨0, Nat.zero_le _, rfl⟩
    · rename_i notHere
      cases position with
      | zero => exact absurd occurs notHere
      | succ position =>
        obtain ⟨first, before, found⟩ := inductionHypothesis occurs
        exact ⟨first + 1, Nat.succ_le_succ before, by rw [found]; rfl⟩

/-- What is before the first occurrence and behind it. -/
theorem exists_append_of_indexOf (found : indexOf pattern text = some position)
    (nonempty : pattern ≠ []) :
    ∃ front rest, text = front ++ pattern ++ rest ∧ front.length = position ∧
      indexOf pattern (front ++ pattern) = some front.length := by
  have fits := indexOf_add_length_le found nonempty
  obtain ⟨rest, occurs⟩ := prefix_drop_of_indexOf found
  have length : (text.take position).length = position := List.length_take_of_le (by omega)
  have whole : text = text.take position ++ pattern ++ rest := by
    rw [List.append_assoc, occurs, List.take_append_drop]
  refine ⟨text.take position, rest, whole, length, ?_⟩
  rw [length]
  exact indexOf_isPrefix ⟨rest, whole.symm⟩ nonempty found (by rw [List.length_append, length])

/-- A pattern is not found before its first element. -/
theorem indexOf_of_not_mem {first : Element} {rest front : List Element} (absent : first ∉ front)
    (text : List Element) :
    indexOf (first :: rest) (front ++ text) =
      (indexOf (first :: rest) text).map (· + front.length) := by
  induction front with
  | nil => exact Option.map_id'.symm
  | cons head front inductionHypothesis =>
    obtain ⟨differs, later⟩ := not_or.mp (List.mem_cons.not.mp absent)
    have notHere : ¬ first :: rest <+: head :: (front ++ text) := fun here =>
      differs (List.cons_prefix_cons.mp here).1
    rw [List.cons_append, indexOf, if_neg notHere, inductionHypothesis later, Option.map_map]
    rfl

/-- A pattern is found at its first element. -/
theorem indexOf_first {first : Element} {rest front : List Element} (absent : first ∉ front)
    (text : List Element) :
    indexOf (first :: rest) (front ++ first :: (rest ++ text)) = some front.length := by
  have here : indexOf (first :: rest) (first :: (rest ++ text)) = some 0 := by
    have begins : first :: rest <+: first :: (rest ++ text) :=
      List.prefix_append (first :: rest) text
    rw [indexOf, if_pos begins]
  rw [indexOf_of_not_mem absent, here, Option.map_some, Nat.zero_add]

end Occurrences

end AsyncNet.Library
