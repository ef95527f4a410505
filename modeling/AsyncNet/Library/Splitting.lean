/-
This file is about a text that is cut at a separator of one element: at its first occurrence, at
its last one, or at all of them. What decides is where the separator does not occur, so a text
that is put together from parts without it is cut into these parts again.
-/

import AsyncNet.Library.Search
import Mathlib.Data.List.TakeWhile

namespace AsyncNet.Library

universe u

variable {Element : Type u} [DecidableEq Element]

/-- The position of the last occurrence of an element. -/
def lastIndexOf (element : Element) : List Element → Option Nat
  | [] => none
  | head :: tail =>
      match lastIndexOf element tail with
      | some position => some (position + 1)
      | none => if head = element then some 0 else none

section Separators

variable {separator : Element} {text front back : List Element}

theorem indexOf_singleton_of_not_mem (absent : separator ∉ text) :
    indexOf [separator] text = none := by
  have found := @indexOf_of_not_mem _ _ separator [] text absent []
  rwa [List.append_nil] at found

theorem indexOf_singleton_append (absent : separator ∉ front) (back : List Element) :
    indexOf [separator] (front ++ separator :: back) = some front.length :=
  @indexOf_first _ _ separator [] front absent back

omit [DecidableEq Element] in
/-- What stands behind a separator. -/
theorem drop_append_cons (front : List Element) (separator : Element) (back : List Element) :
    (front ++ separator :: back).drop (front.length + 1) = back :=
  List.drop_length_add_append 1

theorem takeWhile_ne_of_not_mem (absent : separator ∉ text) :
    text.takeWhile (· ≠ separator) = text :=
  List.takeWhile_eq_self_iff.mpr fun _ member =>
    decide_eq_true fun same => absent (same ▸ member)

theorem dropWhile_ne_of_not_mem (absent : separator ∉ text) :
    text.dropWhile (· ≠ separator) = [] :=
  List.dropWhile_eq_nil_iff.mpr fun _ member =>
    decide_eq_true fun same => absent (same ▸ member)

theorem takeWhile_ne_append (absent : separator ∉ front) (back : List Element) :
    (front ++ separator :: back).takeWhile (· ≠ separator) = front := by
  have plain : ∀ element ∈ front, decide (element ≠ separator) = true := fun _ member =>
    decide_eq_true fun same => absent (same ▸ member)
  have stops : (separator :: back).takeWhile (· ≠ separator) = [] :=
    List.takeWhile_cons_of_neg fun wrong => of_decide_eq_true wrong rfl
  rw [List.takeWhile_append_of_pos plain, stops, List.append_nil]

theorem dropWhile_ne_append (absent : separator ∉ front) (back : List Element) :
    (front ++ separator :: back).dropWhile (· ≠ separator) = separator :: back := by
  have plain : ∀ element ∈ front, decide (element ≠ separator) = true := fun _ member =>
    decide_eq_true fun same => absent (same ▸ member)
  rw [List.dropWhile_append_of_pos plain]
  exact List.dropWhile_cons_of_neg fun wrong => of_decide_eq_true wrong rfl

theorem lastIndexOf_of_not_mem (absent : separator ∉ text) : lastIndexOf separator text = none := by
  induction text with
  | nil => rfl
  | cons head tail inductionHypothesis =>
    obtain ⟨differs, later⟩ := not_or.mp (List.mem_cons.not.mp absent)
    rw [lastIndexOf, inductionHypothesis later]
    exact if_neg (Ne.symm differs)

theorem lastIndexOf_append (front : List Element) (absent : separator ∉ back) :
    lastIndexOf separator (front ++ separator :: back) = some front.length := by
  induction front with
  | nil =>
    rw [List.nil_append, lastIndexOf, lastIndexOf_of_not_mem absent]
    exact if_pos rfl
  | cons head front inductionHypothesis =>
    rw [List.cons_append, lastIndexOf, inductionHypothesis]
    rfl

/-- An element that occurs has a last occurrence. -/
theorem exists_append_of_last (member : separator ∈ text) :
    ∃ front back, text = front ++ separator :: back ∧ separator ∉ back := by
  induction text with
  | nil => cases member
  | cons head tail inductionHypothesis =>
    by_cases later : separator ∈ tail
    · obtain ⟨front, back, rfl, absent⟩ := inductionHypothesis later
      exact ⟨head :: front, back, rfl, absent⟩
    · rcases List.mem_cons.mp member with rfl | inside
      · exact ⟨[], tail, rfl, later⟩
      · exact absurd inside later

/-- A text is a part without the separator, or such a part, the separator and what follows. -/
theorem eq_or_eq_append_cons (separator : Element) (text : List Element) :
    separator ∉ text ∨ ∃ front back, text = front ++ separator :: back ∧ separator ∉ front := by
  by_cases member : separator ∈ text
  · exact Or.inr (List.eq_append_cons_of_mem member)
  · exact Or.inl member

/-- What holds of a part without the separator, and of such a part before a text of which it holds,
holds of every text. -/
theorem separator_induction {motive : List Element → Prop} (separator : Element)
    (last : ∀ text, separator ∉ text → motive text)
    (cut : ∀ front back, separator ∉ front → motive back → motive (front ++ separator :: back))
    (text : List Element) : motive text := by
  induction length : text.length using Nat.strong_induction_on generalizing text with
  | _ size inductionHypothesis =>
    rcases eq_or_eq_append_cons separator text with absent | ⟨front, back, rfl, absent⟩
    · exact last text absent
    · rw [List.length_append, List.length_cons] at length
      exact cut front back absent (inductionHypothesis back.length (by omega) back rfl)

/-- A pattern without the separator that is not in the first part is looked for behind it. -/
theorem indexOf_append_separator {pattern : List Element} (plain : separator ∉ pattern)
    (nonempty : pattern ≠ []) (nothing : indexOf pattern front = none) (back : List Element) :
    indexOf pattern (front ++ separator :: back) =
      (indexOf pattern back).map (· + (front.length + 1)) := by
  induction front with
  | nil =>
    have notHere : ¬ pattern <+: separator :: back := by
      intro here
      cases pattern with
      | nil => exact nonempty rfl
      | cons head rest =>
        rw [(List.cons_prefix_cons.mp here).1] at plain
        exact plain List.mem_cons_self
    rw [List.nil_append, indexOf, if_neg notHere]
    rfl
  | cons head front inductionHypothesis =>
    rw [indexOf] at nothing
    split at nothing
    · cases nothing
    · rename_i notBefore
      have notHere : ¬ pattern <+: head :: (front ++ separator :: back) := by
        intro here
        have begins : head :: front ++ [separator] <+: head :: (front ++ separator :: back) :=
          ⟨back, by rw [List.append_assoc]; rfl⟩
        rcases List.prefix_or_prefix_of_prefix here begins with inside | past
        · rcases List.prefix_concat_iff.mp inside with rfl | before
          · exact plain (List.mem_append_right _ List.mem_cons_self)
          · exact notBefore before
        · exact plain (past.subset (List.mem_append_right _ List.mem_cons_self))
      rw [List.cons_append, indexOf, if_neg notHere,
        inductionHypothesis (Option.map_eq_none_iff.mp nothing), Option.map_map]
      rfl

end Separators

end AsyncNet.Library
