/-
This file is about a stream that arrives in segments and is read through a buffer. A read
brings what the buffer has room for of the segment that has arrived first, and it brings
nothing only after the last one. Whatever a reader does with what it has read, it has read
a prefix of the stream, and the rest of the stream is still to come.
-/

import Mathlib.Data.List.Basic

namespace AsyncNet.Library

universe u

variable {Symbol : Type u}

/-- What a read with a buffer of the given size brings, and the segments that are left. -/
def readSome (size : Nat) : List (List Symbol) → List Symbol × List (List Symbol)
  | [] => ([], [])
  | [] :: segments => readSome size segments
  | (symbol :: symbols) :: segments =>
      ((symbol :: symbols).take size, (symbol :: symbols).drop size :: segments)

theorem readSome_append (size : Nat) (segments : List (List Symbol)) :
    (readSome size segments).1 ++ (readSome size segments).2.flatten = segments.flatten := by
  induction segments with
  | nil => rfl
  | cons segment segments inductionHypothesis =>
    cases segment with
    | nil => exact inductionHypothesis
    | cons symbol symbols =>
      rw [readSome, List.flatten_cons, List.flatten_cons, ← List.append_assoc,
        List.take_append_drop]

/-- A read brings nothing only when nothing is left to come. -/
theorem readSome_eq_nil (size : Nat) (room : 0 < size) (segments : List (List Symbol))
    (nothing : (readSome size segments).1 = []) : segments.flatten = [] := by
  induction segments with
  | nil => rfl
  | cons segment segments inductionHypothesis =>
    cases segment with
    | nil => exact inductionHypothesis nothing
    | cons symbol symbols =>
      rcases List.take_eq_nil_iff.mp nothing with none | empty
      · exact absurd none (Nat.ne_of_gt room)
      · cases empty

/-- What is left to come gets shorter with every read that brings something. -/
theorem readSome_shorter (size : Nat) (segments : List (List Symbol))
    (some : (readSome size segments).1 ≠ []) :
    (readSome size segments).2.flatten.length < segments.flatten.length := by
  have parts := congrArg List.length (readSome_append size segments)
  have brought := List.length_pos_iff.mpr some
  rw [List.length_append] at parts
  omega

end AsyncNet.Library
