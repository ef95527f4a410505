/-
This file is about maps with finitely many keys, as lists of their bindings: what is read after a
write, which contents a write puts in and takes out, and maps whose contents correspond.
-/

import Mathlib.Data.List.Forall2
import Mathlib.Logic.Function.Basic

namespace AsyncNet.Library

universe u v w

/-- The bindings of a map. A key without content is left out. -/
abbrev Bindings (Key : Type u) (Content : Type v) := List (Key × Content)

namespace Bindings

variable {Key : Type u} {Content : Type v} {Other : Type w} [DecidableEq Key]

/-- The content of the key. -/
def read (key : Key) (bindings : Bindings Key Content) : Option Content :=
  bindings.lookup key

/-- The bindings when this key has no content. -/
def clear (key : Key) (bindings : Bindings Key Content) : Bindings Key Content :=
  bindings.filter fun entry => entry.1 != key

/-- The bindings when this key has the content, if it is given one. -/
def write (key : Key) (content : Option Content) (bindings : Bindings Key Content) :
    Bindings Key Content :=
  match content with
  | none => clear key bindings
  | some content => (key, content) :: clear key bindings

/-- The content of the source goes to the target. A move to itself does nothing. -/
def move (target source : Key) (bindings : Bindings Key Content) : Bindings Key Content :=
  if target = source then bindings
  else write target (read source bindings) (clear source bindings)

/-- The same keys, with corresponding contents. -/
def Match (relation : Content → Other → Prop) :
    Bindings Key Content → Bindings Key Other → Prop :=
  List.Forall₂ fun left right => left.1 = right.1 ∧ relation left.2 right.2

theorem read_clear (key : Key) (bindings : Bindings Key Content) :
    (fun other => read other (clear key bindings)) =
      Function.update (fun other => read other bindings) key none := by
  funext other
  unfold read clear
  induction bindings with
  | nil =>
    by_cases same : other = key
    · rw [same, Function.update_self]
      rfl
    · rw [Function.update_of_ne same]
      rfl
  | cons entry bindings inductionHypothesis =>
    obtain ⟨bound, content⟩ := entry
    by_cases here : bound = key
    · subst here
      rw [List.filter_cons_of_neg (by simp), inductionHypothesis]
      by_cases same : other = bound
      · rw [same, Function.update_self, Function.update_self]
      · have unequal : (other == bound) = false := by simpa using same
        rw [Function.update_of_ne same, Function.update_of_ne same, List.lookup_cons, unequal]
    · rw [List.filter_cons_of_pos (by simpa using here), List.lookup_cons]
      by_cases found : other = bound
      · subst found
        rw [Function.update_of_ne here, List.lookup_cons, beq_self_eq_true]
      · have unequal : (other == bound) = false := by simpa using found
        rw [unequal]
        dsimp only
        rw [inductionHypothesis]
        by_cases same : other = key
        · rw [same, Function.update_self, Function.update_self]
        · rw [Function.update_of_ne same, Function.update_of_ne same, List.lookup_cons, unequal]

theorem read_write (key : Key) (content : Option Content) (bindings : Bindings Key Content) :
    (fun other => read other (write key content bindings)) =
      Function.update (fun other => read other bindings) key content := by
  cases content with
  | none => exact read_clear key bindings
  | some content =>
    funext other
    have cleared := congrFun (read_clear key bindings) other
    unfold write
    unfold read at cleared ⊢
    rw [List.lookup_cons]
    by_cases same : other = key
    · subst same
      rw [Function.update_self]
      simp
    · have unequal : (other == key) = false := by simpa using same
      rw [Function.update_of_ne same, unequal]
      dsimp only
      rw [cleared, Function.update_of_ne same]

theorem read_write_eq (key other : Key) (content : Option Content)
    (bindings : Bindings Key Content) :
    read other (write key content bindings) =
      if other = key then content else read other bindings := by
  rw [congrFun (read_write key content bindings) other]
  by_cases same : other = key
  · rw [if_pos same, same, Function.update_self]
  · rw [if_neg same, Function.update_of_ne same]

section Match

variable {relation : Content → Other → Prop} {left : Bindings Key Content}
  {right : Bindings Key Other}

theorem Match.clear (paired : Match relation left right) (key : Key) :
    Match relation (clear key left) (clear key right) := by
  unfold Bindings.clear
  induction paired with
  | nil => exact .nil
  | @cons first second _ _ same _ inductionHypothesis =>
    by_cases here : second.1 = key
    · rw [List.filter_cons_of_neg (by simpa [same.1] using here),
        List.filter_cons_of_neg (by simpa using here)]
      exact inductionHypothesis
    · rw [List.filter_cons_of_pos (by simpa [same.1] using here),
        List.filter_cons_of_pos (by simpa using here)]
      exact .cons same inductionHypothesis

theorem Match.read (paired : Match relation left right) (key : Key) :
    Option.Rel relation (read key left) (read key right) := by
  unfold Bindings.read
  induction paired with
  | nil => exact .none
  | @cons first second _ _ same _ inductionHypothesis =>
    rw [show first = (first.1, first.2) from rfl, show second = (second.1, second.2) from rfl,
      List.lookup_cons, List.lookup_cons, same.1]
    cases key == second.1 with
    | true => exact .some same.2
    | false => exact inductionHypothesis

theorem Match.write (paired : Match relation left right) (key : Key) {content : Option Content}
    {other : Option Other} (related : Option.Rel relation content other) :
    Match relation (write key content left) (write key other right) := by
  cases related with
  | none => exact paired.clear key
  | some related => exact .cons ⟨rfl, related⟩ (paired.clear key)

theorem Match.move (paired : Match relation left right) (target source : Key) :
    Match relation (move target source left) (move target source right) := by
  unfold Bindings.move
  by_cases same : target = source
  · rw [if_pos same, if_pos same]
    exact paired
  · rw [if_neg same, if_neg same]
    exact (paired.clear source).write target (paired.read source)

end Match

/-- No key is bound twice. -/
def Distinct (bindings : Bindings Key Content) : Prop := (bindings.map Prod.fst).Nodup

/-- The contents are that of the key and the rest. -/
theorem perm_read (key : Key) (bindings : Bindings Key Content)
    (distinct : Distinct bindings) :
    (bindings.map Prod.snd).Perm
      ((read key bindings).toList ++ (clear key bindings).map Prod.snd) := by
  unfold read clear
  induction bindings with
  | nil => exact .nil
  | cons entry bindings inductionHypothesis =>
    obtain ⟨bound, content⟩ := entry
    obtain ⟨absent, distinct⟩ := List.nodup_cons.mp distinct
    rw [List.lookup_cons]
    by_cases here : key = bound
    · subst here
      rw [List.filter_cons_of_neg (by simp), List.filter_eq_self.mpr fun entry member => by
        simp only [bne_iff_ne, ne_eq]
        exact fun same => absent (List.mem_map.mpr ⟨entry, member, same⟩)]
      simp
    · have unequal : (key == bound) = false := by simpa using here
      rw [unequal, List.filter_cons_of_pos (by simpa using Ne.symm here)]
      dsimp only
      exact ((inductionHypothesis distinct).cons content).trans List.perm_middle.symm

/-- A write puts in what is written and takes out what was there. -/
theorem perm_write (key : Key) (content : Option Content) (bindings : Bindings Key Content)
    (distinct : Distinct bindings) :
    ((read key bindings).toList ++ (write key content bindings).map Prod.snd).Perm
      (content.toList ++ bindings.map Prod.snd) := by
  have split := (perm_read key bindings distinct).symm
  cases content with
  | none => exact split
  | some content => exact List.perm_middle.trans (split.cons content)

/-- The same for what the contents consist of. -/
theorem perm_flatMap_write {Part : Type*} (parts : Content → List Part) (key : Key)
    (content : Option Content) (bindings : Bindings Key Content) (distinct : Distinct bindings) :
    ((read key bindings).toList.flatMap parts ++
        (write key content bindings).flatMap fun entry => parts entry.2).Perm
      (content.toList.flatMap parts ++ bindings.flatMap fun entry => parts entry.2) := by
  have whole := (perm_write key content bindings distinct).flatMap_right parts
  simp only [List.flatMap_append, List.flatMap_map] at whole
  exact whole

theorem count_write {Part : Type*} [BEq Part] (parts : Content → List Part) (key : Key)
    (content : Option Content) (bindings : Bindings Key Content) (distinct : Distinct bindings)
    (part : Part) :
    ((read key bindings).toList.flatMap parts).count part +
        ((write key content bindings).flatMap fun entry => parts entry.2).count part =
      (content.toList.flatMap parts).count part +
        (bindings.flatMap fun entry => parts entry.2).count part := by
  have whole := (perm_flatMap_write parts key content bindings distinct).count_eq part
  simp only [List.count_append] at whole
  exact whole

theorem Distinct.clear {bindings : Bindings Key Content} (distinct : Distinct bindings) (key : Key) :
    Distinct (clear key bindings) :=
  List.Nodup.sublist (List.filter_sublist.map Prod.fst) distinct

theorem Distinct.write {bindings : Bindings Key Content} (distinct : Distinct bindings) (key : Key)
    (content : Option Content) : Distinct (write key content bindings) := by
  cases content with
  | none => exact distinct.clear key
  | some content =>
    refine List.nodup_cons.mpr ⟨fun member => ?_, distinct.clear key⟩
    obtain ⟨entry, kept, same⟩ := List.mem_map.mp member
    have other := (List.mem_filter.mp kept).2
    rw [show entry.1 = key from same, bne_self_eq_false] at other
    cases other

theorem Distinct.move {bindings : Bindings Key Content} (distinct : Distinct bindings)
    (target source : Key) : Distinct (move target source bindings) := by
  unfold Bindings.move
  split
  · exact distinct
  · exact (distinct.clear source).write target _

/-- A move takes out what the target had. -/
theorem perm_move (target source : Key) (bindings : Bindings Key Content) (distinct : Distinct bindings) :
    ((if target = source then none else read target bindings).toList ++
        (move target source bindings).map Prod.snd).Perm (bindings.map Prod.snd) := by
  unfold move
  by_cases same : target = source
  · rw [if_pos same, if_pos same]
    exact .refl _
  · rw [if_neg same, if_neg same]
    have written := perm_write target (read source bindings) (clear source bindings)
      (distinct.clear source)
    rw [show read target (clear source bindings) = read target bindings from
      (congrFun (read_clear source bindings) target).trans (Function.update_of_ne same ..)] at written
    exact written.trans (perm_read source bindings distinct).symm

end Bindings

end AsyncNet.Library
