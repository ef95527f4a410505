/-
This file is about priority queues that are kept in an array: the children of an entry are behind
it, and no entry has a smaller key than its parent. An entry is put in at the end of the array and
goes up, and the first one is taken out by exchanging it with the last, which then goes down.

While an entry goes up or down the order holds everywhere but at it, and also across it, from its
parent to its children. This is what lets it be exchanged with one of them.
-/

import Mathlib.Data.List.Basic
import Mathlib.Data.List.Perm.Basic
import Mathlib.Logic.Equiv.Basic
import Mathlib.Order.Lattice

namespace AsyncNet.Library

universe u v

variable {Entry : Type u} {Key : Type v} [LinearOrder Key] (key : Entry → Key)

/-! ### The order -/

/-- The place of the parent. -/
def parent (place : Nat) : Nat := (place - 1) / 2

theorem parent_lt {place : Nat} (inner : place ≠ 0) : parent place < place := by
  unfold parent
  omega

theorem parent_eq_iff {place hole : Nat} (inner : place ≠ 0) :
    parent place = hole ↔ place = 2 * hole + 1 ∨ place = 2 * hole + 2 := by
  unfold parent
  omega

/-- The keys at two places are in order, if there are entries. -/
def InOrderAt (entries : Array Entry) (first second : Nat) : Prop :=
  ∀ front ∈ entries[first]?, ∀ back ∈ entries[second]?, key front ≤ key back

/-- No entry has a smaller key than its parent. -/
def HeapOrdered (entries : Array Entry) : Prop :=
  ∀ place, InOrderAt key entries (parent place) place

/-- The key at a place is smaller than the one at another place. -/
def comesBefore (entries : Array Entry) (first second : Nat) : Bool :=
  match entries[first]?, entries[second]? with
  | some front, some back => key front < key back
  | _, _ => false

section Order

variable {key} {entries : Array Entry}

theorem InOrderAt.refl (place : Nat) : InOrderAt key entries place place := by
  intro front inFront back inBack
  rw [Option.mem_unique inFront inBack]

theorem InOrderAt.trans {first second third : Nat} (inside : second < entries.size)
    (front : InOrderAt key entries first second) (back : InOrderAt key entries second third) :
    InOrderAt key entries first third := by
  intro one inOne three inThree
  have two : entries[second] ∈ entries[second]? := Array.getElem?_eq_getElem inside
  exact le_trans (front one inOne _ two) (back _ two three inThree)

theorem inOrderAt_of_size_le {first second : Nat} (outside : entries.size ≤ second) :
    InOrderAt key entries first second := by
  intro front _ back inBack
  rw [Array.getElem?_eq_none outside] at inBack
  cases inBack

theorem comesBefore_iff {first second : Nat} :
    comesBefore key entries first second = true ↔
      ∃ front ∈ entries[first]?, ∃ back ∈ entries[second]?, key front < key back := by
  unfold comesBefore
  cases entries[first]? <;> cases entries[second]? <;> simp

/-- Where the second key does not come before the first, the two are in order. -/
theorem inOrderAt_of_not_comesBefore {first second : Nat}
    (not : ¬ comesBefore key entries second first = true) : InOrderAt key entries first second := by
  intro front inFront back inBack
  refine not_lt.mp fun less => not ?_
  exact comesBefore_iff.mpr ⟨back, inBack, front, inFront, less⟩

theorem inOrderAt_of_comesBefore {first second : Nat}
    (before : comesBefore key entries first second = true) :
    InOrderAt key entries first second := by
  obtain ⟨front, inFront, back, inBack, less⟩ := comesBefore_iff.mp before
  intro one inOne two inTwo
  rw [Option.mem_unique inOne inFront, Option.mem_unique inTwo inBack]
  exact le_of_lt less

theorem lt_size_of_comesBefore {first second : Nat}
    (before : comesBefore key entries first second = true) :
    first < entries.size ∧ second < entries.size := by
  obtain ⟨front, inFront, back, inBack, -⟩ := comesBefore_iff.mp before
  exact ⟨(Array.getElem?_eq_some_iff.mp inFront).1, (Array.getElem?_eq_some_iff.mp inBack).1⟩

theorem ne_of_comesBefore {first second : Nat}
    (before : comesBefore key entries first second = true) : first ≠ second := by
  rintro rfl
  obtain ⟨front, inFront, back, inBack, less⟩ := comesBefore_iff.mp before
  rw [Option.mem_unique inFront inBack] at less
  exact lt_irrefl _ less

/-! ### Exchanging two entries -/

theorem getElem?_swapIfInBounds {first second : Nat} (inFirst : first < entries.size)
    (inSecond : second < entries.size) (place : Nat) :
    (entries.swapIfInBounds first second)[place]? = entries[Equiv.swap first second place]? := by
  rw [Array.swapIfInBounds_def, dif_pos inFirst, dif_pos inSecond, Array.getElem?_swap,
    Equiv.swap_apply_def]
  by_cases atSecond : second = place
  · subst atSecond
    by_cases same : second = first
    · subst same
      simp [inSecond]
    · simp [same, inFirst]
  · by_cases atFirst : first = place
    · subst atFirst
      simp [atSecond, inSecond]
    · simp [atSecond, atFirst, Ne.symm atSecond, Ne.symm atFirst]

theorem inOrderAt_swapIfInBounds {first second : Nat} (inFirst : first < entries.size)
    (inSecond : second < entries.size) (front back : Nat) :
    InOrderAt key (entries.swapIfInBounds first second) front back ↔
      InOrderAt key entries (Equiv.swap first second front) (Equiv.swap first second back) := by
  unfold InOrderAt
  rw [getElem?_swapIfInBounds inFirst inSecond, getElem?_swapIfInBounds inFirst inSecond]

theorem swapIfInBounds_perm (entries : Array Entry) (first second : Nat) :
    (entries.swapIfInBounds first second).toList.Perm entries.toList := by
  rw [Array.swapIfInBounds_def]
  split
  · split
    · exact Array.perm_iff_toList_perm.mp (Array.swap_perm ..)
    · exact List.Perm.refl _
  · exact List.Perm.refl _

end Order

/-! ### Going up -/

/-- The entry at a place goes up as long as its key is smaller than the one of its parent. A place
has no more ancestors than its number. -/
def siftUp : Nat → Array Entry → Nat → Array Entry
  | 0, entries, _ => entries
  | fuel + 1, entries, hole =>
      if comesBefore key entries hole (parent hole) then
        siftUp fuel (entries.swapIfInBounds hole (parent hole)) (parent hole)
      else entries

/-- The order, but at an entry that goes up, and across it. -/
structure OrderedBut (entries : Array Entry) (hole : Nat) : Prop where
  order : ∀ place, place ≠ hole → InOrderAt key entries (parent place) place
  across : ∀ place, parent place = hole → place ≠ hole →
    InOrderAt key entries (parent hole) place

/-- The order, but between an entry that goes down and its children, and across it. -/
structure OrderedAbove (entries : Array Entry) (hole : Nat) : Prop where
  order : ∀ place, parent place ≠ hole → InOrderAt key entries (parent place) place
  across : hole ≠ 0 → ∀ place, parent place = hole → InOrderAt key entries (parent hole) place

section Sifting

variable {key} {entries : Array Entry} {hole : Nat}

theorem siftUp_perm (fuel : Nat) : (siftUp key fuel entries hole).toList.Perm entries.toList := by
  induction fuel generalizing entries hole with
  | zero => exact List.Perm.refl _
  | succ fuel inductionHypothesis =>
    rw [siftUp]
    split
    · exact inductionHypothesis.trans (swapIfInBounds_perm entries hole (parent hole))
    · exact List.Perm.refl _

/-- An entry that has been exchanged with its parent is one level up. -/
theorem OrderedBut.swap (ordered : OrderedBut key entries hole)
    (before : comesBefore key entries hole (parent hole) = true) :
    OrderedBut key (entries.swapIfInBounds hole (parent hole)) (parent hole) := by
  have inside := lt_size_of_comesBefore before
  have apart : hole ≠ parent hole := ne_of_comesBefore before
  have inner : hole ≠ 0 := by
    rintro rfl
    exact apart rfl
  have below : InOrderAt key entries hole (parent hole) := inOrderAt_of_comesBefore before
  have under (place : Nat) (child : parent place = parent hole) (other : place ≠ parent hole) :
      InOrderAt key (entries.swapIfInBounds hole (parent hole)) (parent hole) place := by
    rw [inOrderAt_swapIfInBounds inside.1 inside.2, Equiv.swap_apply_right]
    by_cases same : place = hole
    · rw [same, Equiv.swap_apply_left]
      exact below
    · rw [Equiv.swap_apply_of_ne_of_ne same other]
      have next := ordered.order place same
      rw [child] at next
      exact below.trans inside.2 next
  constructor
  · intro place other
    by_cases child : parent place = parent hole
    · rw [child]
      exact under place child other
    · have same : place ≠ hole := by
        rintro rfl
        exact child rfl
      rw [inOrderAt_swapIfInBounds inside.1 inside.2, Equiv.swap_apply_of_ne_of_ne same other]
      by_cases grandchild : parent place = hole
      · rw [grandchild, Equiv.swap_apply_left]
        exact ordered.across place grandchild same
      · rw [Equiv.swap_apply_of_ne_of_ne grandchild child]
        exact ordered.order place same
  · intro place child other
    by_cases root : parent hole = 0
    · have top : parent (parent hole) = parent hole := by
        rw [root]
        rfl
      rw [top]
      exact under place child other
    · have higher := parent_lt root
      have level := parent_lt inner
      have climb : InOrderAt key entries (parent (parent hole)) (parent hole) :=
        ordered.order (parent hole) (Ne.symm apart)
      rw [inOrderAt_swapIfInBounds inside.1 inside.2,
        Equiv.swap_apply_of_ne_of_ne (Nat.ne_of_lt (Nat.lt_trans higher level))
          (Nat.ne_of_lt higher)]
      by_cases same : place = hole
      · rw [same, Equiv.swap_apply_left]
        exact climb
      · rw [Equiv.swap_apply_of_ne_of_ne same other]
        have next := ordered.order place same
        rw [child] at next
        exact climb.trans inside.2 next

theorem OrderedBut.siftUp (fuel : Nat) (enough : hole ≤ fuel)
    (ordered : OrderedBut key entries hole) :
    HeapOrdered key (siftUp key fuel entries hole) := by
  induction fuel generalizing entries hole with
  | zero =>
    intro place
    by_cases same : place = hole
    · rw [same, Nat.le_zero.mp enough]
      exact InOrderAt.refl 0
    · exact ordered.order place same
  | succ fuel inductionHypothesis =>
    rw [Library.siftUp]
    split
    · rename_i before
      have inner : hole ≠ 0 := by
        rintro rfl
        exact ne_of_comesBefore before rfl
      have higher := parent_lt inner
      exact inductionHypothesis (by omega) (ordered.swap before)
    · rename_i stays
      intro place
      by_cases same : place = hole
      · rw [same]
        exact inOrderAt_of_not_comesBefore stays
      · exact ordered.order place same

/-! ### Going down -/

end Sifting

/-- The place of the child with the smaller key. -/
def smallerChild (entries : Array Entry) (place : Nat) : Nat :=
  if comesBefore key entries (2 * place + 2) (2 * place + 1) then 2 * place + 2
  else 2 * place + 1

/-- The entry at a place goes down as long as its key is greater than the one of a child. -/
def siftDown : Nat → Array Entry → Nat → Array Entry
  | 0, entries, _ => entries
  | fuel + 1, entries, hole =>
      let child := smallerChild key entries hole
      if comesBefore key entries child hole then
        siftDown fuel (entries.swapIfInBounds hole child) child
      else entries

section SiftingDown

variable {key} {entries : Array Entry} {hole : Nat}

theorem siftDown_perm (fuel : Nat) :
    (siftDown key fuel entries hole).toList.Perm entries.toList := by
  induction fuel generalizing entries hole with
  | zero => exact List.Perm.refl _
  | succ fuel inductionHypothesis =>
    rw [siftDown]
    split
    · exact inductionHypothesis.trans (swapIfInBounds_perm entries hole _)
    · exact List.Perm.refl _

theorem parent_smallerChild (key : Entry → Key) (entries : Array Entry) (place : Nat) :
    smallerChild key entries place ≠ 0 ∧ parent (smallerChild key entries place) = place := by
  unfold smallerChild parent
  split <;> omega

/-- The child with the smaller key comes before the other one. -/
theorem smallerChild_le {place child : Nat} (inner : child ≠ 0) (isChild : parent child = place) :
    InOrderAt key entries (smallerChild key entries place) child := by
  have two := (parent_eq_iff inner).mp isChild
  unfold smallerChild
  split
  · rename_i before
    rcases two with rfl | rfl
    · exact inOrderAt_of_comesBefore before
    · exact InOrderAt.refl _
  · rename_i stays
    rcases two with rfl | rfl
    · exact InOrderAt.refl _
    · exact inOrderAt_of_not_comesBefore stays

/-- The children of a place are outside if the smaller of them is. -/
theorem size_le_of_smallerChild {place child : Nat}
    (outside : entries.size ≤ smallerChild key entries place) (inner : child ≠ 0)
    (isChild : parent child = place) : entries.size ≤ child := by
  have two := (parent_eq_iff inner).mp isChild
  unfold smallerChild at outside
  split at outside
  · rename_i before
    have inside := lt_size_of_comesBefore before
    omega
  · omega

/-- An entry that has been exchanged with its smaller child is one level down. -/
theorem OrderedAbove.swap (ordered : OrderedAbove key entries hole) {child : Nat}
    (smaller : child = smallerChild key entries hole)
    (before : comesBefore key entries child hole = true) :
    OrderedAbove key (entries.swapIfInBounds hole child) child := by
  have inside := lt_size_of_comesBefore before
  have apart : child ≠ hole := ne_of_comesBefore before
  obtain ⟨inner, isChild⟩ := parent_smallerChild key entries hole
  rw [← smaller] at inner isChild
  constructor
  · intro place other
    by_cases root : place = 0
    · rw [root]
      exact InOrderAt.refl 0
    rw [inOrderAt_swapIfInBounds inside.2 inside.1]
    by_cases sibling : parent place = hole
    · rw [sibling, Equiv.swap_apply_left]
      by_cases same : place = child
      · rw [same, Equiv.swap_apply_right]
        exact inOrderAt_of_comesBefore before
      · have below : place ≠ hole := by
          rintro rfl
          exact Nat.ne_of_lt (parent_lt root) sibling
        rw [Equiv.swap_apply_of_ne_of_ne below same, smaller]
        exact smallerChild_le root sibling
    · have same : place ≠ child := by
        rintro rfl
        exact sibling isChild
      rw [Equiv.swap_apply_of_ne_of_ne sibling other]
      by_cases atHole : place = hole
      · rw [atHole, Equiv.swap_apply_left]
        exact ordered.across (by rw [← atHole]; exact root) child isChild
      · rw [Equiv.swap_apply_of_ne_of_ne atHole same]
        exact ordered.order place sibling
  · intro _ place grandchild
    have below : place ≠ child := by
      rintro rfl
      exact Nat.ne_of_lt (parent_lt inner) grandchild
    have other : place ≠ hole := by
      rintro rfl
      have first := parent_lt inner
      by_cases root : place = 0
      · rw [root] at isChild grandchild
        exact inner grandchild.symm
      · have second := parent_lt root
        omega
    rw [inOrderAt_swapIfInBounds inside.2 inside.1, isChild, Equiv.swap_apply_left,
      Equiv.swap_apply_of_ne_of_ne other below]
    have next := ordered.order place (by rw [grandchild]; exact apart)
    rw [grandchild] at next
    exact next

theorem OrderedAbove.siftDown (fuel : Nat) (enough : entries.size ≤ fuel + hole)
    (ordered : OrderedAbove key entries hole) :
    HeapOrdered key (siftDown key fuel entries hole) := by
  induction fuel generalizing entries hole with
  | zero =>
    intro place
    by_cases child : parent place = hole
    · have lower : parent place ≤ place := Nat.le_trans (Nat.div_le_self _ 2) (Nat.sub_le _ 1)
      have outside : entries.size ≤ place := by omega
      exact inOrderAt_of_size_le outside
    · exact ordered.order place child
  | succ fuel inductionHypothesis =>
    rw [Library.siftDown]
    obtain ⟨inner, isChild⟩ := parent_smallerChild key entries hole
    split
    · rename_i before
      have lower := parent_lt inner
      refine inductionHypothesis ?_ (ordered.swap rfl before)
      rw [Array.size_swapIfInBounds]
      omega
    · rename_i stays
      intro place
      by_cases child : parent place = hole
      · by_cases root : place = 0
        · rw [root]
          exact InOrderAt.refl 0
        rw [child]
        by_cases inside : smallerChild key entries hole < entries.size
        · exact (inOrderAt_of_not_comesBefore stays).trans inside (smallerChild_le root child)
        · exact inOrderAt_of_size_le (size_le_of_smallerChild (Nat.le_of_not_lt inside) root child)
      · exact ordered.order place child

end SiftingDown

/-! ### Priority queues -/

/-- A priority queue: an array that is ordered. The entry with the smallest key is its first. -/
structure PriorityQueue (key : Entry → Key) where
  entries : Array Entry
  ordered : HeapOrdered key entries

namespace PriorityQueue

variable {key}

/-- An array without entries is ordered. -/
theorem heapOrdered_empty : HeapOrdered key (#[] : Array Entry) :=
  fun _ => inOrderAt_of_size_le (Nat.zero_le _)

def empty : PriorityQueue key where
  entries := #[]
  ordered := heapOrdered_empty

def toList (queue : PriorityQueue key) : List Entry := queue.entries.toList

def size (queue : PriorityQueue key) : Nat := queue.entries.size

def top (queue : PriorityQueue key) : Option Entry := queue.entries[0]?

theorem orderedBut_push (queue : PriorityQueue key) (entry : Entry) :
    OrderedBut key (queue.entries.push entry) queue.entries.size := by
  have before {place : Nat} (inside : place < queue.entries.size) :
      (queue.entries.push entry)[place]? = queue.entries[place]? := by
    rw [Array.getElem?_push, if_neg (Nat.ne_of_lt inside)]
  constructor
  · intro place other
    by_cases inside : place < queue.entries.size
    · have lower : parent place ≤ place := Nat.le_trans (Nat.div_le_self _ 2) (Nat.sub_le _ 1)
      unfold InOrderAt
      rw [before inside, before (Nat.lt_of_le_of_lt lower inside)]
      exact queue.ordered place
    · refine inOrderAt_of_size_le ?_
      rw [Array.size_push]
      omega
  · intro place child other
    refine inOrderAt_of_size_le ?_
    have lower : parent place ≤ place := Nat.le_trans (Nat.div_le_self _ 2) (Nat.sub_le _ 1)
    rw [Array.size_push]
    omega

/-- An entry is put at the end and goes up. -/
def push (queue : PriorityQueue key) (entry : Entry) : PriorityQueue key where
  entries := siftUp key queue.entries.size (queue.entries.push entry) queue.entries.size
  ordered := (queue.orderedBut_push entry).siftUp _ (Nat.le_refl _)

/-- The array without its first entry, whose place the last one has taken. -/
def withoutTop (queue : PriorityQueue key) : Array Entry :=
  (queue.entries.swapIfInBounds 0 (queue.entries.size - 1)).pop

theorem orderedAbove_withoutTop (queue : PriorityQueue key) :
    OrderedAbove key queue.withoutTop 0 := by
  have size : queue.withoutTop.size = queue.entries.size - 1 := by
    rw [withoutTop, Array.size_pop, Array.size_swapIfInBounds]
  refine ⟨fun place below => ?_, fun wrong => absurd rfl wrong⟩
  by_cases inside : place < queue.entries.size - 1
  · have inner : place ≠ 0 := by
      rintro rfl
      exact below rfl
    have lower := parent_lt inner
    have same {other : Nat} (later : other ≠ 0) (earlier : other < queue.entries.size - 1) :
        queue.withoutTop[other]? = queue.entries[other]? := by
      rw [withoutTop, Array.getElem?_pop, Array.size_swapIfInBounds, if_pos earlier,
        getElem?_swapIfInBounds (by omega) (by omega),
        Equiv.swap_apply_of_ne_of_ne later (Nat.ne_of_lt earlier)]
    unfold InOrderAt
    rw [same inner inside, same below (Nat.lt_trans lower inside)]
    exact queue.ordered place
  · refine inOrderAt_of_size_le ?_
    omega

/-- The first entry is exchanged with the last, which then goes down. -/
def pop (queue : PriorityQueue key) : PriorityQueue key where
  entries := siftDown key queue.withoutTop.size queue.withoutTop 0
  ordered := queue.orderedAbove_withoutTop.siftDown _ (Nat.le_refl _)

/-- The first entry is changed in place, which must not change its key. -/
def modifyTop (queue : PriorityQueue key) (change : Entry → Entry)
    (same : ∀ entry, key (change entry) = key entry) : PriorityQueue key where
  entries := queue.entries.modify 0 change
  ordered := by
    have keyed {place : Nat} {entry : Entry}
        (inside : entry ∈ (queue.entries.modify 0 change)[place]?) :
        ∃ old ∈ queue.entries[place]?, key entry = key old := by
      rw [Array.getElem?_modify] at inside
      split at inside
      · obtain ⟨old, found, rfl⟩ := Option.map_eq_some_iff.mp inside
        exact ⟨old, found, same old⟩
      · exact ⟨entry, inside, rfl⟩
    intro place front inFront back inBack
    obtain ⟨oldFront, oldInFront, sameFront⟩ := keyed inFront
    obtain ⟨oldBack, oldInBack, sameBack⟩ := keyed inBack
    rw [sameFront, sameBack]
    exact queue.ordered place oldFront oldInFront oldBack oldInBack

/-! ### What the operations do to the entries -/

variable {queue : PriorityQueue key} {first : Entry}

theorem toList_push (queue : PriorityQueue key) (entry : Entry) :
    (queue.push entry).toList.Perm (entry :: queue.toList) := by
  refine (siftUp_perm queue.entries.size).trans ?_
  rw [Array.toList_push]
  exact List.perm_append_singleton entry queue.entries.toList

theorem toList_eq_of_top (isTop : queue.top = some first) :
    ∃ others, queue.toList = first :: others := by
  unfold top at isTop
  unfold toList
  rw [← Array.getElem?_toList] at isTop
  cases entries : queue.entries.toList with
  | nil =>
    rw [entries] at isTop
    cases isTop
  | cons head others =>
    rw [entries] at isTop
    cases isTop
    exact ⟨others, rfl⟩

theorem toList_eq_nil_iff : queue.toList = [] ↔ queue.top = none := by
  unfold top toList
  rw [← Array.getElem?_toList]
  cases queue.entries.toList with
  | nil => exact iff_of_true rfl rfl
  | cons head others => exact iff_of_false (List.cons_ne_nil head others) (Option.some_ne_none head)

/-- No entry has a smaller key than the first. -/
theorem top_le (isTop : queue.top = some first) {entry : Entry} (inside : entry ∈ queue.toList) :
    key first ≤ key entry := by
  have below (place : Nat) : InOrderAt key queue.entries 0 place := by
    induction place using Nat.strongRecOn with
    | ind place inductionHypothesis =>
      by_cases root : place = 0
      · rw [root]
        exact InOrderAt.refl 0
      · have lower := parent_lt root
        by_cases inside : place < queue.entries.size
        · exact (inductionHypothesis (parent place) lower).trans (Nat.lt_trans lower inside)
            (queue.ordered place)
        · exact inOrderAt_of_size_le (Nat.le_of_not_lt inside)
  obtain ⟨place, found⟩ := List.mem_iff_getElem?.mp inside
  rw [toList, Array.getElem?_toList] at found
  exact below place first isTop entry found

/-- What is left when the first entry is taken out. -/
theorem toList_pop (isTop : queue.top = some first) :
    queue.toList.Perm (first :: queue.pop.toList) := by
  have size : 0 < queue.entries.size := (Array.getElem?_eq_some_iff.mp isTop).1
  have last : (queue.entries.swapIfInBounds 0 (queue.entries.size - 1)).toList.getLast? =
      some first := by
    rw [List.getLast?_eq_getElem?, Array.getElem?_toList, Array.length_toList,
      Array.size_swapIfInBounds, getElem?_swapIfInBounds size (Nat.sub_lt size Nat.one_pos),
      Equiv.swap_apply_right]
    exact isTop
  have front : queue.pop.toList.Perm
      (queue.entries.swapIfInBounds 0 (queue.entries.size - 1)).toList.dropLast :=
    siftDown_perm queue.withoutTop.size
  have split := List.dropLast_append_getLast? first last
  have whole := swapIfInBounds_perm queue.entries 0 (queue.entries.size - 1)
  rw [← split] at whole
  refine whole.symm.trans ?_
  exact (List.perm_append_singleton first _).trans (front.symm.cons first)

variable (change : Entry → Entry) (same : ∀ entry, key (change entry) = key entry)

theorem top_modifyTop (isTop : queue.top = some first) :
    (queue.modifyTop change same).top = some (change first) := by
  show (queue.entries.modify 0 change)[0]? = _
  rw [Array.getElem?_modify, if_pos rfl]
  exact congrArg (Option.map change) isTop

/-- An entry that has been changed in place and is taken out then leaves the others. -/
theorem toList_pop_modifyTop (isTop : queue.top = some first) :
    queue.toList.Perm (first :: (queue.modifyTop change same).pop.toList) := by
  obtain ⟨others, entries⟩ := toList_eq_of_top isTop
  have changed : (queue.modifyTop change same).toList = change first :: others := by
    show (queue.entries.modify 0 change).toList = _
    rw [Array.toList_modify]
    exact congrArg (List.modify · 0 change) entries
  have left := toList_pop (top_modifyTop change same isTop)
  rw [changed] at left
  rw [entries]
  exact left.cons_inv.cons first

end PriorityQueue

end AsyncNet.Library
