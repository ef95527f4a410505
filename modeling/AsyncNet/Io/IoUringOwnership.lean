/-
This file is about who owns the contexts whose addresses the kernel holds. The backend holds a
context in one of its maps, under the direction and the descriptor of the operation. It drops it
when the completion is processed, but also when another operation is submitted for the same
direction and descriptor and when the descriptor is deregistered. These are the only steps that
leave an entry in the ring whose context the backend does not hold, since every operation in a map
has its own entry in the ring.
-/

import AsyncNet.Io.IoUringBackend
import Mathlib.Data.List.Nodup

namespace AsyncNet.Io

open Library

namespace IoUringBackend

/-! ### The property -/

/-- The context of every outstanding entry is held by the operation that was submitted with it. -/
def Owned (ring : IoUringBackend) : Prop :=
  ∀ entry ∈ ring.outstanding, ∀ ctx, entry.data = .op ctx →
    ∃ pair ∈ ring.ops, pair.2.ctx = ctx ∧ pair.2.serial = entry.serial

/-- Every completion has been found to be of the operation that was submitted with its entry. -/
def Attributed (ring : IoUringBackend) : Prop :=
  ∀ attribution ∈ ring.attributions, attribution.2 = some attribution.1

structure OwnsAll (ring : IoUringBackend) : Prop where
  owned : ring.Owned
  attributed : ring.Attributed

/-- The step finds no operation that it would take out of the maps. -/
def Spares (ring : IoUringBackend) : UringAction → Prop
  | .submit type fd _ _ => ∀ pair ∈ ring.ops, pair.1 ≠ (type.direction, fd)
  | .deregister fd => ∀ pair ∈ ring.ops, pair.1.2 ≠ fd
  | _ => True

instance (ring : IoUringBackend) : ∀ action, Decidable (ring.Spares action)
  | .submit type fd _ _ =>
      inferInstanceAs (Decidable (∀ pair ∈ ring.ops, pair.1 ≠ (type.direction, fd)))
  | .deregister fd => inferInstanceAs (Decidable (∀ pair ∈ ring.ops, pair.1.2 ≠ fd))
  | .finish _ _ | .poll _ _ | .enter _ | .look | .process _ | .resume | .leave => isTrue trivial

/-! ### Invariant -/

/-- What holds in every run: the operations in the maps have different contexts, the outstanding
entries different numbers, and every operation has its entry among them. -/
structure Sound (ring : IoUringBackend) : Prop where
  slots : (ring.ops.map (·.1)).Nodup
  ctxs : (ring.ops.map (·.2.ctx)).Nodup
  serials : (ring.outstanding.map (·.serial)).Nodup
  below : ∀ entry ∈ ring.outstanding, entry.serial < ring.issued
  waiting : ∀ pair ∈ ring.ops, ⟨.op pair.2.ctx, pair.2.serial⟩ ∈ ring.outstanding

section Facts

variable {ring next : IoUringBackend}

/-- Only the entries move. -/
theorem Sound.of_perm (sound : ring.Sound) (ops : next.ops = ring.ops)
    (perm : next.outstanding.Perm ring.outstanding) (issued : ring.issued ≤ next.issued) :
    next.Sound where
  slots := ops ▸ sound.slots
  ctxs := ops ▸ sound.ctxs
  serials := (perm.map _).nodup_iff.mpr sound.serials
  below := fun entry member =>
    Nat.lt_of_lt_of_le (sound.below entry (perm.mem_iff.mp member)) issued
  waiting := by
    rw [ops]
    exact fun pair member => perm.mem_iff.mpr (sound.waiting pair member)

theorem Owned.of_perm (owned : ring.Owned) (ops : next.ops = ring.ops)
    (perm : next.outstanding.Perm ring.outstanding) : next.Owned := by
  intro entry member
  rw [ops]
  exact owned entry (perm.mem_iff.mp member)

theorem Sound.eq_of_ctx (sound : ring.Sound) {one two : Slot × UringOp} (first : one ∈ ring.ops)
    (second : two ∈ ring.ops) (same : one.2.ctx = two.2.ctx) : one = two :=
  List.inj_on_of_nodup_map sound.ctxs first second same

theorem Sound.entry_eq (sound : ring.Sound) {one two : Entry} (first : one ∈ ring.outstanding)
    (second : two ∈ ring.outstanding) (same : one.serial = two.serial) : one = two :=
  List.inj_on_of_nodup_map sound.serials first second same

theorem Sound.eq_of_serial (sound : ring.Sound) {one two : Slot × UringOp} (first : one ∈ ring.ops)
    (second : two ∈ ring.ops) (same : one.2.serial = two.2.serial) : one = two := by
  have entries := sound.entry_eq (sound.waiting one first) (sound.waiting two second) same
  exact sound.eq_of_ctx first second (UserData.op.inj (Entry.mk.inj entries).1)

/-- The entries that a step leaves and the operations that it leaves have their numbers. -/
theorem Sound.lost (sound : ring.Sound) {pair : Slot × UringOp} (member : pair ∈ ring.ops)
    (stays : ∀ entry ∈ ring.outstanding, entry ∈ next.outstanding)
    (gone : ∀ other ∈ next.ops, other.2.serial ≠ pair.2.serial) : ¬ next.Owned := by
  intro owned
  obtain ⟨other, there, _, same⟩ :=
    owned _ (stays _ (sound.waiting pair member)) pair.2.ctx rfl
  exact gone other there same

theorem mem_ops_erase {slot : Slot} {pair : Slot × UringOp} :
    pair ∈ (ring.erase slot).ops ↔ pair ∈ ring.ops ∧ pair.1 ≠ slot := by
  unfold erase
  rw [List.mem_filter]
  exact and_congr_right fun _ => decide_eq_true_iff

theorem Sound.erase (sound : ring.Sound) (slot : Slot) : (ring.erase slot).Sound where
  slots := sound.slots.sublist (List.filter_sublist.map _)
  ctxs := sound.ctxs.sublist (List.filter_sublist.map _)
  serials := sound.serials
  below := sound.below
  waiting := fun pair member => sound.waiting pair (mem_ops_erase.mp member).1

theorem find_eq_some {ctx : Ctx} {pair : Slot × UringOp} (found : ring.find ctx = some pair) :
    pair ∈ ring.ops ∧ pair.2.ctx = ctx := by
  have search : ring.ops.find? (fun pair => decide (pair.2.ctx = ctx)) = some pair := found
  have holds := List.find?_some search
  exact ⟨List.mem_of_find?_eq_some search, of_decide_eq_true holds⟩

theorem find_eq_none {ctx : Ctx} (none : ring.find ctx = none) :
    ∀ pair ∈ ring.ops, pair.2.ctx ≠ ctx :=
  fun pair member => of_decide_eq_false ((Bool.not_eq_true _).mp
    (List.find?_eq_none.mp none pair member))

end Facts

/-! ### Submissions -/

section Submissions

variable {ring next : IoUringBackend}

/-- What a submission does: the operation takes its slot and its entry is queued, or the slot is
cleared. -/
inductive Submits (ring : IoUringBackend) (slot : Slot) (op : UringOp) (next : IoUringBackend) :
    Prop
  | queued (ops : next.ops = (ring.erase slot).ops ++ [(slot, op)])
      (outstanding : next.outstanding.Perm (⟨.op op.ctx, op.serial⟩ :: ring.outstanding))
  | refused (ops : next.ops = (ring.erase slot).ops)
      (outstanding : next.outstanding.Perm ring.outstanding)

theorem submits_submit (ring : IoUringBackend) (type : OpType) (fd : Fd) (ctx : Ctx)
    (accepted : Nat) :
    Submits ring (type.direction, fd) ⟨type, ctx, ring.issued⟩
        (ring.submit type fd ctx accepted) ∧
      (ring.submit type fd ctx accepted).issued = ring.issued + 1 ∧
      (ring.submit type fd ctx accepted).attributions = ring.attributions := by
  have requests := requests_queueEntry
    (ring.record (type.direction, fd) ⟨type, ctx, ring.issued⟩) (.op ctx) accepted
  unfold submit
  dsimp only
  split
  · rename_i given
    rw [given] at requests
    exact ⟨.queued requests.ops requests.outstanding, requests.issued, requests.attributions⟩
  · rename_i refused
    rw [refused] at requests
    refine ⟨.refused ?_ requests.outstanding, requests.issued, requests.attributions⟩
    -- The slot has been set before, and what is left of it is cleared again.
    refine (congrArg (List.filter _) requests.ops).trans ?_
    show List.filter _ (List.filter _ ring.ops ++ [_]) = _
    rw [List.filter_append, List.filter_filter, List.filter_singleton]
    simp [erase]

theorem Sound.submits (sound : ring.Sound) {slot : Slot} {op : UringOp}
    (submits : Submits ring slot op next) (serial : op.serial = ring.issued)
    (issued : next.issued = ring.issued + 1) (fresh : ∀ pair ∈ ring.ops, pair.2.ctx ≠ op.ctx) :
    next.Sound := by
  have cleared := sound.erase slot
  cases submits with
  | refused ops outstanding =>
    have grows : ring.issued ≤ next.issued := by
      rw [issued]
      exact Nat.le_succ _
    exact cleared.of_perm ops outstanding grows
  | queued ops outstanding =>
    refine ⟨?_, ?_, ?_, fun entry member => ?_, fun pair member => ?_⟩
    · rw [ops, List.map_append, List.nodup_append]
      refine ⟨cleared.slots, List.nodup_singleton _, fun one inside two last => ?_⟩
      obtain ⟨pair, member, rfl⟩ := List.mem_map.mp inside
      rw [List.mem_singleton.mp last]
      exact (mem_ops_erase.mp member).2
    · rw [ops, List.map_append, List.nodup_append]
      refine ⟨cleared.ctxs, List.nodup_singleton _, fun one inside two last => ?_⟩
      obtain ⟨pair, member, rfl⟩ := List.mem_map.mp inside
      rw [List.mem_singleton.mp last]
      exact fresh pair (mem_ops_erase.mp member).1
    · rw [(outstanding.map _).nodup_iff, List.map_cons, List.nodup_cons]
      refine ⟨fun member => ?_, sound.serials⟩
      obtain ⟨entry, inside, same⟩ := List.mem_map.mp member
      have small := sound.below entry inside
      rw [same, serial] at small
      exact Nat.lt_irrefl _ small
    · rw [issued]
      obtain rfl | former := List.mem_cons.mp (outstanding.mem_iff.mp member)
      · rw [serial]
        exact Nat.lt_succ_self _
      · exact Nat.lt_succ_of_lt (sound.below entry former)
    · rw [ops] at member
      refine outstanding.mem_iff.mpr (List.mem_cons.mpr ?_)
      obtain former | last := List.mem_append.mp member
      · exact Or.inr (cleared.waiting pair former)
      · rw [List.mem_singleton.mp last]
        exact Or.inl rfl

/-- A submission leaves everything owned if and only if it finds its slot free. -/
theorem owned_submits_iff (sound : ring.Sound) (owned : ring.Owned) {slot : Slot} {op : UringOp}
    (submits : Submits ring slot op next) (serial : op.serial = ring.issued) :
    next.Owned ↔ ∀ pair ∈ ring.ops, pair.1 ≠ slot := by
  have members : (∀ entry ∈ ring.outstanding, entry ∈ next.outstanding) ∧
      (∀ pair ∈ next.ops, pair ∈ (ring.erase slot).ops ∨ pair = (slot, op)) ∧
      (∀ pair ∈ (ring.erase slot).ops, pair ∈ next.ops) ∧
      ∀ entry ∈ next.outstanding, entry ∈ ring.outstanding ∨
        entry = ⟨.op op.ctx, op.serial⟩ ∧ (slot, op) ∈ next.ops := by
    cases submits with
    | queued ops outstanding =>
      rw [ops]
      refine ⟨fun entry member => ?_, fun pair member => ?_, fun pair member => ?_,
        fun entry member => ?_⟩
      · exact outstanding.mem_iff.mpr (List.mem_cons_of_mem _ member)
      · exact (List.mem_append.mp member).imp_right List.mem_singleton.mp
      · exact List.mem_append_left _ member
      · obtain same | former := List.mem_cons.mp (outstanding.mem_iff.mp member)
        · exact Or.inr ⟨same, List.mem_append_right _ (List.mem_singleton_self _)⟩
        · exact Or.inl former
    | refused ops outstanding =>
      rw [ops]
      exact ⟨fun entry => outstanding.mem_iff.mpr, fun pair => Or.inl, fun pair => id,
        fun entry member => Or.inl (outstanding.mem_iff.mp member)⟩
  obtain ⟨stays, left, kept, known⟩ := members
  constructor
  · intro after pair member same
    refine sound.lost member stays (fun other there sameSerial => ?_) after
    obtain former | rfl := left other there
    · obtain ⟨inside, differs⟩ := mem_ops_erase.mp former
      exact differs (sound.eq_of_serial inside member sameSerial ▸ same)
    · have small := sound.below _ (sound.waiting pair member)
      rw [← sameSerial, serial] at small
      exact Nat.lt_irrefl _ small
  · intro free entry member ctx own
    obtain former | ⟨rfl, there⟩ := known entry member
    · obtain ⟨pair, inside, facts⟩ := owned entry former ctx own
      exact ⟨pair, kept pair (mem_ops_erase.mpr ⟨inside, free pair inside⟩), facts⟩
    · exact ⟨(slot, op), there, UserData.op.inj own, rfl⟩

end Submissions

/-! ### Completions -/

section Completions

variable {ring next : IoUringBackend} {entry : Entry} {res : Int}
  {completed : List (Entry × Int)}

/-- A completion of a control entry is taken out of the ring. -/
theorem Sound.taken (sound : ring.Sound) (first : ring.completed = (entry, res) :: completed)
    (control : ∀ ctx, entry.data ≠ .op ctx) :
    ({ ring with completed } : IoUringBackend).Sound := by
  have perm := ring.outstanding_cons first
  have numbers := (perm.map (·.serial)).nodup_iff.mp sound.serials
  refine ⟨sound.slots, sound.ctxs, (List.nodup_cons.mp numbers).2, fun other member => ?_,
    fun pair member => ?_⟩
  · exact sound.below other (perm.mem_iff.mpr (List.mem_cons_of_mem _ member))
  · obtain same | former := List.mem_cons.mp (perm.mem_iff.mp (sound.waiting pair member))
    · exact absurd (congrArg Entry.data same).symm (control pair.2.ctx)
    · exact former

theorem Owned.taken (owned : ring.Owned) (first : ring.completed = (entry, res) :: completed) :
    ({ ring with completed } : IoUringBackend).Owned := by
  have perm := ring.outstanding_cons first
  exact fun other member => owned other (perm.mem_iff.mpr (List.mem_cons_of_mem _ member))

theorem finishOp_rings (ring : IoUringBackend) (serial : Nat) (ctx : Ctx) (res : Int) :
    (ring.finishOp serial ctx res).outstanding = ring.outstanding ∧
      (ring.finishOp serial ctx res).issued = ring.issued ∧
      (ring.finishOp serial ctx res).ops.Sublist ring.ops ∧
      (ring.finishOp serial ctx res).attributions =
        ring.attributions ++ [(serial, (ring.find ctx).map (·.2.serial))] := by
  unfold finishOp
  split
  · rename_i found
    rw [found]
    exact ⟨rfl, rfl, List.filter_sublist, rfl⟩
  · rename_i none
    rw [none]
    exact ⟨rfl, rfl, .refl _, rfl⟩

/-- The completion of an operation takes out of the maps what has its context. -/
theorem mem_ops_finishOp (ring : IoUringBackend) (ctx : Ctx)
    (slots : (ring.ops.map (·.1)).Nodup) (ctxs : (ring.ops.map (·.2.ctx)).Nodup) (serial : Nat)
    (res : Int) (pair : Slot × UringOp) :
    pair ∈ (ring.finishOp serial ctx res).ops ↔ pair ∈ ring.ops ∧ pair.2.ctx ≠ ctx := by
  unfold finishOp
  split
  · rename_i slot op found
    obtain ⟨inside, own⟩ := find_eq_some found
    refine mem_ops_erase.trans (and_congr_right fun member => not_congr ⟨fun same => ?_, ?_⟩)
    · rw [List.inj_on_of_nodup_map slots member inside same]
      exact own
    · exact fun same =>
        congrArg (·.1) (List.inj_on_of_nodup_map ctxs member inside (same.trans own.symm))
  · rename_i none
    exact ⟨fun member => ⟨member, find_eq_none none pair member⟩, And.left⟩

variable {ctx : Ctx}

theorem Sound.finishOp (sound : ring.Sound) (first : ring.completed = (entry, res) :: completed)
    (own : entry.data = .op ctx) :
    ({ ring with completed }.finishOp entry.serial ctx res).Sound := by
  have perm := ring.outstanding_cons first
  have numbers := (perm.map (·.serial)).nodup_iff.mp sound.serials
  obtain ⟨outstanding, issued, fewer, _⟩ :=
    finishOp_rings { ring with completed } entry.serial ctx res
  refine ⟨sound.slots.sublist (fewer.map _), sound.ctxs.sublist (fewer.map _), ?_,
    fun other member => ?_, fun pair member => ?_⟩
  · rw [outstanding]
    exact (List.nodup_cons.mp numbers).2
  · rw [outstanding] at member
    rw [issued]
    exact sound.below other (perm.mem_iff.mpr (List.mem_cons_of_mem _ member))
  · obtain ⟨inside, differs⟩ :=
      (mem_ops_finishOp { ring with completed } ctx sound.slots sound.ctxs _ _ pair).mp member
    rw [outstanding]
    obtain same | former := List.mem_cons.mp (perm.mem_iff.mp (sound.waiting pair inside))
    · refine absurd (UserData.op.inj ?_) differs
      exact (congrArg Entry.data same).trans own
    · exact former

theorem Owned.finishOp (owned : ring.Owned) (sound : ring.Sound)
    (first : ring.completed = (entry, res) :: completed) (own : entry.data = .op ctx) :
    ({ ring with completed }.finishOp entry.serial ctx res).Owned := by
  have perm := ring.outstanding_cons first
  have numbers := (perm.map (·.serial)).nodup_iff.mp sound.serials
  obtain ⟨outstanding, _⟩ := finishOp_rings { ring with completed } entry.serial ctx res
  obtain ⟨mine, inside, isMine, serial⟩ :=
    owned entry (perm.mem_iff.mpr List.mem_cons_self) ctx own
  intro other member ctx' alsoOwn
  rw [outstanding] at member
  obtain ⟨pair, there, same, number⟩ :=
    owned other (perm.mem_iff.mpr (List.mem_cons_of_mem _ member)) ctx' alsoOwn
  have left :=
    mem_ops_finishOp { ring with completed } ctx sound.slots sound.ctxs entry.serial res pair
  refine ⟨pair, left.mpr ⟨there, fun wrong => ?_⟩, same, number⟩
  -- The entry of another operation with this context would have the same number.
  have isSame := sound.eq_of_ctx there inside (wrong.trans isMine.symm)
  refine (List.nodup_cons.mp numbers).1 (List.mem_map.mpr ⟨other, member, ?_⟩)
  rw [← number, isSame, serial]

theorem Attributed.finishOp (attributed : ring.Attributed) (owned : ring.Owned)
    (sound : ring.Sound) (first : ring.completed = (entry, res) :: completed)
    (own : entry.data = .op ctx) :
    ({ ring with completed }.finishOp entry.serial ctx res).Attributed := by
  have perm := ring.outstanding_cons first
  obtain ⟨_, _, _, attributions⟩ := finishOp_rings { ring with completed } entry.serial ctx res
  obtain ⟨mine, inside, isMine, serial⟩ :=
    owned entry (perm.mem_iff.mpr List.mem_cons_self) ctx own
  intro attribution member
  rw [attributions] at member
  obtain former | last := List.mem_append.mp member
  · exact attributed attribution former
  · rw [List.mem_singleton.mp last]
    cases search : find { ring with completed } ctx with
    | none => exact absurd isMine (find_eq_none search mine inside)
    | some pair =>
      obtain ⟨there, isIts⟩ := find_eq_some search
      rw [sound.eq_of_ctx there inside (isIts.trans isMine.symm)]
      exact congrArg some serial

end Completions

/-! ### Steps -/

section Steps

variable {ring next : IoUringBackend}

/-- A control entry is queued, or there is no room for it. -/
theorem Sound.requests (sound : ring.Sound) {data : UserData} {given : Bool}
    (requests : Requests ring data next given) (control : ∀ ctx, data ≠ .op ctx) :
    next.Sound ∧ (ring.Owned → next.Owned) := by
  have outstanding := requests.outstanding
  cases given with
  | false =>
    have grows : ring.issued ≤ next.issued := by
      rw [requests.issued]
      exact Nat.le_succ _
    exact ⟨sound.of_perm requests.ops outstanding grows,
      fun owned => owned.of_perm requests.ops outstanding⟩
  | true =>
    have outstanding : next.outstanding.Perm (⟨data, ring.issued⟩ :: ring.outstanding) :=
      outstanding
    have ops := requests.ops
    refine ⟨⟨ops ▸ sound.slots, ops ▸ sound.ctxs, ?_, fun entry member => ?_, ?_⟩,
      fun owned entry member ctx own => ?_⟩
    · rw [(outstanding.map _).nodup_iff, List.map_cons, List.nodup_cons]
      refine ⟨fun member => ?_, sound.serials⟩
      obtain ⟨entry, inside, same⟩ := List.mem_map.mp member
      exact Nat.lt_irrefl _ (same ▸ sound.below entry inside)
    · rw [requests.issued]
      obtain rfl | former := List.mem_cons.mp (outstanding.mem_iff.mp member)
      · exact Nat.lt_succ_self _
      · exact Nat.lt_succ_of_lt (sound.below entry former)
    · rw [ops]
      exact fun pair member =>
        outstanding.mem_iff.mpr (List.mem_cons_of_mem _ (sound.waiting pair member))
    · rw [ops]
      obtain rfl | former := List.mem_cons.mp (outstanding.mem_iff.mp member)
      · exact absurd own (control ctx)
      · exact owned entry former ctx own

theorem mem_ops_deregister {fd : Fd} {pair : Slot × UringOp} :
    pair ∈ (ring.deregister fd).ops ↔ pair ∈ ring.ops ∧ pair.1.2 ≠ fd := by
  unfold deregister
  rw [mem_ops_erase, mem_ops_erase, and_assoc]
  refine and_congr_right fun _ => ?_
  constructor
  · rintro ⟨read, write⟩ rfl
    obtain ⟨⟨direction, fd⟩, op⟩ := pair
    cases direction with
    | read => exact read rfl
    | write => exact write rfl
  · exact fun differs => ⟨fun same => differs (congrArg (·.2) same),
      fun same => differs (congrArg (·.2) same)⟩

/-- A deregistration leaves everything owned if and only if nothing is pending on the descriptor. -/
theorem owned_deregister_iff (sound : ring.Sound) (owned : ring.Owned) (fd : Fd) :
    (ring.deregister fd).Owned ↔ ∀ pair ∈ ring.ops, pair.1.2 ≠ fd := by
  constructor
  · intro after pair member same
    have stays : ∀ entry ∈ ring.outstanding, entry ∈ (ring.deregister fd).outstanding :=
      fun _ member => member
    refine sound.lost member stays (fun other there sameSerial => ?_) after
    obtain ⟨inside, differs⟩ := mem_ops_deregister.mp there
    exact differs (sound.eq_of_serial inside member sameSerial ▸ same)
  · intro free entry member ctx own
    obtain ⟨pair, inside, facts⟩ := owned entry member ctx own
    exact ⟨pair, mem_ops_deregister.mpr ⟨inside, free pair inside⟩, facts⟩

theorem Sound.process (sound : ring.Sound) {entry : Entry} {res : Int}
    {completed : List (Entry × Int)} (first : ring.completed = (entry, res) :: completed)
    (left : Nat) (toResume : List Ctx) (accepted : Nat) :
    ({ ring with completed }.process entry res left toResume accepted).Sound ∧
      (ring.OwnsAll →
        ({ ring with completed }.process entry res left toResume accepted).OwnsAll) := by
  unfold IoUringBackend.process
  cases own : entry.data with
  | timeout =>
    have control : ∀ ctx, entry.data ≠ .op ctx := fun ctx wrong => by cases own.symm.trans wrong
    have after := sound.taken first control
    exact ⟨after.of_perm rfl (.refl _) (Nat.le_refl _),
      fun owns => ⟨(owns.owned.taken first).of_perm rfl (.refl _), owns.attributed⟩⟩
  | wakeup =>
    have control : ∀ ctx, entry.data ≠ .op ctx := fun ctx wrong => by cases own.symm.trans wrong
    have requests := requests_queueEntry { ring with completed } .wakeup accepted
    obtain ⟨after, owned⟩ := (sound.taken first control).requests requests
      fun _ wrong => by cases wrong
    refine ⟨after.of_perm rfl (.refl _) (Nat.le_refl _), fun owns => ⟨?_, ?_⟩⟩
    · exact (owned (owns.owned.taken first)).of_perm rfl (.refl _)
    · intro attribution member
      exact owns.attributed attribution (requests.attributions ▸ member)
  | op ctx =>
    refine ⟨(sound.finishOp first own).of_perm rfl (.refl _) (Nat.le_refl _), fun owns => ⟨?_, ?_⟩⟩
    · exact (owns.owned.finishOp sound first own).of_perm rfl (.refl _)
    · exact owns.attributed.finishOp owns.owned sound first own

theorem Sound.poll (sound : ring.Sound) (timeoutMs : Int) (accepted : Nat) :
    (ring.poll timeoutMs accepted).Sound ∧
      (ring.OwnsAll → (ring.poll timeoutMs accepted).OwnsAll) := by
  have requests := requests_queueEntry ring .timeout accepted
  obtain ⟨after, owned⟩ := sound.requests requests fun _ wrong => by cases wrong
  unfold IoUringBackend.poll
  dsimp only
  split
  · split
    · rename_i next given
      rw [given] at requests after owned
      refine ⟨after.of_perm rfl (.refl _) (Nat.le_refl _), fun owns => ⟨?_, ?_⟩⟩
      · exact (owned owns.owned).of_perm rfl (.refl _)
      · exact fun attribution member => owns.attributed attribution (requests.attributions ▸ member)
    · rename_i next refused
      rw [refused] at requests after owned
      refine ⟨after.of_perm rfl (.refl _) (Nat.le_refl _), fun owns => ⟨?_, ?_⟩⟩
      · exact (owned owns.owned).of_perm rfl (.refl _)
      · exact fun attribution member => owns.attributed attribution (requests.attributions ▸ member)
  · exact ⟨sound.of_perm rfl (.refl _) (Nat.le_refl _),
      fun owns => ⟨owns.owned.of_perm rfl (.refl _), owns.attributed⟩⟩

theorem Sound.deregister (sound : ring.Sound) (fd : Fd) : (ring.deregister fd).Sound :=
  (sound.erase (.read, fd)).erase (.write, fd)

theorem Sound.submit (sound : ring.Sound) {ctx : Ctx} (fresh : ring.find ctx = none)
    (type : OpType) (fd : Fd) (accepted : Nat) : (ring.submit type fd ctx accepted).Sound := by
  obtain ⟨submits, issued, _⟩ := submits_submit ring type fd ctx accepted
  exact sound.submits submits rfl issued (find_eq_none fresh)

/-- Every step keeps what is known of the rings, and a step leaves everything owned if and only if
it finds no operation that it would take out of the maps. -/
theorem Sound.moves (sound : ring.Sound) {action : UringAction} (moves : Moves ring action next) :
    next.Sound ∧ (ring.OwnsAll → (next.OwnsAll ↔ ring.Spares action)) := by
  have kept (same : ring.OwnsAll → next.OwnsAll) (spares : ring.Spares action) :
      ring.OwnsAll → (next.OwnsAll ↔ ring.Spares action) :=
    fun owns => iff_of_true (same owns) spares
  cases moves with
  | @submit type fd ctx accepted fresh =>
    obtain ⟨submits, _, attributions⟩ := submits_submit ring type fd ctx accepted
    refine ⟨sound.submit fresh type fd accepted, fun owns => ?_⟩
    have owned := owned_submits_iff sound owns.owned submits rfl
    refine Iff.trans ⟨OwnsAll.owned, fun after => ⟨after, ?_⟩⟩ owned
    unfold Attributed
    rw [attributions]
    exact owns.attributed
  | @deregister fd =>
    refine ⟨sound.deregister fd, fun owns => ?_⟩
    have owned := owned_deregister_iff sound owns.owned fd
    exact Iff.trans ⟨OwnsAll.owned, fun after => ⟨after, owns.attributed⟩⟩ owned
  | finish found =>
    have perm := ring.outstanding_finish found
    exact ⟨sound.of_perm rfl (perm _) (Nat.le_refl _),
      kept (fun owns => ⟨owns.owned.of_perm rfl (perm _), owns.attributed⟩) trivial⟩
  | poll _ =>
    obtain ⟨after, owns⟩ := sound.poll _ _
    exact ⟨after, kept owns trivial⟩
  | enter _ =>
    have perm := ring.outstanding_enter
    exact ⟨sound.of_perm rfl (perm _) (Nat.le_refl _),
      kept (fun owns => ⟨owns.owned.of_perm rfl (perm _), owns.attributed⟩) trivial⟩
  | process _ first =>
    obtain ⟨after, owns⟩ := sound.process first _ _ _
    exact ⟨after, kept owns trivial⟩
  | look | processed | resume | leave =>
    exact ⟨sound.of_perm rfl (.refl _) (Nat.le_refl _),
      kept (fun owns => ⟨owns.owned.of_perm rfl (.refl _), owns.attributed⟩) trivial⟩

end Steps

/-! ### Runs -/

/-- The ring is set up with at most the wake-up entry in it. -/
theorem sound_setupRing (sqEntries : Nat) (wakeFd : Fd) (accepted : Nat) :
    (setupRing sqEntries wakeFd accepted).Sound ∧
      (setupRing sqEntries wakeFd accepted).OwnsAll := by
  have sound : ({ sqEntries, wakeFd } : IoUringBackend).Sound :=
    ⟨.nil, .nil, .nil, fun _ member => absurd member List.not_mem_nil,
      fun _ member => absurd member List.not_mem_nil⟩
  have owns : ({ sqEntries, wakeFd } : IoUringBackend).OwnsAll :=
    ⟨fun _ member => absurd member List.not_mem_nil,
      fun _ member => absurd member List.not_mem_nil⟩
  have requests := requests_queueEntry { sqEntries, wakeFd } .wakeup accepted
  obtain ⟨after, owned⟩ := sound.requests requests fun _ wrong => by cases wrong
  have attributed := requests.attributions
  unfold setupRing
  dsimp only
  split
  · exact ⟨sound, owns⟩
  · split
    · rename_i ring given
      rw [given] at after owned attributed
      have perm := ring.outstanding_enter accepted
      refine ⟨after.of_perm rfl perm (Nat.le_refl _),
        (owned owns.owned).of_perm rfl perm, fun attribution member => ?_⟩
      exact owns.attributed attribution (attributed ▸ member)
    · rename_i ring refused
      rw [refused] at after owned attributed
      refine ⟨after, owned owns.owned, fun attribution member => ?_⟩
      exact owns.attributed attribution (attributed ▸ member)

/-- Throughout a run the backend holds the contexts of all outstanding entries, and attributes each
completion to its operation, if and only if every submission finds its direction and descriptor
free, and every deregistration its descriptor. -/
theorem ownsAll_throughout_iff {sqEntries : Nat} {wakeFd : Fd} {accepted : Nat}
    {actions : List UringAction} {final : IoUringBackend}
    (run : after step (setupRing sqEntries wakeFd accepted) actions = some final) :
    (∀ front ring, front <+: actions →
        after step (setupRing sqEntries wakeFd accepted) front = some ring → ring.OwnsAll) ↔
      Heeds step Spares (setupRing sqEntries wakeFd accepted) actions := by
  obtain ⟨sound, owns⟩ := sound_setupRing sqEntries wakeFd accepted
  have soundStep (ring : IoUringBackend) (action : UringAction) (next : IoUringBackend)
      (sound : ring.Sound) (taken : ring.step action = some next) : next.Sound :=
    (sound.moves (step_moves taken)).1
  have exactStep (ring : IoUringBackend) (action : UringAction) (next : IoUringBackend)
      (sound : ring.Sound) (owns : ring.OwnsAll) (taken : ring.step action = some next) :
      next.OwnsAll ↔ ring.Spares action := (sound.moves (step_moves taken)).2 owns
  exact forall_front_iff_heeds soundStep exactStep sound owns run

/-- A read and a write on one descriptor, completed in the other order. -/
theorem ownsAll_throughout_both :
    let actions : List UringAction :=
      [.submit .read 5 0 0, .submit .write 5 1 0, .poll 0 0, .enter 2, .look, .process 0, .leave,
        .finish 2 8, .poll 100 0, .enter 0, .finish 1 3, .look, .process 0, .process 0]
    (after step (setupRing 256 3 1) actions).isSome ∧
      ∀ front ring, front <+: actions → after step (setupRing 256 3 1) front = some ring →
        ring.OwnsAll := by
  refine ⟨rfl, (ownsAll_throughout_iff rfl).mpr ?_⟩
  decide

/-- A descriptor is deregistered while a read is in flight. The next context is at the address of
the former one, and the completion of the first read is taken for that of the second. -/
theorem not_ownsAll_deregister :
    ∃ ring, after step (setupRing 256 3 1)
        [.submit .read 5 0 0, .poll 0 0, .enter 1, .look, .process 0, .leave, .deregister 5,
          .submit .read 7 0 0, .finish 1 3, .poll 0 0, .enter 0, .look, .process 0] = some ring ∧
      ring.attributions = [(1, some 2)] ∧ ¬ ring.OwnsAll := by
  refine ⟨_, rfl, rfl, fun owns => ?_⟩
  cases owns.attributed (1, some 2) (List.mem_singleton_self _)

end IoUringBackend

end AsyncNet.Io
