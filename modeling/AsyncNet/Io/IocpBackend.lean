/-
This file models `IocpBackend` of `io/iocp_backend.cpp`, which any number of threads poll. The
kernel has an overlapped operation by its descriptor and by the address of its `OVERLAPPED`, and
hands one packet for it to one of the threads. The thread looks the address up among the operations
of the descriptor.

Nothing else ties a packet to its operation. When a descriptor is deregistered, its operations are
freed while the kernel still has them, and their addresses can be given to new ones. As long as no
new operation of a descriptor has the address of one that the kernel still has, each packet
completes the operation that it was issued for.
-/

import AsyncNet.Io.EpollBackend
import AsyncNet.Library.Bindings
import Mathlib.Data.List.Nodup

namespace AsyncNet.Io

open Library

/-! ### The backend -/

/-- `OverlappedOp`, with its address. -/
structure OverlappedOp where
  fd : Fd
  address : Nat
  type : OpType
  ctx : Ctx
  deriving DecidableEq

/-- An overlapped operation of the kernel, and then its packet: the completion key and the address.
The context is that of the operation for which it was issued, which the packet does not show. -/
structure Packet where
  fd : Fd
  address : Nat
  ctx : Ctx
  deriving DecidableEq

/-- What the kernel reports with a packet: the bytes transferred, or an error. -/
abbrev Report := Except Nat Nat

/-- Where a thread is in `poll_impl`: between `GetQueuedCompletionStatus` and the section under the
mutex, or after the section. -/
inductive PacketPoll where
  | taken (packet : Packet) (report : Report)
  | resuming (toResume : List Ctx)
  deriving DecidableEq

def PacketPoll.toResume : PacketPoll → List Ctx
  | .taken .. => []
  | .resuming toResume => toResume

def PacketPoll.packets : PacketPoll → List Packet
  | .taken packet _ => [packet]
  | .resuming _ => []

/-- `IocpBackend`, with the operations that the kernel has and the threads that are in `poll_impl`.
`ops` are the vectors of `pending_ops_`. The other fields record the contexts that have been
submitted, those completed by the call that has submitted them, the calls of `complete` and those
of `resume`, the contexts whose operations have been freed without being completed, and for each
packet that has completed an operation the two contexts. -/
structure IocpBackend where
  ops : List OverlappedOp := []
  flying : List Packet := []
  polls : Bindings Nat PacketPoll := []
  submitted : List Ctx := []
  immediate : List Ctx := []
  completions : List Completion := []
  resumed : List Ctx := []
  dropped : List Ctx := []
  matched : List (Ctx × Ctx) := []

namespace IocpBackend

/-- `ctx->complete(result, error)`. -/
def complete (backend : IocpBackend) (ctx : Ctx) (outcome : Int × Nat) : IocpBackend :=
  { backend with completions := backend.completions ++ [⟨ctx, outcome.1, outcome.2⟩] }

/-- What is completed by its submission: a wait for writability, and what the kernel refuses. -/
def attempt : OpType → Option Nat → Option (Int × Nat)
  | .waitWritable, _ => some (0, 0)
  | _, some error => some (-1, error)
  | _, none => none

/-- `async_read_impl` and its siblings, with the address of the new `OverlappedOp` and the error
with which the kernel refuses the operation, if it does. An operation that is done at once has a
packet as well. -/
def submit (backend : IocpBackend) (type : OpType) (fd : Fd) (ctx : Ctx) (address : Nat)
    (refused : Option Nat) : IocpBackend :=
  let backend := { backend with submitted := backend.submitted ++ [ctx] }
  match attempt type refused with
  | some outcome =>
      { backend.complete ctx outcome with immediate := backend.immediate ++ [ctx] }
  | none =>
      { backend with
        ops := backend.ops ++ [⟨fd, address, type, ctx⟩]
        flying := backend.flying ++ [⟨fd, address, ctx⟩] }

/-- `deregister_impl`. The kernel is not told. -/
def deregister (backend : IocpBackend) (fd : Fd) : IocpBackend :=
  { backend with
    ops := backend.ops.filter fun op => op.fd ≠ fd
    dropped := backend.dropped ++ (backend.ops.filter fun op => op.fd = fd).map OverlappedOp.ctx }

/-- `error == NO_ERROR ? bytes_transferred : -1`, and the error. -/
def outcome : Report → Int × Nat
  | .ok bytes => (bytes, 0)
  | .error error => (-1, error)

/-- The section of `poll_impl`: the operation of the descriptor with this address is completed and
taken out. -/
def process (backend : IocpBackend) (thread : Nat) (packet : Packet) (report : Report) :
    IocpBackend :=
  match backend.ops.find? fun op => op.fd = packet.fd && op.address = packet.address with
  | none => { backend with polls := Bindings.write thread (some (.resuming [])) backend.polls }
  | some op =>
      { backend.complete op.ctx (outcome report) with
        ops := backend.ops.filter fun other => !(other.fd = op.fd && other.address = op.address)
        polls := Bindings.write thread (some (.resuming [op.ctx])) backend.polls
        matched := backend.matched ++ [(packet.ctx, op.ctx)] }

end IocpBackend

/-! ### Steps -/

inductive IocpAction where
  | submit (type : OpType) (fd : Fd) (ctx : Ctx) (address : Nat) (refused : Option Nat)
  | deregister (fd : Fd)
  /-- `GetQueuedCompletionStatus` returns in the thread with the packet of the operation. -/
  | take (thread : Nat) (packet : Packet) (report : Report)
  | process (thread : Nat)
  | resume (thread : Nat)
  | leave (thread : Nat)

namespace IocpBackend

/-- A step of a thread. `make_unique` gives an address at which no `OverlappedOp` is. -/
def step (backend : IocpBackend) : IocpAction → Option IocpBackend
  | .submit type fd ctx address refused =>
      if ctx ∉ backend.submitted ∧ ∀ op ∈ backend.ops, op.address ≠ address then
        some (backend.submit type fd ctx address refused)
      else none
  | .deregister fd => some (backend.deregister fd)
  | .take thread packet report =>
      if Bindings.read thread backend.polls = none ∧ packet ∈ backend.flying then
        some { backend with
          flying := backend.flying.erase packet
          polls := Bindings.write thread (some (.taken packet report)) backend.polls }
      else none
  | .process thread =>
      match Bindings.read thread backend.polls with
      | some (.taken packet report) => some (backend.process thread packet report)
      | _ => none
  | .resume thread =>
      match Bindings.read thread backend.polls with
      | some (.resuming (ctx :: toResume)) =>
          some { backend with
            polls := Bindings.write thread (some (.resuming toResume)) backend.polls
            resumed := backend.resumed ++ [ctx] }
      | _ => none
  | .leave thread =>
      match Bindings.read thread backend.polls with
      | some (.resuming []) =>
          some { backend with polls := Bindings.write thread none backend.polls }
      | _ => none

/-! ### What is to be kept -/

def pending (backend : IocpBackend) : List Ctx := backend.ops.map OverlappedOp.ctx

/-- What the threads are going to resume. -/
def toResume (backend : IocpBackend) : List Ctx :=
  backend.polls.flatMap fun entry => entry.2.toResume

/-- The packets that have not been looked up yet. -/
def packets (backend : IocpBackend) : List Packet :=
  backend.flying ++ backend.polls.flatMap fun entry => entry.2.packets

/-- Each operation that has been submitted is in one place, those that are completed are resumed
once, each by the packet that was issued for it, and for those in the maps the packet is to come. -/
structure Accounted (backend : IocpBackend) : Prop where
  once : backend.submitted.Nodup
  places : backend.submitted.Perm (backend.immediate ++ backend.resumed ++ backend.toResume ++
    backend.pending ++ backend.dropped)
  completed : (backend.completions.map Completion.ctx).Perm
    (backend.immediate ++ backend.resumed ++ backend.toResume)
  own : ∀ pair ∈ backend.matched, pair.1 = pair.2
  awaited : ∀ op ∈ backend.ops, (⟨op.fd, op.address, op.ctx⟩ : Packet) ∈ backend.packets

/-- An operation that is given to the kernel has not the address of another one of its descriptor
whose packet has not been looked up yet. -/
def Fresh (backend : IocpBackend) : IocpAction → Prop
  | .submit type fd _ address refused => attempt type refused = none →
      ∀ packet ∈ backend.packets, ¬ (packet.fd = fd ∧ packet.address = address)
  | _ => True

/-- The step frees no operation that is not completed. -/
def Spares (backend : IocpBackend) : IocpAction → Prop
  | .deregister fd => ∀ op ∈ backend.ops, op.fd ≠ fd
  | _ => True

/-- The invariant. No two packets look the same, and no two operations have one address. -/
structure Sound (backend : IocpBackend) : Prop where
  accounted : backend.Accounted
  polls : Bindings.Distinct backend.polls
  addresses : (backend.ops.map OverlappedOp.address).Nodup
  keys : (backend.packets.map fun packet => (packet.fd, packet.address)).Nodup

theorem sound_new : ({} : IocpBackend).Sound where
  accounted := ⟨List.nodup_nil, .nil, .nil, nofun, nofun⟩
  polls := List.nodup_nil
  addresses := List.nodup_nil
  keys := List.nodup_nil

/-! ### Steps keep it -/

section Steps

variable {backend next : IocpBackend}

/-- Every context is in as many places as it has been submitted times. -/
theorem Accounted.count (accounted : backend.Accounted) (ctx : Ctx) :
    backend.submitted.count ctx = backend.immediate.count ctx + backend.resumed.count ctx +
      backend.toResume.count ctx + backend.pending.count ctx + backend.dropped.count ctx := by
  rw [accounted.places.count_eq ctx]
  simp only [List.count_append]

theorem Accounted.count_completed (accounted : backend.Accounted) (ctx : Ctx) :
    (backend.completions.map Completion.ctx).count ctx = backend.immediate.count ctx +
      backend.resumed.count ctx + backend.toResume.count ctx := by
  rw [accounted.completed.count_eq ctx]
  simp only [List.count_append]

/-- A step that submits nothing is checked by counting. -/
theorem Accounted.of_count (accounted : backend.Accounted)
    (same : next.submitted = backend.submitted)
    (places : ∀ ctx, next.immediate.count ctx + next.resumed.count ctx + next.toResume.count ctx +
        next.pending.count ctx + next.dropped.count ctx =
      backend.immediate.count ctx + backend.resumed.count ctx + backend.toResume.count ctx +
        backend.pending.count ctx + backend.dropped.count ctx)
    (completed : ∀ ctx, (next.completions.map Completion.ctx).count ctx =
      next.immediate.count ctx + next.resumed.count ctx + next.toResume.count ctx)
    (own : ∀ pair ∈ next.matched, pair.1 = pair.2)
    (awaited : ∀ op ∈ next.ops, (⟨op.fd, op.address, op.ctx⟩ : Packet) ∈ next.packets) :
    next.Accounted where
  once := same ▸ accounted.once
  places := by
    refine List.perm_iff_count.mpr fun ctx => ?_
    rw [same, accounted.count]
    simp only [List.count_append]
    exact (places ctx).symm
  completed := by
    refine List.perm_iff_count.mpr fun ctx => ?_
    simp only [List.count_append]
    exact completed ctx
  own := own
  awaited := awaited

theorem count_toResume_write (distinct : Bindings.Distinct backend.polls) (thread : Nat)
    (poll : Option PacketPoll) (ctx : Ctx) :
    ((Bindings.read thread backend.polls).toList.flatMap PacketPoll.toResume).count ctx +
        ((Bindings.write thread poll backend.polls).flatMap fun entry => entry.2.toResume).count
          ctx =
      (poll.toList.flatMap PacketPoll.toResume).count ctx + backend.toResume.count ctx :=
  Bindings.count_write PacketPoll.toResume thread poll backend.polls distinct ctx

/-- The packets after a thread has gone on to somewhere else in `poll_impl`. -/
theorem perm_packets_write (distinct : Bindings.Distinct backend.polls) (thread : Nat)
    (poll : Option PacketPoll) :
    ((Bindings.read thread backend.polls).toList.flatMap PacketPoll.packets ++
        packets { backend with polls := Bindings.write thread poll backend.polls }).Perm
      (poll.toList.flatMap PacketPoll.packets ++ backend.packets) := by
  have written := Bindings.perm_flatMap_write PacketPoll.packets thread poll backend.polls distinct
  unfold packets
  exact (List.perm_append_comm_assoc ..).trans ((written.append_left backend.flying).trans
    (List.perm_append_comm_assoc ..))

theorem Sound.submit (sound : backend.Sound) (type : OpType) (fd : Fd) {ctx : Ctx} {address : Nat}
    {refused : Option Nat} (new : ctx ∉ backend.submitted)
    (free : ∀ op ∈ backend.ops, op.address ≠ address)
    (fresh : backend.Fresh (.submit type fd ctx address refused)) :
    (backend.submit type fd ctx address refused).Sound := by
  obtain ⟨accounted, polls, addresses, keys⟩ := sound
  have once : (backend.submitted ++ [ctx]).Nodup :=
    List.nodup_append.mpr ⟨accounted.once, List.nodup_singleton ctx,
      fun other member another same =>
        List.mem_singleton.mp same ▸ ne_of_mem_of_not_mem member new⟩
  unfold Fresh at fresh
  unfold IocpBackend.submit
  dsimp only at fresh
  cases attempted : attempt type refused with
  | some outcome =>
    refine ⟨⟨once, List.perm_iff_count.mpr fun other => ?_,
      List.perm_iff_count.mpr fun other => ?_, accounted.own, accounted.awaited⟩, polls, addresses,
      keys⟩
    · have before := accounted.count other
      unfold toResume pending at before
      unfold toResume pending complete
      simp only [List.count_append] at before ⊢
      omega
    · have before := accounted.count_completed other
      unfold toResume at before
      unfold toResume complete
      simp only [List.count_append, List.map_append, List.map_cons, List.map_nil] at before ⊢
      omega
  | none =>
    have fresh := fresh attempted
    have perm : (packets { backend with flying := backend.flying ++ [⟨fd, address, ctx⟩] }).Perm
        (⟨fd, address, ctx⟩ :: backend.packets) := by
      unfold packets
      rw [List.append_assoc, List.singleton_append]
      exact List.perm_middle
    refine ⟨⟨once, List.perm_iff_count.mpr fun other => ?_,
      List.perm_iff_count.mpr fun other => ?_, accounted.own, fun op member => perm.mem_iff.mpr ?_⟩,
      polls, ?_, ?_⟩
    · have before := accounted.count other
      unfold toResume pending at before
      unfold toResume pending
      simp only [List.count_append, List.map_append, List.map_cons, List.map_nil] at before ⊢
      omega
    · have before := accounted.count_completed other
      simp only [List.count_append]
      exact before
    · rcases List.mem_append.mp member with member | member
      · exact List.mem_cons_of_mem _ (accounted.awaited op member)
      · rw [List.mem_singleton.mp member]
        exact List.mem_cons_self
    · show ((backend.ops ++ [_]).map OverlappedOp.address).Nodup
      rw [List.map_append]
      refine List.nodup_append.mpr ⟨addresses, List.nodup_singleton _, ?_⟩
      intro first member second same
      obtain ⟨op, known, rfl⟩ := List.mem_map.mp member
      rw [List.mem_singleton.mp same]
      exact free op known
    · refine ((perm.map _).nodup_iff).mpr (List.nodup_cons.mpr ⟨fun member => ?_, keys⟩)
      obtain ⟨packet, known, same⟩ := List.mem_map.mp member
      exact fresh packet known (Prod.mk.inj same)

theorem Sound.deregister (sound : backend.Sound) (fd : Fd) : (backend.deregister fd).Sound := by
  obtain ⟨accounted, polls, addresses, keys⟩ := sound
  refine ⟨accounted.of_count rfl (fun ctx => ?_) accounted.count_completed accounted.own
    fun op member => accounted.awaited op (List.mem_filter.mp member).1, polls,
    addresses.sublist (List.filter_sublist.map _), keys⟩
  have split := ((List.filter_append_perm (fun op : OverlappedOp => decide (op.fd = fd))
    backend.ops).map OverlappedOp.ctx).count_eq ctx
  have same : (fun op : OverlappedOp => !decide (op.fd = fd)) = fun op => decide (op.fd ≠ fd) :=
    funext fun op => decide_not.symm
  rw [same] at split
  unfold IocpBackend.deregister toResume pending
  simp only [List.count_append, List.map_append] at split ⊢
  omega

theorem Sound.take (sound : backend.Sound) {thread : Nat} {packet : Packet} (report : Report)
    (free : Bindings.read thread backend.polls = none) (member : packet ∈ backend.flying) :
    Sound { backend with
      flying := backend.flying.erase packet
      polls := Bindings.write thread (some (.taken packet report)) backend.polls } := by
  obtain ⟨accounted, polls, addresses, keys⟩ := sound
  set next : IocpBackend := { backend with
    flying := backend.flying.erase packet
    polls := Bindings.write thread (some (.taken packet report)) backend.polls } with taken
  have same : ∀ ctx, next.toResume.count ctx = backend.toResume.count ctx := fun ctx => by
    have written := count_toResume_write polls thread (some (.taken packet report)) ctx
    rw [free, Option.toList_none, Option.toList_some, List.flatMap_singleton, List.flatMap_nil]
      at written
    exact (Nat.zero_add _).symm.trans (written.trans (Nat.zero_add _))
  have perm : next.packets.Perm backend.packets := by
    have written := perm_packets_write polls thread (some (.taken packet report))
    rw [free] at written
    have erased : backend.flying.Perm (packet :: backend.flying.erase packet) :=
      List.perm_cons_erase member
    have whole : (packet :: next.packets).Perm (packet :: backend.packets) :=
      (erased.symm.append_right _).trans written
    exact (List.perm_cons packet).mp whole
  refine ⟨accounted.of_count rfl (fun ctx => ?_) (fun ctx => ?_) accounted.own fun op known =>
    perm.mem_iff.mpr (accounted.awaited op known), polls.write thread (some (.taken packet report)),
    addresses, (perm.map _).nodup_iff.mpr keys⟩
  · rw [same ctx]
    rfl
  · rw [same ctx]
    exact accounted.count_completed ctx

/-- Two packets that have not been looked up look different. -/
theorem Sound.packet_eq (sound : backend.Sound) {first second : Packet}
    (left : first ∈ backend.packets) (right : second ∈ backend.packets)
    (fd : first.fd = second.fd) (address : first.address = second.address) : first = second :=
  List.inj_on_of_nodup_map sound.keys left right (Prod.ext fd address)

theorem Sound.process (sound : backend.Sound) {thread : Nat} {packet : Packet} {report : Report}
    (taken : Bindings.read thread backend.polls = some (.taken packet report)) :
    (backend.process thread packet report).Sound := by
  have unique := @Sound.packet_eq backend sound
  obtain ⟨accounted, polls, addresses, keys⟩ := sound
  have perm : ∀ toResume, backend.packets.Perm (packet :: packets { backend with
      polls := Bindings.write thread (some (.resuming toResume)) backend.polls }) :=
    fun toResume => by
      have written := perm_packets_write polls thread (some (.resuming toResume))
      rw [taken] at written
      exact written.symm
  have resumes : ∀ toResume ctx, ((Bindings.write thread (some (.resuming toResume))
      backend.polls).flatMap fun entry => entry.2.toResume).count ctx =
        toResume.count ctx + backend.toResume.count ctx := fun toResume ctx => by
    have written := count_toResume_write polls thread (some (.resuming toResume)) ctx
    rw [taken, Option.toList_some, Option.toList_some, List.flatMap_singleton,
      List.flatMap_singleton] at written
    exact (Nat.zero_add _).symm.trans written
  have here : packet ∈ backend.packets := (perm []).mem_iff.mpr List.mem_cons_self
  have left : ∀ toResume, (packets { backend with
      polls := Bindings.write thread (some (.resuming toResume)) backend.polls }).map
        (fun packet => (packet.fd, packet.address)) |>.Nodup := fun toResume =>
    (List.nodup_cons.mp (((perm toResume).map _).nodup_iff.mp keys)).2
  unfold IocpBackend.process
  cases found : backend.ops.find? fun op => op.fd = packet.fd && op.address = packet.address with
  | none =>
    dsimp only
    refine ⟨accounted.of_count rfl (fun ctx => ?_) (fun ctx => ?_) accounted.own
      fun op known => ?_, polls.write thread (some (.resuming [])), addresses, left []⟩
    · have same := resumes [] ctx
      unfold toResume at same ⊢
      unfold pending
      rw [same]
      simp only [List.count_nil, Nat.zero_add]
    · have same := resumes [] ctx
      have completed := accounted.count_completed ctx
      unfold toResume at same completed ⊢
      rw [same, completed]
      simp only [List.count_nil, Nat.zero_add]
    · have member := (perm []).mem_iff.mp (accounted.awaited op known)
      refine (List.mem_cons.mp member).resolve_left fun same => ?_
      have differs := List.find?_eq_none.mp found op known
      rw [← same] at differs
      simp at differs
  | some op =>
    have known := List.mem_of_find?_eq_some found
    have keyed := List.find?_some found
    simp only [Bool.and_eq_true, decide_eq_true_eq] at keyed
    have own := unique here (accounted.awaited op known) keyed.1.symm keyed.2.symm
    have others : (backend.ops.filter fun other =>
        !(other.fd = op.fd && other.address = op.address)) = backend.ops.erase op := by
      rw [List.Nodup.erase_eq_filter addresses.of_map]
      refine List.filter_congr fun other member => ?_
      by_cases same : other = op
      · rw [same]
        simp
      · have apart : other.address ≠ op.address := fun equal =>
          same (List.inj_on_of_nodup_map addresses member known equal)
        simp [same, apart]
    have erased := List.perm_cons_erase known
    dsimp only
    rw [others]
    refine ⟨accounted.of_count rfl (fun ctx => ?_) (fun ctx => ?_) (fun pair member => ?_)
      fun other member => ?_, polls.write thread (some (.resuming [op.ctx])),
      addresses.sublist (List.erase_sublist.map _), left [op.ctx]⟩
    · have same := resumes [op.ctx] ctx
      have split := (erased.map OverlappedOp.ctx).count_eq ctx
      rw [List.map_cons, ← List.singleton_append, List.count_append] at split
      unfold toResume at same ⊢
      unfold pending complete
      dsimp only
      omega
    · have same := resumes [op.ctx] ctx
      have completed := accounted.count_completed ctx
      unfold toResume at same completed ⊢
      unfold complete
      simp only [List.map_append, List.count_append, List.map_cons, List.map_nil]
      omega
    · rcases List.mem_append.mp member with member | member
      · exact accounted.own pair member
      · rw [List.mem_singleton.mp member, own]
    · have still := List.mem_of_mem_erase member
      have awaits := (perm [op.ctx]).mem_iff.mp (accounted.awaited other still)
      refine (List.mem_cons.mp awaits).resolve_left fun same => ?_
      have equal : other = op := by
        refine List.inj_on_of_nodup_map addresses still known ?_
        rw [keyed.2, ← same]
      rw [equal] at member
      exact absurd member (addresses.of_map.not_mem_erase)

theorem Sound.resume (sound : backend.Sound) {thread : Nat} {ctx : Ctx} {toResume : List Ctx}
    (known : Bindings.read thread backend.polls = some (.resuming (ctx :: toResume))) :
    Sound { backend with
      polls := Bindings.write thread (some (.resuming toResume)) backend.polls
      resumed := backend.resumed ++ [ctx] } := by
  obtain ⟨accounted, polls, addresses, keys⟩ := sound
  have moves : ∀ other, [ctx].count other + ((Bindings.write thread (some (.resuming toResume))
      backend.polls).flatMap fun entry => entry.2.toResume).count other =
        backend.toResume.count other := fun other => by
    have written := count_toResume_write polls thread (some (.resuming toResume)) other
    rw [known, Option.toList_some, Option.toList_some, List.flatMap_singleton,
      List.flatMap_singleton] at written
    rw [show PacketPoll.toResume (.resuming (ctx :: toResume)) = [ctx] ++ toResume from rfl,
      show PacketPoll.toResume (.resuming toResume) = toResume from rfl, List.count_append]
      at written
    omega
  have perm := perm_packets_write polls thread (some (.resuming toResume))
  rw [known] at perm
  refine ⟨accounted.of_count rfl (fun other => ?_) (fun other => ?_) accounted.own fun op member =>
    perm.mem_iff.mpr (accounted.awaited op member), polls.write thread (some (.resuming toResume)),
    addresses, (perm.map _).nodup_iff.mpr keys⟩
  · have moves := moves other
    unfold IocpBackend.toResume at moves ⊢
    unfold pending
    simp only [List.count_append]
    omega
  · have moves := moves other
    have completed := accounted.count_completed other
    unfold IocpBackend.toResume at moves completed ⊢
    simp only [List.count_append]
    omega

theorem Sound.leave (sound : backend.Sound) {thread : Nat}
    (known : Bindings.read thread backend.polls = some (.resuming [])) :
    Sound { backend with polls := Bindings.write thread none backend.polls } := by
  obtain ⟨accounted, polls, addresses, keys⟩ := sound
  have same : ∀ ctx, ((Bindings.write thread none backend.polls).flatMap
      fun entry => entry.2.toResume).count ctx = backend.toResume.count ctx := fun ctx => by
    have written := count_toResume_write polls thread none ctx
    rw [known, Option.toList_some, Option.toList_none, List.flatMap_singleton, List.flatMap_nil]
      at written
    exact (Nat.zero_add _).symm.trans (written.trans (Nat.zero_add _))
  have perm := perm_packets_write polls thread none
  rw [known] at perm
  refine ⟨accounted.of_count rfl (fun ctx => ?_) (fun ctx => ?_) accounted.own fun op member =>
    perm.mem_iff.mpr (accounted.awaited op member), polls.write thread none, addresses,
    (perm.map _).nodup_iff.mpr keys⟩
  · have same := same ctx
    unfold toResume at same ⊢
    unfold pending
    rw [same]
  · have same := same ctx
    have completed := accounted.count_completed ctx
    unfold toResume at same completed ⊢
    rw [same]
    exact completed

theorem Sound.step (sound : backend.Sound) {action : IocpAction} (fresh : backend.Fresh action)
    (taken : backend.step action = some next) : next.Sound := by
  cases action with
  | submit type fd ctx address refused =>
    unfold IocpBackend.step at taken
    dsimp only at taken
    split at taken
    · next may =>
      cases taken
      exact sound.submit type fd may.1 may.2 fresh
    · cases taken
  | deregister fd =>
    cases taken
    exact sound.deregister fd
  | take thread packet report =>
    unfold IocpBackend.step at taken
    dsimp only at taken
    split at taken
    · next may =>
      cases taken
      exact sound.take report may.1 may.2
    · cases taken
  | process thread =>
    unfold IocpBackend.step at taken
    dsimp only at taken
    split at taken
    · next packet report known =>
      cases taken
      exact sound.process known
    · cases taken
  | resume thread =>
    unfold IocpBackend.step at taken
    dsimp only at taken
    split at taken
    · next ctx toResume known =>
      cases taken
      exact sound.resume known
    · cases taken
  | leave thread =>
    unfold IocpBackend.step at taken
    dsimp only at taken
    split at taken
    · next known =>
      cases taken
      exact sound.leave known
    · cases taken

/-- A step drops nothing more if and only if it spares what is in the maps. -/
theorem dropped_step {action : IocpAction} (taken : backend.step action = some next) :
    next.dropped = [] ↔ backend.dropped = [] ∧ backend.Spares action := by
  have same (equal : next.dropped = backend.dropped) (spares : backend.Spares action) :
      next.dropped = [] ↔ backend.dropped = [] ∧ backend.Spares action := by
    rw [equal]
    exact (and_iff_left spares).symm
  cases action with
  | submit type fd ctx address refused =>
    unfold IocpBackend.step at taken
    dsimp only at taken
    split at taken
    · cases taken
      refine same ?_ trivial
      unfold submit
      cases attempt type refused <;> rfl
    · cases taken
  | deregister fd =>
    cases taken
    refine List.append_eq_nil_iff.trans (and_congr_right fun _ => ?_)
    rw [List.map_eq_nil_iff, List.filter_eq_nil_iff]
    refine forall₂_congr fun op _ => ?_
    simp
  | take thread packet report =>
    unfold IocpBackend.step at taken
    dsimp only at taken
    split at taken
    · cases taken
      exact same rfl trivial
    · cases taken
  | process thread =>
    unfold IocpBackend.step at taken
    dsimp only at taken
    split at taken
    · cases taken
      refine same ?_ trivial
      unfold process
      split <;> rfl
    · cases taken
  | resume thread =>
    unfold IocpBackend.step at taken
    dsimp only at taken
    split at taken
    · cases taken
      exact same rfl trivial
    · cases taken
  | leave thread =>
    unfold IocpBackend.step at taken
    dsimp only at taken
    split at taken
    · cases taken
      exact same rfl trivial
    · cases taken

end Steps

/-- In every run of any number of threads in which no operation is given the address of one that
the kernel still has for its descriptor, each packet completes the operation that it was issued
for, those that are completed are resumed once, and each operation is in one place. None is dropped
if and only if no descriptor is deregistered that has operations. -/
theorem matched_throughout {actions : List IocpAction} {final : IocpBackend}
    (run : after step {} actions = some final) (fresh : Heeds step Fresh {} actions) :
    final.Accounted ∧ (final.dropped = [] ↔ Heeds step Spares {} actions) := by
  have sound : final.Sound :=
    after_heeding Sound (fun _ _ _ sound fresh taken => sound.step fresh taken) sound_new fresh run
  exact ⟨sound.accounted,
    (after_iff_heeds (fun _ _ _ taken => dropped_step taken) run).trans (and_iff_right rfl)⟩

/-- Two reads of one descriptor, whose packets two threads take in the other order. -/
theorem matched_throughout_two :
    let actions : List IocpAction :=
      [.submit .read 5 0 100 none, .submit .read 5 1 200 none, .take 0 ⟨5, 200, 1⟩ (.ok 8),
        .take 1 ⟨5, 100, 0⟩ (.error 64), .process 1, .process 0, .resume 0]
    ∃ final, after step {} actions = some final ∧
      final.completions = [⟨0, -1, 64⟩, ⟨1, 8, 0⟩] ∧ final.Accounted ∧
      (final.dropped = [] ↔ Heeds step Spares {} actions) := by
  refine ⟨_, rfl, rfl, matched_throughout rfl ?_⟩
  refine ⟨nofun, fun _ first => ?_⟩
  cases first
  refine ⟨fun _ packet member => ?_, fun _ second => ?_⟩
  · rw [List.mem_singleton.mp member]
    decide
  · cases second
    exact ⟨trivial, fun _ _ => ⟨trivial, fun _ _ => ⟨trivial, fun _ _ => ⟨trivial, fun _ _ =>
      ⟨trivial, fun _ _ => trivial⟩⟩⟩⟩⟩

/-- A descriptor is deregistered with a read, and registered again. The next read has the address of
the first one, and is completed by its packet. -/
theorem not_own_reused :
    ∃ final, after step {} [.submit .read 5 0 100 none, .deregister 5,
        .submit .read 5 1 100 none, .take 0 ⟨5, 100, 0⟩ (.error 995), .process 0] = some final ∧
      final.completions = [⟨1, -1, 995⟩] ∧ (0, 1) ∈ final.matched :=
  ⟨_, rfl, rfl, List.mem_singleton.mpr rfl⟩

end IocpBackend

end AsyncNet.Io
