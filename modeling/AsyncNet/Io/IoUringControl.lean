/-
This file is about the two control entries of the ring: the wake-up entry on the eventfd, which
`process_cqes` queues again when it has completed, and the timeouts that bound the waits of
`poll_impl`. The wake-up entry is queued again only if there is room for it, and never later. A
timeout is queued by every wait, and one that has not expired when its wait ends stays in the ring.
So there is one wake-up entry and at most one timeout as long as these two cases are avoided.
-/

import AsyncNet.Io.IoUringOwnership

namespace AsyncNet.Io

open Library

namespace IoUringBackend

/-! ### The property -/

/-- The number of outstanding entries of a kind. -/
def count (ring : IoUringBackend) (data : UserData) : Nat :=
  ring.outstanding.countP (·.data = data)

/-- One wake-up entry is queued, in flight or completed, and at most one timeout. -/
structure Controlled (ring : IoUringBackend) : Prop where
  wakeup : ring.count .wakeup = 1
  timeout : ring.count .timeout ≤ 1

/-- A request for an entry is met: there is room in the ring, or the kernel makes some. -/
def Meets (ring : IoUringBackend) (accepted : Nat) : Prop := ring.hasRoom = true ∨ 0 < accepted

/-- The next completion to be processed is that of a wake-up entry. -/
def isWoken (ring : IoUringBackend) : Bool :=
  match ring.place, ring.completed with
  | .processing (_ + 1) _, (entry, _) :: _ => entry.data = .wakeup
  | _, _ => false

/-- The step does not go wrong: a wait queues its timeout only when no other is outstanding, and the
wake-up entry is queued again when its completion is processed. -/
def Provides (ring : IoUringBackend) : UringAction → Prop
  | .poll timeoutMs accepted =>
      ring.completed = [] → 0 < timeoutMs → ring.Meets accepted → ring.count .timeout = 0
  | .process accepted => ring.isWoken = true → ring.Meets accepted
  | _ => True

instance (ring : IoUringBackend) (accepted : Nat) : Decidable (ring.Meets accepted) :=
  inferInstanceAs (Decidable (_ ∨ _))

instance (ring : IoUringBackend) : ∀ action, Decidable (ring.Provides action)
  | .poll timeoutMs accepted =>
      inferInstanceAs (Decidable (ring.completed = [] → 0 < timeoutMs → ring.Meets accepted →
        ring.count .timeout = 0))
  | .process accepted =>
      inferInstanceAs (Decidable (ring.isWoken = true → ring.Meets accepted))
  | .submit _ _ _ _ | .deregister _ | .finish _ _ | .enter _ | .look | .resume | .leave =>
      isTrue trivial

/-! ### Counting -/

section Counting

variable {ring next : IoUringBackend}

theorem count_of_perm (perm : next.outstanding.Perm ring.outstanding) (data : UserData) :
    next.count data = ring.count data := perm.countP_eq _

theorem count_of_cons {entry : Entry} (perm : next.outstanding.Perm (entry :: ring.outstanding))
    (data : UserData) :
    next.count data = ring.count data + if entry.data = data then 1 else 0 := by
  refine (perm.countP_eq _).trans ?_
  rw [List.countP_cons]
  simp [count]

theorem Controlled.of_count (controlled : ring.Controlled)
    (same : ∀ data, (∀ ctx, data ≠ .op ctx) → next.count data = ring.count data) :
    next.Controlled := by
  have wakeup := same .wakeup fun _ wrong => by cases wrong
  have timeout := same .timeout fun _ wrong => by cases wrong
  exact ⟨wakeup.trans controlled.wakeup, timeout.symm ▸ controlled.timeout⟩

/-- The ring has room for an entry at all, and is not filled beyond it. -/
structure Fits (ring : IoUringBackend) : Prop where
  positive : 0 < ring.sqEntries
  most : ring.queued.length ≤ ring.sqEntries

/-- There is room after `get_sqe` has made some if and only if there was before or the kernel has
accepted an entry. -/
theorem hasRoom_makeRoom_iff (fits : ring.Fits) (accepted : Nat) :
    (ring.makeRoom accepted).hasRoom = true ↔ ring.Meets accepted := by
  unfold makeRoom Meets
  split
  · rename_i room
    exact iff_of_true room (Or.inl room)
  · rename_i full
    have most := fits.most
    have positive := fits.positive
    have last : ¬ ring.queued.length < ring.sqEntries := fun less => full (decide_eq_true less)
    refine Iff.trans decide_eq_true_iff ?_
    show (ring.queued.drop accepted).length < ring.sqEntries ↔ _
    rw [List.length_drop]
    constructor
    · intro less
      exact Or.inr (by omega)
    · rintro (room | some)
      · exact absurd room full
      · omega

theorem queueEntry_given_iff (fits : ring.Fits) (data : UserData) (accepted : Nat) :
    (ring.queueEntry data accepted).2 = true ↔ ring.Meets accepted := by
  rw [← hasRoom_makeRoom_iff fits accepted]
  unfold queueEntry
  dsimp only
  split
  · rename_i room
    exact iff_of_true rfl room
  · rename_i full
    exact iff_of_false Bool.false_ne_true full

theorem Fits.enter (fits : ring.Fits) (accepted : Nat) : (ring.enter accepted).Fits := by
  refine ⟨fits.positive, ?_⟩
  show (ring.queued.drop accepted).length ≤ ring.sqEntries
  rw [List.length_drop]
  exact Nat.le_trans (Nat.sub_le _ _) fits.most

theorem Fits.queueEntry (fits : ring.Fits) (data : UserData) (accepted : Nat) :
    (ring.queueEntry data accepted).1.Fits := by
  have made : (ring.makeRoom accepted).Fits := by
    unfold makeRoom
    split
    · exact fits
    · exact fits.enter accepted
  unfold IoUringBackend.queueEntry
  dsimp only
  split
  · rename_i room
    refine ⟨made.positive, ?_⟩
    show ((ring.makeRoom accepted).queued ++ [_]).length ≤ _
    rw [List.length_append]
    exact of_decide_eq_true room
  · exact ⟨made.positive, made.most⟩

/-- What a request for an entry adds to the count. -/
theorem count_queueEntry (ring : IoUringBackend) (data other : UserData) (accepted : Nat) :
    (ring.queueEntry data accepted).1.count other =
      ring.count other +
        if (ring.queueEntry data accepted).2 = true ∧ data = other then 1 else 0 := by
  have requests := (requests_queueEntry ring data accepted).outstanding
  cases given : (ring.queueEntry data accepted).2 with
  | true =>
    rw [given] at requests
    rw [count_of_cons requests other]
    simp
  | false =>
    rw [given] at requests
    rw [count_of_perm requests other]
    simp

end Counting

/-! ### Steps -/

section Steps

variable {ring next : IoUringBackend}

/-- A submission does not count. -/
theorem count_submit (ring : IoUringBackend) (type : OpType) (fd : Fd) (ctx : Ctx) (accepted : Nat)
    {data : UserData} (control : ∀ ctx, data ≠ .op ctx) :
    (ring.submit type fd ctx accepted).count data = ring.count data := by
  obtain ⟨submits, _⟩ := submits_submit ring type fd ctx accepted
  cases submits with
  | queued _ outstanding =>
    rw [count_of_cons outstanding data, if_neg fun same => control ctx same.symm]
    rfl
  | refused _ outstanding => exact count_of_perm outstanding data

theorem fits_submit (fits : ring.Fits) (type : OpType) (fd : Fd) (ctx : Ctx) (accepted : Nat) :
    (ring.submit type fd ctx accepted).Fits := by
  have recorded : (ring.record (type.direction, fd) ⟨type, ctx, ring.issued⟩).Fits :=
    ⟨fits.positive, fits.most⟩
  have after := recorded.queueEntry (.op ctx) accepted
  unfold submit
  dsimp only
  split
  · rename_i given
    rw [given] at after
    exact after
  · rename_i refused
    rw [refused] at after
    exact ⟨after.positive, after.most⟩

/-- What `poll_impl` does before it enters the kernel. -/
theorem fits_poll (fits : ring.Fits) (timeoutMs : Int) (accepted : Nat) :
    (ring.poll timeoutMs accepted).Fits := by
  have after := fits.queueEntry .timeout accepted
  unfold poll
  dsimp only
  split
  · split
    · rename_i given
      rw [given] at after
      exact ⟨after.positive, after.most⟩
    · rename_i refused
      rw [refused] at after
      exact ⟨after.positive, after.most⟩
  · exact ⟨fits.positive, fits.most⟩

/-- A wait that gets an entry adds a timeout. -/
theorem controlled_poll_iff (fits : ring.Fits) (controlled : ring.Controlled) (timeoutMs : Int)
    (accepted : Nat) :
    (ring.poll timeoutMs accepted).Controlled ↔ ring.Provides (.poll timeoutMs accepted) := by
  have given := queueEntry_given_iff fits .timeout accepted
  have counts := ring.count_queueEntry .timeout
  unfold poll Provides
  dsimp only
  split
  · rename_i waits
    split
    · rename_i queued met
      have added (data : UserData) :
          queued.count data = ring.count data + if .timeout = data then 1 else 0 := by
        have more := counts data accepted
        rw [met] at more
        simpa using more
      have meets := given.mp (by rw [met])
      refine Iff.trans (b := ring.count .timeout = 0) ?_ ?_
      · constructor
        · intro after
          have few : queued.count .timeout ≤ 1 := after.timeout
          rw [added, if_pos rfl] at few
          omega
        · intro none
          refine ⟨?_, ?_⟩
          · show queued.count .wakeup = 1
            rw [added, if_neg (fun wrong => by cases wrong), controlled.wakeup]
          · have more := added .timeout
            rw [if_pos rfl, none] at more
            exact Nat.le_of_eq more
      · exact ⟨fun none _ _ _ => none, fun all => all waits.1 waits.2 meets⟩
    · rename_i left refused
      have same (data : UserData) : left.count data = ring.count data := by
        have more := counts data accepted
        rw [refused] at more
        simpa using more
      refine iff_of_true (controlled.of_count fun data _ => same data) fun _ _ meets => ?_
      have wrong := given.mpr meets
      rw [refused] at wrong
      cases wrong
  · rename_i stays
    exact iff_of_true (controlled.of_count fun _ _ => rfl) fun empty waits _ =>
      absurd ⟨empty, waits⟩ stays

/-- A completion is taken out of the ring. -/
theorem count_taken {entry : Entry} {res : Int} {completed : List (Entry × Int)}
    (first : ring.completed = (entry, res) :: completed) (data : UserData) :
    ring.count data =
      count { ring with completed } data + if entry.data = data then 1 else 0 :=
  count_of_cons (ring.outstanding_cons first) data

theorem fits_process (fits : ring.Fits) (entry : Entry) (res : Int) (left : Nat)
    (toResume : List Ctx) (accepted : Nat) :
    (ring.process entry res left toResume accepted).Fits := by
  have after := fits.queueEntry .wakeup accepted
  unfold process
  split
  · exact ⟨fits.positive, fits.most⟩
  · exact ⟨after.positive, after.most⟩
  · rename_i ctx _
    have kept : (ring.finishOp entry.serial ctx res).sqEntries = ring.sqEntries ∧
        (ring.finishOp entry.serial ctx res).queued = ring.queued := by
      unfold finishOp
      split <;> exact ⟨rfl, rfl⟩
    refine ⟨?_, ?_⟩
    · show 0 < (ring.finishOp entry.serial ctx res).sqEntries
      rw [kept.1]
      exact fits.positive
    · show (ring.finishOp entry.serial ctx res).queued.length ≤
        (ring.finishOp entry.serial ctx res).sqEntries
      rw [kept.1, kept.2]
      exact fits.most

/-- The wake-up entry is queued again if there is room for it. -/
theorem controlled_process_iff (fits : ring.Fits) (controlled : ring.Controlled) {entry : Entry}
    {res : Int} {completed : List (Entry × Int)}
    (first : ring.completed = (entry, res) :: completed) (left : Nat) (toResume : List Ctx)
    (accepted : Nat) :
    ({ ring with completed }.process entry res left toResume accepted).Controlled ↔
      (entry.data = .wakeup → ring.Meets accepted) := by
  have taken := count_taken first
  have wakeups := controlled.wakeup
  have timeouts := controlled.timeout
  unfold process
  cases kind : entry.data with
  | timeout =>
    have wakeup := taken .wakeup
    have timeout := taken .timeout
    rw [kind, if_neg (fun wrong => by cases wrong)] at wakeup
    rw [kind, if_pos rfl] at timeout
    refine iff_of_true ⟨?_, ?_⟩ fun wrong => by cases wrong
    · show count { ring with completed } .wakeup = 1
      omega
    · show count { ring with completed } .timeout ≤ 1
      omega
  | wakeup =>
    have wakeup := taken .wakeup
    have timeout := taken .timeout
    rw [kind, if_pos rfl] at wakeup
    rw [kind, if_neg (fun wrong => by cases wrong)] at timeout
    have room : ({ ring with completed } : IoUringBackend).Fits := ⟨fits.positive, fits.most⟩
    have given := queueEntry_given_iff room .wakeup accepted
    have queued := count_queueEntry { ring with completed } .wakeup
    have wake := queued .wakeup accepted
    have time := queued .timeout accepted
    rw [if_neg (fun wrong => by cases wrong.2)] at time
    constructor
    · intro after _
      refine given.mp ?_
      by_contra refused
      rw [if_neg (fun both => refused both.1)] at wake
      have one : (queueEntry { ring with completed } .wakeup accepted).1.count .wakeup = 1 :=
        after.wakeup
      omega
    · intro meets
      rw [if_pos ⟨given.mpr (meets rfl), rfl⟩] at wake
      refine ⟨?_, ?_⟩
      · show (queueEntry { ring with completed } .wakeup accepted).1.count .wakeup = 1
        omega
      · show (queueEntry { ring with completed } .wakeup accepted).1.count .timeout ≤ 1
        omega
  | op ctx =>
    obtain ⟨rings, _⟩ := finishOp_rings { ring with completed } entry.serial ctx res
    refine iff_of_true (controlled.of_count fun data control => ?_) fun wrong => by cases wrong
    have same := taken data
    rw [kind, if_neg fun wrong => control ctx wrong.symm] at same
    refine Eq.trans ?_ same.symm
    exact congrArg (List.countP _) rings

/-- Every step keeps the ring within its bound, and the control entries are as they should be after
it if and only if it does not go wrong. -/
theorem Fits.moves (fits : ring.Fits) {action : UringAction} (moves : Moves ring action next) :
    next.Fits ∧ (ring.Controlled → (next.Controlled ↔ ring.Provides action)) := by
  have kept (same : ∀ data, (∀ ctx, data ≠ .op ctx) → next.count data = ring.count data)
      (provides : ring.Provides action) :
      ring.Controlled → (next.Controlled ↔ ring.Provides action) :=
    fun controlled => iff_of_true (controlled.of_count same) provides
  cases moves with
  | submit fresh =>
    exact ⟨fits_submit fits _ _ _ _, kept (fun _ => ring.count_submit _ _ _ _) trivial⟩
  | deregister => exact ⟨⟨fits.positive, fits.most⟩, kept (fun _ _ => rfl) trivial⟩
  | finish found =>
    exact ⟨⟨fits.positive, fits.most⟩,
      kept (fun data _ => count_of_perm (ring.outstanding_finish found _) data) trivial⟩
  | poll _ =>
    exact ⟨fits_poll fits _ _, fun controlled => controlled_poll_iff fits controlled _ _⟩
  | @enter accepted _ _ =>
    have after := fits.enter accepted
    exact ⟨⟨after.positive, after.most⟩,
      kept (fun data _ => count_of_perm (ring.outstanding_enter accepted) data) trivial⟩
  | @process accepted left toResume entry res completed here first =>
    have rest : ({ ring with completed } : IoUringBackend).Fits := ⟨fits.positive, fits.most⟩
    refine ⟨fits_process rest _ _ _ _ _, fun controlled => ?_⟩
    refine (controlled_process_iff fits controlled first _ _ _).trans ?_
    simp only [Provides, isWoken, here, first, decide_eq_true_iff]
  | processed here =>
    refine ⟨⟨fits.positive, fits.most⟩, kept (fun _ _ => rfl) ?_⟩
    have unwoken : ring.isWoken = false := by
      unfold isWoken
      rw [here]
    exact fun woken => absurd (unwoken.symm.trans woken) Bool.false_ne_true
  | look | resume | leave => exact ⟨⟨fits.positive, fits.most⟩, kept (fun _ _ => rfl) trivial⟩

end Steps

/-! ### Runs -/

/-- Where an entry has been given the ring has room for one at all. -/
theorem positive_of_given {ring : IoUringBackend} {data : UserData} {accepted : Nat}
    (given : (ring.queueEntry data accepted).2 = true) : 0 < ring.sqEntries := by
  have same : (ring.makeRoom accepted).sqEntries = ring.sqEntries := by
    unfold makeRoom
    split <;> rfl
  unfold queueEntry at given
  dsimp only at given
  split at given
  · rename_i room
    have less : (ring.makeRoom accepted).queued.length < (ring.makeRoom accepted).sqEntries :=
      of_decide_eq_true room
    rw [same] at less
    exact Nat.lt_of_le_of_lt (Nat.zero_le _) less
  · cases given

/-- The control entries after the ring has been set up. -/
theorem controlled_setupRing_iff (sqEntries : Nat) (wakeFd : Fd) (accepted : Nat) :
    ((setupRing sqEntries wakeFd accepted).Controlled ↔ 0 < sqEntries ∧ 0 ≤ wakeFd) ∧
      (0 < sqEntries → (setupRing sqEntries wakeFd accepted).Fits) := by
  have fits (positive : 0 < sqEntries) : ({ sqEntries, wakeFd } : IoUringBackend).Fits :=
    ⟨positive, Nat.zero_le _⟩
  have empty (data : UserData) : count { sqEntries, wakeFd } data = 0 := rfl
  have counts := count_queueEntry { sqEntries, wakeFd } .wakeup
  unfold setupRing
  dsimp only
  split
  · rename_i absent
    refine ⟨iff_of_false (fun controlled => ?_)
      fun both => absurd both.2 (Int.not_le.mpr absent), fits⟩
    have none := empty .wakeup
    rw [controlled.wakeup] at none
    cases none
  · rename_i present
    split
    · rename_i ring met
      have given : (queueEntry { sqEntries, wakeFd } .wakeup accepted).2 = true := by rw [met]
      have positive : 0 < sqEntries := positive_of_given given
      have after := (fits positive).queueEntry .wakeup accepted
      have wakeup := counts .wakeup accepted
      have timeout := counts .timeout accepted
      rw [if_pos ⟨given, rfl⟩, met] at wakeup
      rw [if_neg (fun both => by cases both.2), met] at timeout
      rw [met] at after
      have same := count_of_perm (ring.outstanding_enter accepted)
      refine ⟨iff_of_true ⟨?_, ?_⟩ ⟨positive, Int.not_lt.mp present⟩,
        fun _ => after.enter accepted⟩
      · exact (same .wakeup).trans wakeup
      · rw [same .timeout]
        exact Nat.le_trans (Nat.le_of_eq timeout) (Nat.zero_le 1)
    · rename_i ring refused
      have meets (positive : 0 < sqEntries) :
          (queueEntry { sqEntries, wakeFd } .wakeup accepted).2 = true :=
        (queueEntry_given_iff (fits positive) .wakeup accepted).mpr
          (Or.inl (decide_eq_true positive))
      have none : ¬ 0 < sqEntries := by
        intro positive
        have given := meets positive
        rw [refused] at given
        cases given
      refine ⟨iff_of_false (fun controlled => ?_) fun both => none both.1,
        fun positive => absurd positive none⟩
      have wakeup := counts .wakeup accepted
      rw [refused, if_neg (fun both => by cases both.1), empty] at wakeup
      rw [controlled.wakeup] at wakeup
      cases wakeup

/-- Throughout a run there is one wake-up entry and at most one timeout in the ring if and only if
it has been set up with an eventfd, no wait queues a timeout while another is outstanding, and
whenever the wake-up entry has to be queued again there is room for it. -/
theorem controlled_throughout_iff {sqEntries : Nat} {wakeFd : Fd} {accepted : Nat}
    {actions : List UringAction} {final : IoUringBackend}
    (run : after step (setupRing sqEntries wakeFd accepted) actions = some final) :
    (∀ front ring, front <+: actions →
        after step (setupRing sqEntries wakeFd accepted) front = some ring → ring.Controlled) ↔
      0 < sqEntries ∧ 0 ≤ wakeFd ∧
        Heeds step Provides (setupRing sqEntries wakeFd accepted) actions := by
  obtain ⟨start, fits⟩ := controlled_setupRing_iff sqEntries wakeFd accepted
  have fitsStep (ring : IoUringBackend) (action : UringAction) (next : IoUringBackend)
      (fits : ring.Fits) (taken : ring.step action = some next) : next.Fits :=
    (fits.moves (step_moves taken)).1
  have exactStep (ring : IoUringBackend) (action : UringAction) (next : IoUringBackend)
      (fits : ring.Fits) (controlled : ring.Controlled) (taken : ring.step action = some next) :
      next.Controlled ↔ ring.Provides action := (fits.moves (step_moves taken)).2 controlled
  constructor
  · intro always
    have first := always [] _ (List.nil_prefix) rfl
    obtain ⟨positive, present⟩ := start.mp first
    exact ⟨positive, present,
      (forall_front_iff_heeds fitsStep exactStep (fits positive) first run).mp always⟩
  · rintro ⟨positive, present, heeds⟩
    exact (forall_front_iff_heeds fitsStep exactStep (fits positive)
      (start.mpr ⟨positive, present⟩) run).mpr heeds

/-- A wait is ended by its timeout, and the next by the eventfd. -/
theorem controlled_throughout_woken :
    let actions : List UringAction :=
      [.poll 100 0, .enter 1, .finish 1 (-62), .look, .process 0, .process 0, .leave,
        .poll 100 0, .enter 1, .finish 0 1, .look, .process 0, .process 0, .leave]
    (after step (setupRing 2 3 1) actions).isSome ∧
      ∀ front ring, front <+: actions → after step (setupRing 2 3 1) front = some ring →
        ring.Controlled := by
  exact ⟨rfl, (controlled_throughout_iff rfl).mpr ⟨by decide, by decide, by decide⟩⟩

/-- After two waits, the first of which was ended by the completion of a read, two timeouts are
outstanding between the calls of `poll_impl`. And where the ring is full and the kernel accepts
nothing the wake-up entry is not queued again. -/
theorem not_controlled_waits :
    (∃ ring, after step (setupRing 256 3 1)
        [.submit .read 5 0 0, .poll 100 0, .enter 2, .finish 1 8, .look, .process 0, .process 0,
          .resume, .leave, .submit .read 5 1 0, .poll 100 0, .enter 2, .finish 2 8, .look,
          .process 0, .process 0, .resume, .leave] = some ring ∧
      ring.place = .outside ∧ ring.count .timeout = 2 ∧ ¬ ring.Controlled) ∧
    ∃ ring, after step (setupRing 1 3 1)
        [.submit .read 5 0 0, .finish 0 1, .poll 0 0, .enter 0, .look, .process 0, .process 0,
          .leave] = some ring ∧
      ring.place = .outside ∧ ring.count .wakeup = 0 ∧ ¬ ring.Controlled := by
  refine ⟨⟨_, rfl, rfl, rfl, fun controlled => ?_⟩, ⟨_, rfl, rfl, rfl, fun controlled => ?_⟩⟩
  · exact absurd controlled.timeout (by decide)
  · exact absurd controlled.wakeup (by decide)

end IoUringBackend

end AsyncNet.Io
