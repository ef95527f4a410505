/-
This file models `http2_session::flush`, the coroutine that hands the output of a session
to a send function, and the coroutines of a session that run interleaved: at every point
where a flush waits for the send function, bytes can be enqueued, other flushes can be
started, and any flush that waits can go on. One flush is in progress at a time, and it
goes on until it finds the output buffer empty, so a flush that is started while another
is in progress has nothing to do.

What a flush waits with is the data it has taken out of the buffer and how much of it has
been sent. The bytes that the send function has accepted are recorded, and so is what the
flushes return.
-/

import AsyncNet.Http.Http2State
import AsyncNet.Library.Runs

namespace AsyncNet.Http

open Library H2

/-! ### Flushing -/

/-- The locals of a flush that waits for the send function. -/
structure PendingSend where
  data : Bytes
  sent : Nat := 0

/-- A session with the flushes that wait, the bytes that the send function has accepted, and what
the flushes have returned. -/
structure Flusher where
  connection : Connection
  flushing : Bool := false
  waiting : Nat → Option PendingSend := fun _ => none
  accepted : Bytes := []
  returned : List (Nat × Bool) := []

namespace Flusher

def setWaiting (flusher : Flusher) (id : Nat) (pending : Option PendingSend) : Flusher :=
  { flusher with
    waiting := fun other => if other = id then pending else flusher.waiting other }

/-- The end of `flush`. -/
def finish (flusher : Flusher) (id : Nat) (allOk : Bool) : Flusher :=
  { flusher.setWaiting id none with
    flushing := false
    returned := flusher.returned ++ [(id, allOk)] }

/-- The outer loop of `flush` up to the next call of the send function: the output that has come in
meanwhile is taken, and the flush returns when there is none. -/
def takeOutput (flusher : Flusher) (id : Nat) : Flusher :=
  let data := flusher.connection.outputBuf
  let flusher := { flusher with connection := flusher.connection.command .getPendingOutput }
  if data = [] then flusher.finish id true else flusher.setWaiting id (some { data })

/-- `flush` up to the first call of the send function. -/
def startFlush (flusher : Flusher) (id : Nat) : Flusher :=
  if flusher.flushing then { flusher with returned := flusher.returned ++ [(id, true)] }
  else { flusher with flushing := true }.takeOutput id

/-- `flush` from the send function, which has returned a number, to the next call of it. -/
def resumeFlush (flusher : Flusher) (id : Nat) (n : Int) : Flusher :=
  match flusher.waiting id with
  | none => flusher
  | some ⟨data, sent⟩ =>
      if n ≤ 0 then flusher.finish id false
      else
        let flusher := { flusher with
          accepted := flusher.accepted ++ (data.drop sent).take n.toNat }
        let sent := sent + n.toNat
        if sent < data.length then flusher.setWaiting id (some { data, sent })
        else flusher.takeOutput id

/-- What can happen at a point where the coroutines of a session wait. -/
inductive Action where
  | enqueue (data : Bytes)
  | start (id : Nat)
  | resume (id : Nat) (n : Int)
  deriving DecidableEq

def step (flusher : Flusher) : Action → Flusher
  | .enqueue data => { flusher with connection := flusher.connection.enqueue data }
  | .start id => flusher.startFlush id
  | .resume id n => flusher.resumeFlush id n

/-- A flush that goes on is one that waits, and the send function has accepted some of the bytes
that it was offered. -/
def Accepts (flusher : Flusher) : Action → Prop
  | .resume id n =>
      ∃ pending, flusher.waiting id = some pending ∧ 0 < n ∧
        n ≤ pending.data.length - pending.sent
  | _ => True

/-- A new session. -/
def create (mode : Mode) : Flusher := { connection := Connection.create mode }

/-- The bytes that an action enqueues. -/
def Action.data : Action → Bytes
  | .enqueue data => data
  | .start _ => []
  | .resume _ _ => []

/-- The bytes that have been enqueued: the settings, and those of the actions. -/
def enqueued (mode : Mode) (actions : List Action) : Bytes :=
  (Connection.create mode).outputBuf ++ actions.flatMap Action.data

/-! ### One flush at a time -/

/-- What is under way of the output: nothing, or the rest of the data of the one flush that is in
progress. -/
inductive UnderWay (flusher : Flusher) : Bytes → Prop
  | idle (free : flusher.flushing = false) (none : ∀ id, flusher.waiting id = none) :
      UnderWay flusher []
  | sending (id : Nat) (data : Bytes) (sent : Nat) (busy : flusher.flushing = true)
      (this : flusher.waiting id = some ⟨data, sent⟩)
      (others : ∀ other ≠ id, flusher.waiting other = none) (more : sent < data.length) :
      UnderWay flusher (data.drop sent)

/-- The bytes that have been accepted, those under way and those in the output buffer are the bytes
that have been enqueued. -/
def Delivers (enqueued : Bytes) (flusher : Flusher) : Prop :=
  ∃ rest, flusher.UnderWay rest ∧
    flusher.accepted ++ rest ++ flusher.connection.outputBuf = enqueued

section Steps

variable (flusher : Flusher) (bytes : Bytes)

/-- A flush that has sent all of its data takes what has come in. -/
theorem delivers_takeOutput (id : Nat) (busy : flusher.flushing = true)
    (others : ∀ other ≠ id, flusher.waiting other = none)
    (all : flusher.accepted ++ flusher.connection.outputBuf = bytes) :
    (flusher.takeOutput id).Delivers bytes := by
  unfold takeOutput
  dsimp only
  split
  · rename_i empty
    refine ⟨[], .idle rfl fun other => ?_, ?_⟩
    · by_cases same : other = id
      · exact if_pos same
      · exact (if_neg same).trans (others other same)
    · show flusher.accepted ++ [] ++ [] = bytes
      rw [List.append_nil, List.append_nil, ← all, empty, List.append_nil]
  · rename_i some
    refine ⟨flusher.connection.outputBuf, ?_, ?_⟩
    · have sending : UnderWay ({ flusher with
          connection := flusher.connection.command .getPendingOutput }.setWaiting id
            (Option.some { data := flusher.connection.outputBuf })) _ :=
        .sending id flusher.connection.outputBuf 0 busy (if_pos rfl)
          (fun other different => (if_neg different).trans (others other different))
          (List.length_pos_iff.mpr some)
      exact sending
    · show flusher.accepted ++ flusher.connection.outputBuf ++ [] = bytes
      rw [List.append_nil, all]

theorem delivers_enqueue (data : Bytes) (delivers : flusher.Delivers bytes) :
    (flusher.step (.enqueue data)).Delivers (bytes ++ data) := by
  obtain ⟨rest, underWay, all⟩ := delivers
  refine ⟨rest, ?_, ?_⟩
  · cases underWay with
    | idle free none => exact .idle free none
    | sending id data sent busy this others more =>
      exact .sending id data sent busy this others more
  · show flusher.accepted ++ rest ++ (flusher.connection.outputBuf ++ data) = bytes ++ data
    rw [← all, List.append_assoc (_ ++ _)]

theorem delivers_start (id : Nat) (delivers : flusher.Delivers bytes) :
    (flusher.step (.start id)).Delivers bytes := by
  show (flusher.startFlush id).Delivers bytes
  obtain ⟨rest, underWay, all⟩ := delivers
  unfold startFlush
  split
  · refine ⟨rest, ?_, all⟩
    cases underWay with
    | idle free none => exact .idle free none
    | sending id data sent busy this others more =>
      exact .sending id data sent busy this others more
  · rename_i free
    cases underWay with
    | idle _ none =>
      rw [List.append_nil] at all
      exact delivers_takeOutput { flusher with flushing := true } bytes id rfl
        (fun other _ => none other) all
    | sending _ _ _ busy _ _ _ => exact absurd busy free

theorem delivers_resume (id : Nat) (n : Int) (accepts : flusher.Accepts (.resume id n))
    (delivers : flusher.Delivers bytes) : (flusher.step (.resume id n)).Delivers bytes := by
  obtain ⟨⟨data, sent⟩, found, positive, offered⟩ := accepts
  obtain ⟨rest, underWay, all⟩ := delivers
  cases underWay with
  | idle _ none =>
    rw [none id] at found
    cases found
  | sending current data' sent' busy this others more =>
    have here : id = current := by
      by_contra elsewhere
      rw [others id elsewhere] at found
      cases found
    subst here
    rw [found] at this
    cases this
    have taken : flusher.accepted ++ (data.drop sent).take n.toNat ++ data.drop (sent + n.toNat) ++
        flusher.connection.outputBuf = bytes := by
      rw [← List.drop_drop, List.append_assoc flusher.accepted, List.take_append_drop]
      exact all
    show (flusher.resumeFlush id n).Delivers bytes
    unfold resumeFlush
    rw [found]
    dsimp only
    rw [if_neg (not_le.mpr positive)]
    split
    · rename_i less
      refine ⟨data.drop (sent + n.toNat), ?_, taken⟩
      have sending : UnderWay ({ flusher with
          accepted := flusher.accepted ++ (data.drop sent).take n.toNat }.setWaiting id
            (some ⟨data, sent + n.toNat⟩)) _ :=
        .sending id data (sent + n.toNat) busy (if_pos rfl)
          (fun other different => (if_neg different).trans (others other different)) less
      exact sending
    · rename_i done
      refine delivers_takeOutput { flusher with
        accepted := flusher.accepted ++ (data.drop sent).take n.toNat } bytes id busy others ?_
      rw [List.drop_eq_nil_of_le (not_lt.mp done), List.append_nil] at taken
      exact taken

theorem delivers_step (action : Action) (accepts : flusher.Accepts action)
    (delivers : flusher.Delivers bytes) :
    (flusher.step action).Delivers (bytes ++ action.data) := by
  cases action with
  | enqueue data => exact delivers_enqueue flusher bytes data delivers
  | start id =>
    rw [Action.data, List.append_nil]
    exact delivers_start flusher bytes id delivers
  | resume id n =>
    rw [Action.data, List.append_nil]
    exact delivers_resume flusher bytes id n accepts delivers

/-! ### Nothing is left in the buffer -/

/-- A flush is in progress or the output buffer is empty. -/
def Attended (flusher : Flusher) : Prop :=
  flusher.flushing = true ∨ flusher.connection.outputBuf = []

theorem attended_takeOutput (id : Nat) (busy : flusher.flushing = true) :
    (flusher.takeOutput id).Attended := by
  unfold takeOutput
  dsimp only
  split
  · exact Or.inr rfl
  · exact Or.inl busy

theorem attended_start (id : Nat) : (flusher.step (.start id)).Attended := by
  show (flusher.startFlush id).Attended
  unfold startFlush
  split
  · rename_i busy
    exact Or.inl busy
  · exact attended_takeOutput { flusher with flushing := true } id rfl

/-- A flush that goes on leaves the output attended, unless the send function fails. -/
theorem attended_resume (id : Nat) (n : Int) (accepts : flusher.Accepts (.resume id n))
    (delivers : flusher.Delivers bytes) : (flusher.step (.resume id n)).Attended := by
  obtain ⟨⟨data, sent⟩, found, positive, offered⟩ := accepts
  have busy : flusher.flushing = true := by
    obtain ⟨rest, underWay, _⟩ := delivers
    cases underWay with
    | idle _ none =>
      rw [none id] at found
      cases found
    | sending _ _ _ busy _ _ _ => exact busy
  show (flusher.resumeFlush id n).Attended
  unfold resumeFlush
  rw [found]
  dsimp only
  rw [if_neg (not_le.mpr positive)]
  split
  · exact Or.inl busy
  · exact attended_takeOutput { flusher with accepted := _ } id busy

end Steps

/-! ### Runs -/

theorem delivers_create (mode : Mode) : (create mode).Delivers (Connection.create mode).outputBuf :=
  ⟨[], .idle rfl fun _ => rfl, rfl⟩

/-- Whatever the interleaving, the bytes of a run are delivered. -/
theorem delivers_run (actions : List Action) (flusher : Flusher) (bytes : Bytes)
    (delivers : flusher.Delivers bytes) (accepts : Throughout step Accepts flusher actions) :
    (actions.foldl step flusher).Delivers (bytes ++ actions.flatMap Action.data) := by
  induction actions generalizing flusher bytes with
  | nil =>
    rw [List.flatMap_nil, List.append_nil]
    exact delivers
  | cons action actions inductionHypothesis =>
    have first := delivers_step flusher bytes action accepts.1 delivers
    rw [List.flatMap_cons, ← List.append_assoc]
    exact inductionHypothesis _ _ first accepts.2

theorem waiting_of_free (flusher : Flusher) (bytes : Bytes) (delivers : flusher.Delivers bytes)
    (free : flusher.flushing = false) (id : Nat) : flusher.waiting id = none := by
  obtain ⟨rest, underWay, _⟩ := delivers
  cases underWay with
  | idle _ none => exact none id
  | sending _ _ _ busy _ _ _ => exact absurd (free.symm.trans busy) Bool.false_ne_true

/-- What a flush attends to stays attended until more is enqueued. -/
theorem attended_run (actions : List Action) (flusher : Flusher) (bytes : Bytes)
    (delivers : flusher.Delivers bytes) (accepts : Throughout step Accepts flusher actions)
    (quiet : ∀ data, .enqueue data ∉ actions) (attended : flusher.Attended) :
    (actions.foldl step flusher).Attended := by
  induction actions generalizing flusher bytes with
  | nil => exact attended
  | cons action actions inductionHypothesis =>
    have first := delivers_step flusher bytes action accepts.1 delivers
    refine inductionHypothesis _ _ first accepts.2
      (fun data member => quiet data (List.mem_cons_of_mem action member)) ?_
    cases action with
    | enqueue data => exact absurd List.mem_cons_self (quiet data)
    | start id => exact attended_start flusher id
    | resume id n => exact attended_resume flusher bytes id n accepts.1 delivers

/-- The bytes that the send function has accepted are the first of those that have been enqueued,
and all of them when no flush is in progress after one was started that followed the last of them.
-/
theorem accepted_eq_enqueued (mode : Mode) (actions : List Action)
    (accepts : Throughout step Accepts (create mode) actions) :
    (actions.foldl step (create mode)).accepted <+: enqueued mode actions ∧
      ∀ front id rest, actions = front ++ .start id :: rest → (∀ data, .enqueue data ∉ rest) →
        (∀ other, (actions.foldl step (create mode)).waiting other = none) →
          (actions.foldl step (create mode)).accepted = enqueued mode actions := by
  obtain ⟨rest, underWay, all⟩ :=
    delivers_run actions (create mode) _ (delivers_create mode) accepts
  refine ⟨⟨rest ++ (actions.foldl step (create mode)).connection.outputBuf, ?_⟩, ?_⟩
  · rw [← List.append_assoc]
    exact all
  · intro front id later split quiet free
    have attended : (actions.foldl step (create mode)).Attended := by
      subst split
      rw [throughout_append] at accepts
      rw [List.foldl_append]
      have before := delivers_run front (create mode) _ (delivers_create mode) accepts.1
      exact attended_run later _ _ (delivers_start _ _ id before) accepts.2.2 quiet
        (attended_start _ id)
    cases underWay with
    | idle free' _ =>
      have empty := attended.resolve_left (Bool.eq_false_iff.mp free')
      rw [List.append_nil, empty, List.append_nil] at all
      exact all
    | sending id data sent _ this _ _ =>
      rw [free id] at this
      cases this

/-- Two flushes, one of them started while the other is in progress, and bytes that are sent piece
by piece. -/
def twoFlushes : List Action :=
  [.start 0, .resume 0 10, .enqueue (ascii "abc"), .start 1, .resume 0 23, .resume 0 2, .resume 0 1]

theorem accepts_twoFlushes : Throughout step Accepts (create .server) twoFlushes :=
  ⟨trivial, ⟨_, rfl, by decide, by decide⟩, trivial, trivial, ⟨_, rfl, by decide, by decide⟩,
    ⟨_, rfl, by decide, by decide⟩, ⟨_, rfl, by decide, by decide⟩, trivial⟩

theorem accepted_eq_enqueued_twoFlushes :
    (twoFlushes.foldl step (create .server)).accepted = enqueued .server twoFlushes := by
  have free := waiting_of_free _ _
    (delivers_run twoFlushes (create .server) _ (delivers_create .server) accepts_twoFlushes) rfl
  refine (accepted_eq_enqueued .server twoFlushes accepts_twoFlushes).2
    [.start 0, .resume 0 10, .enqueue (ascii "abc")] 1 [.resume 0 23, .resume 0 2, .resume 0 1] rfl
    (fun data member => ?_) free
  simp at member

end Flusher

end AsyncNet.Http
