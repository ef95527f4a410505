/-
This file models the reader of a gRPC stream, `reader` of `src/grpc/grpc_stream.cpp`, between the
session that pushes messages into it and the handler that awaits them. Both are on one thread: a
call of the session resumes the handler before it returns, and the handler can await the next
message, and be suspended again, inside of that call.

What makes this safe is that the handle of the waiter is taken out of the reader before it is
resumed, and that a message is in the queue before. So a handler that is suspended waits at an empty
queue, and the handle in the reader is the one of the call in which it is suspended.
-/

import AsyncNet.Http.Types
import AsyncNet.Library.Schedules

namespace AsyncNet.Grpc

open AsyncNet.Http Library

/-! ### The reader -/

/-- `reader`. A handle is the number of the call of `read` whose coroutine it resumes. -/
structure Reader where
  messages : List Bytes := []
  done : Bool := false
  waiter : Option Nat := none
  deriving DecidableEq

/-- How a call of `read` goes on until it returns or is suspended. -/
inductive Reading where
  | returned (message : Option Bytes)
  | suspended
  deriving DecidableEq

namespace Reader

/-- `ReadAwaiter::await_ready`. -/
def awaitReady (rdr : Reader) : Bool := !rdr.messages.isEmpty || rdr.done

/-- `ReadAwaiter::await_suspend`. -/
def awaitSuspend (rdr : Reader) (handle : Nat) : Reader := { rdr with waiter := some handle }

/-- `ReadAwaiter::await_resume`: `read` returns what it returns. -/
def awaitResume (rdr : Reader) : Option Bytes × Reader :=
  match rdr.messages with
  | msg :: messages => (some msg, { rdr with messages })
  | [] => (none, rdr)

/-- `read`. -/
def read (rdr : Reader) (handle : Nat) : Reading × Reader :=
  match rdr.messages with
  | msg :: messages => (.returned (some msg), { rdr with messages })
  | [] =>
      if rdr.done then (.returned none, rdr)
      else if rdr.awaitReady then
        let (message, rdr) := rdr.awaitResume
        (.returned message, rdr)
      else (.suspended, rdr.awaitSuspend handle)

end Reader

/-! ### The session and the handler -/

/-- A reader between its two sides. `reads` counts the calls of `read`, `suspended` is the one in
which the handler is suspended, and `inCall` says that the session is inside of `push_message` or
`finish`. The last two fields record what has been pushed and what `read` has returned. -/
structure Exchange where
  rdr : Reader := {}
  reads : Nat := 0
  suspended : Option Nat := none
  inCall : Bool := false
  pushed : List Bytes := []
  received : List (Option Bytes) := []
  deriving DecidableEq

inductive ExchangeAction where
  | pushMessage (data : Bytes)
  | finish
  /-- The call of the session returns. -/
  | returns
  /-- The handler awaits `read`, inside of a call of the session or elsewhere. -/
  | read
  deriving DecidableEq

namespace Exchange

/-- `resume` of a handle: the coroutine goes on in `await_resume`. Only the one that is suspended
can be resumed. -/
def resume (exchange : Exchange) (handle : Nat) : Option Exchange :=
  if exchange.suspended = some handle then
    let (message, rdr) := exchange.rdr.awaitResume
    some { exchange with rdr, suspended := none, received := exchange.received ++ [message] }
  else none

/-- The end of `push_message` and of `finish`. -/
def resumeWaiter (exchange : Exchange) : Option Exchange :=
  match exchange.rdr.waiter with
  | some handle =>
      { exchange with rdr := { exchange.rdr with waiter := none } }.resume handle
  | none => some exchange

/-- The handler awaits `read`. -/
def read (exchange : Exchange) : Exchange :=
  match exchange.rdr.read exchange.reads with
  | (.returned message, rdr) =>
      { exchange with
        rdr, reads := exchange.reads + 1, received := exchange.received ++ [message] }
  | (.suspended, rdr) =>
      { exchange with rdr, reads := exchange.reads + 1, suspended := some exchange.reads }

/-- A step of one of the two sides, if it is there. The session makes one call after the other, and
`finish` is its last. -/
def step (exchange : Exchange) : ExchangeAction → Option Exchange
  | .pushMessage data =>
      if exchange.inCall ∨ exchange.rdr.done then none
      else
        { exchange with
          rdr := { exchange.rdr with messages := exchange.rdr.messages ++ [data] }
          inCall := true
          pushed := exchange.pushed ++ [data] }.resumeWaiter
  | .finish =>
      if exchange.inCall ∨ exchange.rdr.done then none
      else
        { exchange with
          rdr := { exchange.rdr with done := true }, inCall := true }.resumeWaiter
  | .returns => if exchange.inCall then some { exchange with inCall := false } else none
  | .read => if exchange.suspended = none then some exchange.read else none

/-! ### What the reader guarantees -/

/-- The messages that the handler has received, without the ends of the stream. -/
def delivered (exchange : Exchange) : List Bytes := exchange.received.filterMap id

/-- The handler has received what has been pushed, in order and once, up to what is in the queue. It
has not received anything after an end of the stream, and received one only when `finish` had been
called and there was nothing left. It is not suspended when there is something to receive, and then
the next call of the session resumes it. -/
structure Delivers (exchange : Exchange) : Prop where
  inOrder : exchange.delivered ++ exchange.rdr.messages = exchange.pushed
  endedLast : ∃ ends, exchange.received =
    exchange.delivered.map some ++ List.replicate ends none
  endedLate : none ∈ exchange.received →
    exchange.rdr.done = true ∧ exchange.delivered = exchange.pushed
  awake : exchange.suspended.isSome →
    exchange.rdr.messages = [] ∧ exchange.rdr.done = false
  resumable : exchange.rdr.waiter = exchange.suspended

/-! ### What the handler has received -/

section Receiving

variable {exchange next : Exchange}

/-- Messages have been received, and then so many ends of the stream. -/
theorem delivers_of_received (messages : List Bytes) (ends : Nat)
    (received : exchange.received = messages.map some ++ List.replicate ends none)
    (inOrder : messages ++ exchange.rdr.messages = exchange.pushed)
    (late : ends ≠ 0 → exchange.rdr.done = true ∧ exchange.rdr.messages = [])
    (awake : exchange.suspended.isSome → exchange.rdr.messages = [] ∧ exchange.rdr.done = false)
    (resumable : exchange.rdr.waiter = exchange.suspended) : exchange.Delivers := by
  have delivered : exchange.delivered = messages := by
    rw [Exchange.delivered, received, List.filterMap_append, List.filterMap_replicate_of_none rfl,
      List.append_nil, List.filterMap_map]
    exact List.filterMap_some
  refine ⟨?_, ⟨ends, ?_⟩, fun ended => ?_, awake, resumable⟩
  · rw [delivered]
    exact inOrder
  · rw [delivered]
    exact received
  · have some_ends : ends ≠ 0 := by
      rintro rfl
      rw [received, List.replicate_zero, List.append_nil] at ended
      obtain ⟨msg, -, wrong⟩ := List.mem_map.mp ended
      cases wrong
    obtain ⟨done, empty⟩ := late some_ends
    rw [empty, List.append_nil] at inOrder
    exact ⟨done, delivered.trans inOrder⟩

theorem delivers_new : Delivers {} :=
  delivers_of_received [] 0 rfl rfl (fun wrong => absurd rfl wrong)
    (fun wrong => by cases wrong) rfl

/-- Before its end, what has been received of a stream is messages. -/
theorem Delivers.received_eq (delivers : exchange.Delivers) (unended : none ∉ exchange.received) :
    exchange.received = exchange.delivered.map some := by
  obtain ⟨ends, received⟩ := delivers.endedLast
  cases ends with
  | zero =>
    rw [List.replicate_zero, List.append_nil] at received
    exact received
  | succ ends =>
    refine absurd ?_ unended
    rw [received]
    exact List.mem_append_right _ (List.mem_replicate.mpr ⟨ends.succ_ne_zero, rfl⟩)

/-- An end of a stream that goes on, or of which something is left, has not been received. -/
theorem Delivers.unended (delivers : exchange.Delivers)
    (goesOn : exchange.rdr.done = false ∨ exchange.rdr.messages ≠ []) :
    none ∉ exchange.received := by
  intro ended
  obtain ⟨done, all⟩ := delivers.endedLate ended
  rcases goesOn with unfinished | left
  · rw [done] at unfinished
    cases unfinished
  · have inOrder := delivers.inOrder.trans all.symm
    exact left (List.append_right_eq_self.mp inOrder)

/-- A handler that waits is suspended at an empty queue. -/
theorem Delivers.waits (delivers : exchange.Delivers) {handle : Nat}
    (waits : exchange.rdr.waiter = some handle) :
    exchange.suspended = some handle ∧ exchange.rdr.messages = [] := by
  have suspended : exchange.suspended = some handle := delivers.resumable.symm.trans waits
  exact ⟨suspended, (delivers.awake (by rw [suspended]; rfl)).1⟩

/-! ### Steps -/

/-- A message is pushed. -/
theorem Delivers.pushMessage (delivers : exchange.Delivers) {data : Bytes}
    (taken : exchange.step (.pushMessage data) = some next) : next.Delivers := by
  rw [step] at taken
  split at taken
  · cases taken
  · rename_i enabled
    have unfinished : exchange.rdr.done = false :=
      Bool.eq_false_iff.mpr fun done => enabled (Or.inr done)
    have received := delivers.received_eq (delivers.unended (Or.inl unfinished))
    rw [resumeWaiter] at taken
    split at taken
    · -- The handler waits at an empty queue, and takes the message that has just come.
      rename_i handle waits
      obtain ⟨suspended, empty⟩ := delivers.waits waits
      rw [resume, if_pos suspended, empty] at taken
      cases taken
      have inOrder := delivers.inOrder
      rw [empty, List.append_nil] at inOrder
      refine delivers_of_received (exchange.delivered ++ [data]) 0 ?_ ?_
        (fun wrong => absurd rfl wrong) (fun wrong => by cases wrong) rfl
      · rw [List.map_append, List.replicate_zero, List.append_nil]
        exact congrArg (· ++ [some data]) received
      · show exchange.delivered ++ [data] ++ [] = exchange.pushed ++ [data]
        rw [inOrder, List.append_nil]
    · rename_i waits
      cases taken
      have suspended : exchange.suspended = none := delivers.resumable.symm.trans waits
      refine delivers_of_received exchange.delivered 0 ?_ ?_ (fun wrong => absurd rfl wrong)
        (fun wrong => ?_) delivers.resumable
      · rw [List.replicate_zero, List.append_nil]
        exact received
      · show exchange.delivered ++ (exchange.rdr.messages ++ [data]) = exchange.pushed ++ [data]
        rw [← List.append_assoc, delivers.inOrder]
      · rw [suspended] at wrong
        cases wrong

/-- The stream is finished. -/
theorem Delivers.finish (delivers : exchange.Delivers) (taken : exchange.step .finish = some next) :
    next.Delivers := by
  rw [step] at taken
  split at taken
  · cases taken
  · rename_i enabled
    have unfinished : exchange.rdr.done = false :=
      Bool.eq_false_iff.mpr fun done => enabled (Or.inr done)
    have received := delivers.received_eq (delivers.unended (Or.inl unfinished))
    rw [resumeWaiter] at taken
    split at taken
    · rename_i handle waits
      obtain ⟨suspended, empty⟩ := delivers.waits waits
      rw [resume, if_pos suspended, Reader.awaitResume, empty] at taken
      cases taken
      refine delivers_of_received exchange.delivered 1 ?_ delivers.inOrder
        (fun _ => ⟨rfl, empty⟩) (fun wrong => by cases wrong) rfl
      exact congrArg (· ++ [none]) received
    · rename_i waits
      cases taken
      have suspended : exchange.suspended = none := delivers.resumable.symm.trans waits
      refine delivers_of_received exchange.delivered 0 ?_ delivers.inOrder
        (fun wrong => absurd rfl wrong) (fun wrong => ?_) delivers.resumable
      · rw [List.replicate_zero, List.append_nil]
        exact received
      · rw [suspended] at wrong
        cases wrong

/-- The handler awaits `read`. It is suspended only at an empty queue. -/
theorem Delivers.read (delivers : exchange.Delivers) (taken : exchange.step .read = some next) :
    next.Delivers := by
  rw [step] at taken
  split at taken
  · rename_i suspended
    have waiter : exchange.rdr.waiter = none := delivers.resumable.trans suspended
    have inOrder := delivers.inOrder
    cases taken
    rw [Exchange.read, Reader.read]
    cases queued : exchange.rdr.messages with
    | cons msg messages =>
      have left : exchange.rdr.messages ≠ [] := by
        rw [queued]
        exact List.cons_ne_nil msg messages
      have received := delivers.received_eq (delivers.unended (Or.inr left))
      rw [queued] at inOrder
      refine delivers_of_received (exchange.delivered ++ [msg]) 0 ?_ ?_
        (fun wrong => absurd rfl wrong) (fun wrong => ?_) delivers.resumable
      · rw [List.map_append, List.replicate_zero, List.append_nil]
        exact congrArg (· ++ [some msg]) received
      · rw [List.append_assoc]
        exact inOrder
      · rw [suspended] at wrong
        cases wrong
    | nil =>
      cases done : exchange.rdr.done with
      | true =>
        obtain ⟨ends, received⟩ := delivers.endedLast
        refine delivers_of_received exchange.delivered (ends + 1) ?_ inOrder
          (fun _ => ⟨done, queued⟩) (fun wrong => ?_) delivers.resumable
        · rw [List.replicate_succ', ← List.append_assoc]
          exact congrArg (· ++ [none]) received
        · rw [suspended] at wrong
          cases wrong
      | false =>
        have received := delivers.received_eq (delivers.unended (Or.inl done))
        have unready : exchange.rdr.awaitReady = false := by
          rw [Reader.awaitReady, queued, done]
          rfl
        rw [unready]
        refine delivers_of_received exchange.delivered 0 ?_ inOrder
          (fun wrong => absurd rfl wrong) (fun _ => ⟨queued, done⟩) rfl
        rw [List.replicate_zero, List.append_nil]
        exact received
  · cases taken

theorem Delivers.step (delivers : exchange.Delivers) {action : ExchangeAction}
    (taken : exchange.step action = some next) : next.Delivers := by
  cases action with
  | pushMessage data => exact delivers.pushMessage taken
  | finish => exact delivers.finish taken
  | returns =>
    rw [Exchange.step] at taken
    split at taken
    · cases taken
      exact ⟨delivers.inOrder, delivers.endedLast, delivers.endedLate, delivers.awake,
        delivers.resumable⟩
    · cases taken
  | read => exact delivers.read taken

/-- The handle of the handler that is suspended can be resumed. -/
theorem isSome_resumeWaiter (resumable : exchange.rdr.waiter = exchange.suspended) :
    exchange.resumeWaiter.isSome := by
  rw [resumeWaiter]
  split
  · rename_i handle waits
    have suspended : exchange.suspended = some handle := resumable.symm.trans waits
    show (resume { exchange with rdr := { exchange.rdr with waiter := none } } handle).isSome
    rw [resume, if_pos suspended]
    rfl
  · rfl

/-- The session can make its next call until it has finished, and a handler that is not suspended
can read. -/
theorem Delivers.enabled (delivers : exchange.Delivers) :
    (exchange.inCall = false → exchange.rdr.done = false →
      (∀ data, (exchange.step (.pushMessage data)).isSome) ∧ (exchange.step .finish).isSome) ∧
    (exchange.suspended = none → (exchange.step .read).isSome) := by
  refine ⟨fun outside unfinished => ?_, fun awake => ?_⟩
  · have enabled : ¬ (exchange.inCall ∨ exchange.rdr.done) := by simp [outside, unfinished]
    refine ⟨fun data => ?_, ?_⟩
    · rw [Exchange.step, if_neg enabled]
      exact isSome_resumeWaiter delivers.resumable
    · rw [Exchange.step, if_neg enabled]
      exact isSome_resumeWaiter delivers.resumable
  · rw [Exchange.step, if_pos awake]
    rfl

end Receiving

/-! ### Runs -/

/-- However the calls of the session and those of the handler are interleaved and nested, the
handler receives what is pushed, and each of the two can go on. -/
theorem reader_delivers {actions : List ExchangeAction} {final : Exchange}
    (run : after step {} actions = some final) :
    final.Delivers ∧
    (final.inCall = false → final.rdr.done = false →
      (∀ data, (final.step (.pushMessage data)).isSome) ∧ (final.step .finish).isSome) ∧
    (final.suspended = none → (final.step .read).isSome) := by
  have delivers : final.Delivers :=
    after_invariant Delivers (fun _ _ _ holds taken => holds.step taken) delivers_new run
  exact ⟨delivers, delivers.enabled⟩

/-- A handler that reads again inside of the calls that resume it. -/
def nestedReads : List ExchangeAction :=
  [.read, .pushMessage [1], .read, .returns, .pushMessage [2], .read, .returns, .finish, .read]

theorem reader_delivers_nested :
    Delivers
      { rdr := { done := true }, reads := 4, inCall := true
        pushed := [[1], [2]], received := [some [1], some [2], none, none] } := by
  have run : after step {} nestedReads = some
      { rdr := { done := true }, reads := 4, inCall := true
        pushed := [[1], [2]], received := [some [1], some [2], none, none] } := rfl
  exact (reader_delivers run).1

/-- A stream that has ended is read to its end without being suspended: a handler that is launched
then is given what has been pushed. -/
theorem after_reads {exchange : Exchange} (done : exchange.rdr.done = true)
    (awake : exchange.suspended = none) :
    ∃ final, after step exchange (List.replicate (exchange.rdr.messages.length + 1) .read) =
        some final ∧
      final.received = exchange.received ++ exchange.rdr.messages.map some ++ [none] := by
  induction queued : exchange.rdr.messages generalizing exchange with
  | nil =>
    refine ⟨exchange.read, ?_, ?_⟩
    · show after step exchange [.read] = _
      rw [after_cons.mpr ⟨exchange.read, if_pos awake, rfl⟩]
    · rw [read, Reader.read, queued, done]
      exact congrArg (· ++ [none]) (List.append_nil exchange.received).symm
  | cons msg messages inductionHypothesis =>
    have first : exchange.read =
        { exchange with
          rdr := { exchange.rdr with messages }, reads := exchange.reads + 1
          received := exchange.received ++ [some msg] } := by
      rw [read, Reader.read, queued]
    obtain ⟨final, rest, received⟩ :=
      @inductionHypothesis exchange.read (by rw [first]; exact done)
        (by rw [first]; exact awake) (by rw [first])
    refine ⟨final, ?_, ?_⟩
    · exact after_cons.mpr ⟨exchange.read, if_pos awake, rest⟩
    · rw [received, first, List.map_cons, List.append_assoc, List.append_assoc,
        List.append_assoc]
      rfl

end Exchange

end AsyncNet.Grpc
