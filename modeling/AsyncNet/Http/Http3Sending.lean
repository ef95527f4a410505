/-
This file is about how `submit_response` of the HTTP/3 session sends a response: the loop that
gives the frames to `ngtcp2_conn_writev_stream`, which accepts a part of them or none. The loop
ends after one packet and never advances `send_offset`, whatever was accepted. So every byte is
offered once, and the sending goes on as long as it can, only where nothing is accepted at all.

The library is outside the model. Its answers to the calls of the loop are a list: the loop is
looked at when it has had all of them, and then it may be about to make another call.
-/

import AsyncNet.Http.Http3Session

namespace AsyncNet.Http.H3

open H2

/-! ### The loop -/

/-- What `ngtcp2_conn_writev_stream` returns: the length of a packet or an error. -/
inductive Returned where
  | packet (nwrite : Nat)
  | streamDataBlocked
  | streamShutWr
  | writeMore
  | otherError
  deriving DecidableEq, Repr

/-- What it returns, with the `pdatalen` that it sets. -/
structure WriteResult where
  returned : Returned
  pdatalen : Int
  deriving DecidableEq, Repr

/-- How many bytes of the offered data the library has accepted. -/
def WriteResult.accepted (result : WriteResult) : Nat :=
  match result.returned with
  | .packet _ | .writeMore => result.pdatalen.toNat
  | .streamDataBlocked | .streamShutWr | .otherError => 0

/-- The stream is blocked, or it fails. No packet can be written where the length is 0. -/
def WriteResult.Stops (result : WriteResult) : Prop :=
  result.returned ≠ .writeMore ∧ ∀ nwrite, result.returned = .packet nwrite → nwrite = 0

/-- A call: where the data that it offers begins, and its result. -/
structure Call where
  offset : Nat
  result : WriteResult
  deriving DecidableEq, Repr

/-- The state of the loop: the lengths of the packets it has put out, the calls it has made, and
whether it has ended. -/
structure Sending where
  sendBuf : Bytes
  sendOffset : Nat
  outputPkts : List Nat := []
  calls : List Call := []
  ended : Bool := false
  deriving DecidableEq, Repr

/-- The loop of `submit_response`, with the results of its calls. -/
def writeLoop : List WriteResult → Sending → Sending
  | [], sending => sending
  | result :: results, sending =>
      if sending.sendOffset < sending.sendBuf.length then
        let sending :=
          { sending with calls := sending.calls ++ [⟨sending.sendOffset, result⟩] }
        match result.returned with
        | .streamDataBlocked | .streamShutWr => { sending with ended := true }
        | .writeMore => writeLoop results sending
        | .otherError => { sending with ended := true }
        | .packet nwrite =>
            let sending :=
              if 0 < nwrite then { sending with outputPkts := sending.outputPkts ++ [nwrite] }
              else sending
            { sending with ended := true }
      else { sending with ended := true }

namespace Session

/-- The stream with the frames of a response behind what it had to send. -/
def queued (session : Session) (streamId : Nat) (resp : Response) : StreamState :=
  let ss := session.stream streamId
  { ss with sendBuf := ss.sendBuf ++ messageFrames (responseHeaders resp) resp.bd }

/-- The loop on the stream. -/
def sendResponse (session : Session) (streamId : Nat) (resp : Response)
    (results : List WriteResult) : Sending :=
  let ss := session.queued streamId resp
  writeLoop results { sendBuf := ss.sendBuf, sendOffset := ss.sendOffset }

/-- `submit_response`, with the results of the calls of its loop. -/
def submitResponseWith (session : Session) (streamId : Nat) (resp : Response)
    (results : List WriteResult) : Session :=
  let ss := session.queued streamId resp
  let sending := session.sendResponse streamId resp results
  (sending.calls.foldl
    (fun session call => session.record (.write streamId (ss.sendBuf.drop call.offset) true))
    (session.setStream streamId { ss with sendOffset := sending.sendOffset }))

end Session

/-! ### What is to hold -/

def totalAccepted (calls : List Call) : Nat := (calls.map fun call => call.result.accepted).sum

/-- The bytes that the library has accepted. -/
def Sending.acceptedBytes (sending : Sending) : Bytes :=
  sending.calls.flatMap fun call => (sending.sendBuf.drop call.offset).take call.result.accepted

/-- Every call offers what is behind the bytes that were accepted, the offset is advanced by these,
they are the first of what was to be sent, and the loop goes on until all is accepted or the stream
is blocked or fails. -/
structure OffersOnce (start : Nat) (sending : Sending) : Prop where
  offers : ∀ front call, front ++ [call] <+: sending.calls →
    call.offset = start + totalAccepted front
  advances : sending.sendOffset = start + totalAccepted sending.calls
  accepts : sending.acceptedBytes <+: sending.sendBuf.drop start
  continues : sending.ended → sending.sendOffset = sending.sendBuf.length ∨
    ∃ call ∈ sending.calls.getLast?, call.result.Stops

/-- The library accepts nothing, as long as the loop asks it. -/
def Refuses : List WriteResult → Prop
  | [] => True
  | result :: results =>
      result.accepted = 0 ∧ (result.Stops ∨ result.returned = .writeMore ∧ Refuses results)

/-! ### The calls -/

/-- The results that the loop takes: up to the first that does not ask for more. -/
def taken : List WriteResult → List WriteResult
  | [] => []
  | result :: results => result :: if result.returned = .writeMore then taken results else []

/-- The loop with something to send. It leaves the offset where it is. -/
theorem writeLoop_eq (results : List WriteResult) (sending : Sending)
    (more : sending.sendOffset < sending.sendBuf.length) :
    (writeLoop results sending).sendBuf = sending.sendBuf ∧
    (writeLoop results sending).sendOffset = sending.sendOffset ∧
    (writeLoop results sending).calls =
      sending.calls ++ (taken results).map (Call.mk sending.sendOffset) ∧
    ((writeLoop results sending).ended = true ↔ sending.ended = true ∨
      ∃ last ∈ (taken results).getLast?, last.returned ≠ .writeMore) := by
  induction results generalizing sending with
  | nil => simp [writeLoop, taken]
  | cons result results inductionHypothesis =>
    have again := inductionHypothesis
      { sending with calls := sending.calls ++ [⟨sending.sendOffset, result⟩] } more
    obtain ⟨returned, pdatalen⟩ := result
    unfold writeLoop
    rw [if_pos more]
    cases returned with
    | writeMore =>
      obtain ⟨buf, offset, calls, ended⟩ := again
      refine ⟨buf, offset, calls.trans ?_, ended.trans ?_⟩
      · rw [taken, if_pos rfl, List.map_cons, List.append_assoc]
        rfl
      · refine or_congr_right ?_
        rw [taken, if_pos rfl]
        cases taken results with
        | nil => simp
        | cons next rest => rw [List.getLast?_cons_cons]
    | packet nwrite =>
      simp only [taken]
      split <;> simp
    | streamDataBlocked => simp [taken]
    | streamShutWr => simp [taken]
    | otherError => simp [taken]

theorem totalAccepted_append (front more : List Call) :
    totalAccepted (front ++ more) = totalAccepted front + totalAccepted more := by
  unfold totalAccepted
  rw [List.map_append, List.sum_append]

theorem totalAccepted_taken (offset : Nat) (results : List WriteResult) :
    totalAccepted ((taken results).map (Call.mk offset)) = 0 ↔
      ∀ result ∈ taken results, result.accepted = 0 := by
  unfold totalAccepted
  rw [List.map_map, List.sum_eq_zero_iff_forall_eq_nat]
  exact List.forall_mem_map

/-- Of the results that the loop takes, none accepts anything, and the last stops the sending if it
does not ask for more. -/
theorem refuses_iff (results : List WriteResult) :
    Refuses results ↔ (∀ result ∈ taken results, result.accepted = 0) ∧
      ∀ last ∈ (taken results).getLast?, last.returned ≠ .writeMore → last.Stops := by
  induction results with
  | nil => simp [Refuses, taken]
  | cons result results inductionHypothesis =>
    rw [Refuses, taken]
    by_cases more : result.returned = .writeMore
    · have goesOn : ¬ result.Stops := fun stops => stops.1 more
      rw [if_pos more, inductionHypothesis, List.forall_mem_cons, and_assoc]
      refine and_congr_right fun _ => ?_
      rw [or_iff_right goesOn, and_iff_right more]
      refine and_congr_right fun _ => ?_
      cases taken results with
      | nil => simp [more]
      | cons next rest => rw [List.getLast?_cons_cons]
    · rw [if_neg more]
      simp [more]

/-- The loop on what has not been offered yet. -/
theorem offersOnce_writeLoop (buf : Bytes) (start : Nat) (more : start < buf.length)
    (results : List WriteResult) :
    OffersOnce start (writeLoop results { sendBuf := buf, sendOffset := start }) ↔
      Refuses results := by
  obtain ⟨kept, offset, calls, ended⟩ :=
    writeLoop_eq results { sendBuf := buf, sendOffset := start } more
  rw [List.nil_append] at calls
  generalize writeLoop results { sendBuf := buf, sendOffset := start } = sent at *
  rw [refuses_iff]
  constructor
  · intro once
    have none : ∀ result ∈ taken results, result.accepted = 0 := by
      have advances := once.advances
      rw [offset, calls] at advances
      exact (totalAccepted_taken start results).mp (Nat.left_eq_add.mp advances)
    refine ⟨none, fun last isLast asks => ?_⟩
    rcases once.continues (ended.mpr (Or.inr ⟨last, isLast, asks⟩)) with all | ⟨call, isCall, stops⟩
    · rw [offset, kept] at all
      exact absurd all (Nat.ne_of_lt more)
    · rw [calls, List.getLast?_map, isLast] at isCall
      cases isCall
      exact stops
  · rintro ⟨none, stops⟩
    have nothing := (totalAccepted_taken start results).mpr none
    refine ⟨?_, ?_, ?_, ?_⟩
    · intro front call isPrefix
      rw [calls] at isPrefix
      obtain ⟨result, -, rfl⟩ := List.mem_map.mp
        (isPrefix.subset (List.mem_append_right _ (List.mem_singleton_self call)))
      obtain ⟨later, whole⟩ := isPrefix
      rw [← whole, List.append_assoc, totalAccepted_append] at nothing
      rw [Nat.eq_zero_of_add_eq_zero_right nothing]
      rfl
    · rw [offset, calls, nothing]
      rfl
    · have empty : sent.acceptedBytes = [] := by
        rw [Sending.acceptedBytes, calls, List.flatMap_eq_nil_iff]
        intro call inside
        obtain ⟨result, member, rfl⟩ := List.mem_map.mp inside
        rw [none result member, List.take_zero]
      rw [empty]
      exact List.nil_prefix
    · intro finished
      obtain wrong | ⟨last, isLast, asks⟩ := ended.mp finished
      · cases wrong
      · rw [calls, List.getLast?_map, isLast]
        exact Or.inr ⟨_, rfl, stops last isLast asks⟩

namespace Session

theorem length_messageFrames_pos (headers : Headers) (bd : Bytes) :
    0 < (messageFrames headers bd).length := by
  unfold messageFrames buildHeadersFrame buildFrame encodeStatic
  simp only [List.length_append, List.length_cons]
  omega

/-- There is something to send. -/
theorem more_queued {session : Session} {streamId : Nat}
    (inside : (session.stream streamId).sendOffset ≤ (session.stream streamId).sendBuf.length)
    (resp : Response) : (session.queued streamId resp).sendOffset <
      (session.queued streamId resp).sendBuf.length := by
  have filled := length_messageFrames_pos (responseHeaders resp) resp.bd
  show _ < (_ ++ _ : Bytes).length
  rw [List.length_append]
  exact Nat.lt_of_le_of_lt inside (Nat.lt_add_of_pos_right filled)

/-- Where the first call ends the loop, the session is that of `submitResponse`. -/
theorem submitResponseWith_eq (session : Session) (streamId : Nat) (resp : Response)
    (inside : (session.stream streamId).sendOffset ≤ (session.stream streamId).sendBuf.length)
    (result : WriteResult) (results : List WriteResult) (ends : result.returned ≠ .writeMore) :
    session.submitResponseWith streamId resp (result :: results) =
      session.submitResponse streamId resp := by
  have more := more_queued inside resp
  obtain ⟨-, offset, calls, -⟩ := writeLoop_eq (result :: results)
    { sendBuf := (session.queued streamId resp).sendBuf
      sendOffset := (session.queued streamId resp).sendOffset } more
  rw [taken, if_neg ends] at calls
  unfold submitResponseWith sendResponse
  dsimp only
  rw [offset, calls]
  exact (if_pos more).symm

/-- Every byte of a response is offered once, for as long as the library takes any, if and only if
the library accepts nothing. -/
theorem offersOnce_iff (session : Session) (streamId : Nat) (resp : Response)
    (inside : (session.stream streamId).sendOffset ≤ (session.stream streamId).sendBuf.length)
    (results : List WriteResult) :
    OffersOnce (session.stream streamId).sendOffset
      (session.sendResponse streamId resp results) ↔ Refuses results :=
  offersOnce_writeLoop _ _ (more_queued inside resp) results

/-- A server with a request on stream 0. -/
def serving : Session := ({ mode := .server } : Session).setStream 0 { state := .opened }

/-- The stream is blocked when the library has taken nothing. -/
theorem offersOnce_blocked :
    OffersOnce (serving.stream 0).sendOffset (serving.sendResponse 0 {}
      [⟨.writeMore, 0⟩, ⟨.streamDataBlocked, -1⟩]) :=
  (offersOnce_iff serving 0 {} (by decide) _).mpr
    ⟨rfl, Or.inr ⟨rfl, rfl, Or.inl ⟨by decide, by intro nwrite wrong; cases wrong⟩⟩⟩

/-- A packet with the first two bytes of the response: the loop ends there. -/
theorem not_offersOnce_packet : ¬ ∀ (session : Session) (streamId : Nat) (resp : Response),
    (session.stream streamId).sendOffset ≤ (session.stream streamId).sendBuf.length →
    ∀ results : List WriteResult, OffersOnce (session.stream streamId).sendOffset
      (session.sendResponse streamId resp results) := by
  intro once
  have advances := (once serving 0 {} (by decide) [⟨.packet 40, 2⟩]).advances
  exact absurd advances (by decide +kernel)

end Session

end AsyncNet.Http.H3
