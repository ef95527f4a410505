/-
This file takes a request from the call that submits it to the handler of the server, whatever
the two sessions have done before. The frames that the client writes for it are those of one
message, and the server goes through them one after another, however large the body is and
whatever its handler answers. When the last of them has come in, the handler has been called once
more, with the request that the message makes.
-/

import AsyncNet.Http.Http2Reading

namespace AsyncNet.Http

open Library H2

/-! ### One message -/

/-- The frames take a message that has been read up to a point to its end, and no further. -/
inductive Ends (sid : Nat) (message : Message) : Progress → List Frame → Prop
  | done : Ends sid message .done []
  | advance {f : Frame} {frames : List Frame} {before after : Progress}
      (advance : Advance sid message before f after) (later : Ends sid message after frames) :
      Ends sid message before (f :: frames)

/-- What is still to be read when a message is the last one and has been read up to a point. -/
def outstanding (sid : Nat) (message : Message) : Progress → Reading × List (Nat × Message)
  | .start => (none, [(sid, message)])
  | progress => (current sid message progress, [])

theorem outstanding_of_ne_start (sid : Nat) (message : Message) {progress : Progress}
    (begun : progress ≠ .start) :
    outstanding sid message progress = (current sid message progress, []) := by
  cases progress with
  | start => exact absurd rfl begun
  | _ => rfl

/-- Frames that spell out one message and nothing about the connection end with it. -/
theorem ends_of_spells {sid : Nat} {message : Message} {progress : Progress} {reading : Reading}
    {frames : List Frame} {messages : List (Nat × Message)}
    (spells : Spells reading frames messages) (silent : ∀ f ∈ frames, ¬ IsControl f)
    (left : (reading, messages) = outstanding sid message progress) :
    Ends sid message progress frames := by
  induction spells generalizing progress with
  | nothing =>
    cases progress with
    | done => exact .done
    | _ => cases left
  | control control => exact absurd control (silent _ List.mem_cons_self)
  | start advance later inductionHypothesis =>
    cases progress with
    | start =>
      cases left
      exact .advance advance (inductionHypothesis
        (fun f member => silent f (List.mem_cons_of_mem _ member))
        (outstanding_of_ne_start _ _ (advance_ne_start advance)).symm)
    | _ => cases left
  | next advance later inductionHypothesis =>
    cases progress with
    | start => cases left
    | done => cases left
    | _ =>
      cases left
      exact .advance advance (inductionHypothesis
        (fun f member => silent f (List.mem_cons_of_mem _ member))
        (outstanding_of_ne_start _ _ (advance_ne_start advance)).symm)

/-- No frame of a message is about the connection. -/
theorem not_isControl_messageFrames (sid size : Nat) (message : Message)
    (block trailersBlock : Bytes) :
    ∀ f ∈ messageFrames sid size message block trailersBlock, ¬ IsControl f := by
  have other {type : FrameType} {flags : UInt8} {piece : Bytes}
      (kind : type = .headers ∨ type = .continuation ∨ type = .data)
      (control : IsControl (.ofPayload type flags sid piece)) : False := by
    generalize same : Frame.ofPayload type flags sid piece = f at control
    have hdr := congrArg (fun f : Frame => f.hdr.type) same
    have same : type = f.hdr.type := hdr
    cases control <;> subst same <;> rcases kind with wrong | wrong | wrong <;> cases wrong
  have block {flags : UInt8} {block : Bytes} {f : Frame}
      (member : f ∈ headerFrames sid flags size block) : ¬ IsControl f := by
    obtain ⟨type, flags, piece, kind, -, rfl⟩ := mem_headerFrames _ _ _ _ member
    exact other (kind.imp_right Or.inl)
  intro f member
  rcases List.mem_append.mp member with front | trailers
  · rcases List.mem_append.mp front with headers | body
    · exact block headers
    · obtain ⟨flags, piece, -, rfl⟩ := mem_splitInto _ _ _ _ _ _ body
      exact other (Or.inr (Or.inr rfl))
  · split at trailers
    · exact block trailers
    · exact absurd trailers List.not_mem_nil

/-! ### A server that hears it -/

/-- A server has read a message up to a point, and it gives the request to its handler at the end.
-/
structure Hearing (sid : Nat) (message : Message) (events : List Event) (progress : Progress)
    (server : Connection) : Prop where
  steady : server.Steady
  absent : progress = .start → server.view sid = none
  present : progress ≠ .start → progress ≠ .done →
    server.view sid = some (serverStream sid message progress)
  waiting : server.continuationStream = waits sid progress
  calls : handlerCalls server.events =
    handlerCalls events ++ atEnd (.requestHandler message.request) progress

section Hearing

variable {handler : Request → Response} {sid : Nat} {message : Message} {events : List Event}

/-- A frame of the message takes the server a step on. -/
theorem Hearing.receive {progress progress' : Progress} {f : Frame} {server : Connection}
    (hearing : Hearing sid message events progress server)
    (advance : Advance sid message progress f progress') (single : message.trailers = none)
    (nonzero : sid ≠ 0) (identifier : sid < 2 ^ 31) :
    ∃ after replies, server.processFrame (Connection.serverConfig handler none) f = .ok after ∧
      Connection.Receipt f replies server after ∧ Hearing sid message events progress' after := by
  have unfinished : progress ≠ .done := by
    rintro rfl
    cases advance
  obtain ⟨after, run, hears⟩ :
      ∃ after, server.processFrame (Connection.serverConfig handler none) f = .ok after ∧
        Connection.Hears handler none sid message f progress' server after :=
    Connection.hears_advance advance single hearing.steady nonzero identifier hearing.absent
      (fun begun => hearing.present begun unfinished) hearing.waiting
      fun _ given => absurd given (Option.some_ne_none _).symm
  obtain ⟨controls, response, receipt, -⟩ := hears.receipt
  have calls : handlerCalls after.events = handlerCalls server.events ++ _ := hears.calls
  rw [hearing.calls, Connection.atEnd_of_ne_done _ unfinished, List.append_nil] at calls
  exact ⟨after, controls ++ response, run, receipt, receipt.steady,
    fun start => absurd start (advance_ne_start advance), fun _ => hears.view,
    hears.continuationStream, calls⟩

/-- A server that is given the bytes of the message calls its handler once. -/
theorem feed_message {server : Session} {frames : List Frame}
    (config : server.config = Connection.serverConfig handler none)
    (hearing : Hearing sid message server.connection.events .start server.connection)
    (coherent : server.reader.Coherent) (empty : server.reader.held = [])
    (ends : Ends sid message .start frames) (proper : ∀ f ∈ frames, f.Proper)
    (single : message.trailers = none) (nonzero : sid ≠ 0) (identifier : sid < 2 ^ 31) :
    ∃ final, server.feed (frames.flatMap Frame.wire) = .ok final ∧
      handlerCalls final.connection.events =
        handlerCalls server.connection.events ++ [.requestHandler message.request] := by
  obtain ⟨final, frames', replies, run, -, -, -, ⟨progress, hearing', ends'⟩, unread⟩ :=
    @Session.feed_unread (Connection.serverConfig handler none)
      (fun connection frames _ => ∃ progress,
        Hearing sid message server.connection.events progress connection ∧
          Ends sid message progress frames)
      (fun connection frames sent invariant => invariant.choose_spec.1.steady.alive)
      (fun connection f frames sent invariant => by
        obtain ⟨progress, hearing, ends⟩ := invariant
        cases ends with
        | advance advance later =>
          obtain ⟨after, replies, run, receipt, heard⟩ :=
            hearing.receive advance single nonzero identifier
          exact ⟨after, replies, run, receipt.outputBuf, receipt.proper, _, heard, later⟩)
      (frames.flatMap Frame.wire) [] server frames config ⟨.start, hearing, ends⟩
      ⟨coherent, by rw [empty, List.append_nil, List.nil_append], proper⟩
  have none := unread.eq_nil
  subst none
  refine ⟨final, run, ?_⟩
  cases ends' with
  | done => exact hearing'.calls

end Hearing

end AsyncNet.Http
