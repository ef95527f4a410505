/-
This file says which handlers of the application a server calls when the headers of a
request are complete. The request start handler is called first, if there is one. A
request that ends is then offered to the streaming request handler and to the request
handler, unless the start handler has taken it.
-/

import AsyncNet.Http.Http2Handlers

namespace AsyncNet.Http

open H2

/-- The calls of the handlers that requests are given to. -/
def Event.isHandlerCall : Event → Bool
  | .requestStartHandler .. => true
  | .streamingRequestHandler .. => true
  | .requestHandler _ => true
  | _ => false

def handlerCalls (events : List Event) : List Event := events.filter Event.isHandlerCall

namespace Connection

/-- From one to the other, the handler calls were made. -/
def Calls (calls : List Event) (before after : Connection) : Prop :=
  handlerCalls after.events = handlerCalls before.events ++ calls

theorem Calls.trans {calls laterCalls : List Event} {first second third : Connection}
    (left : Calls calls first second) (right : Calls laterCalls second third) :
    Calls (calls ++ laterCalls) first third := by
  unfold Calls at left right ⊢
  rw [right, left, List.append_assoc]

theorem Calls.andThen {calls : List Event} {first second third : Connection}
    (left : Calls calls first second) (right : Calls [] second third) :
      Calls calls first third := by
  have both := left.trans right
  rw [List.append_nil] at both
  exact both

theorem calls_of_events {before after : Connection} (same : after.events = before.events) :
    Calls [] before after := by
  rw [Calls, same, List.append_nil]

theorem Quiet.calls {before after : Connection} (quiet : Quiet before after) :
    Calls [] before after := calls_of_events quiet.events

variable (config : Config) (connection : Connection)

theorem calls_record (event : Event) :
    Calls (if event.isHandlerCall then [event] else []) connection (connection.record event) := by
  show handlerCalls (connection.events ++ [event]) = _
  rw [handlerCalls, List.filter_append, List.filter_singleton]
  cases event.isHandlerCall <;> rfl

theorem calls_pushAssociated (sid : Nat) :
    Calls [] connection (connection.pushAssociated config sid) := by
  unfold pushAssociated
  split
  · exact (Quiet.refl connection).calls
  · split
    · exact (calls_record connection (.pushProvider _)).trans
        (quiet_foldl_doSubmitPush _ sid _).calls
    · exact (Quiet.refl connection).calls

theorem calls_answerRequest (sid : Nat) :
    ∃ calls, Calls calls connection (connection.answerRequest config sid) ∧
      (calls = [] ↔ config.requestHandler = none) := by
  unfold answerRequest
  split
  · rename_i unset
    exact ⟨[], (quiet_doSubmitResponse connection sid _).calls, iff_of_true rfl unset⟩
  · rename_i handler set
    refine ⟨[.requestHandler (connection.stream sid).req], ?_, by simp [set]⟩
    refine Calls.andThen ?_ (calls_pushAssociated config _ sid)
    refine Calls.andThen ?_ (quiet_doSubmitResponse _ sid _).calls
    exact calls_record connection (.requestHandler (connection.stream sid).req)

/-- A request that is dispatched goes to a handler, unless there is none at all. -/
theorem calls_dispatchRequest (sid : Nat) :
    ∃ calls, Calls calls connection (connection.dispatchRequest config sid) ∧
      (calls = [] ↔ config.streamingRequestHandler = none ∧ config.requestHandler = none) := by
  set prepared := (connection.record (.dispatch sid)).modifyStream sid fun state =>
    { state with req := { state.req with bd := state.body }, body := [] }
  have start : Calls [] connection prepared := calls_record connection (.dispatch sid)
  unfold dispatchRequest
  dsimp only
  unfold callStreamingRequestHandler
  split
  · rename_i unset
    obtain ⟨calls, made, empty⟩ := calls_answerRequest config prepared sid
    exact ⟨calls, start.trans made, empty.trans (by simp [unset])⟩
  · rename_i handler set
    have offered : Calls [.streamingRequestHandler sid (prepared.stream sid).req] connection
        ((prepared.record (.streamingRequestHandler sid (prepared.stream sid).req)).commands
          (handler sid (prepared.stream sid).req).2) := by
      refine Calls.andThen ?_ (quiet_commands _ _).calls
      exact start.trans (calls_record prepared (.streamingRequestHandler sid _))
    split
    · exact ⟨_, offered, by simp [set]⟩
    · obtain ⟨calls, made, _⟩ := calls_answerRequest config _ sid
      exact ⟨_, offered.trans made, by simp [set]⟩

theorem calls_callRequestStartHandler (handler : Nat → Request → Bool → Bool × List Command)
    (sid : Nat) (endStream : Bool) :
    Calls [.requestStartHandler sid (connection.stream sid).req endStream] connection
      (connection.callRequestStartHandler handler sid endStream).2 := by
  have called := Calls.andThen
    (calls_record connection (.requestStartHandler sid (connection.stream sid).req endStream))
    (quiet_commands _ (handler sid (connection.stream sid).req endStream).2).calls
  unfold callRequestStartHandler
  dsimp only
  split
  · exact called
  · exact called

/-- The headers of a request call a handler, unless there is no start handler and the request does
not end or has no handler to go to. The start handler is told whether the request ends. -/
theorem calls_applyHeaders (sid : Nat) (headers : Headers) (endStream : Bool) :
    ∃ calls, Calls calls connection (connection.applyHeaders config sid headers endStream) ∧
      (calls = [] ↔ config.requestStartHandler = none ∧ (endStream = false ∨
        config.streamingRequestHandler = none ∧ config.requestHandler = none)) ∧
      ((config.requestStartHandler).isSome = true →
        ∃ req, calls.head? = some (.requestStartHandler sid req endStream)) := by
  unfold applyHeaders
  dsimp only
  split
  · rename_i isEnd
    rw [isEnd]
    split
    · rename_i unset
      obtain ⟨calls, made, empty⟩ := calls_dispatchRequest config _ sid
      exact ⟨calls, made, empty.trans (by simp [unset]), by simp [unset]⟩
    · rename_i handler set
      set marked := (connection.modifyStream sid _).modifyStream sid _
      have started : Calls _ connection _ := calls_callRequestStartHandler marked handler sid true
      split
      · exact ⟨_, started, by simp [set], fun _ => ⟨_, rfl⟩⟩
      · obtain ⟨calls, made, _⟩ := calls_dispatchRequest config _ sid
        exact ⟨_, started.trans made, by simp [set], fun _ => ⟨_, rfl⟩⟩
  · rename_i goesOn
    rw [Bool.eq_false_of_not_eq_true goesOn]
    split
    · rename_i unset
      exact ⟨[], calls_of_events rfl, by simp [unset], by simp [unset]⟩
    · rename_i handler set
      exact ⟨_, calls_callRequestStartHandler (connection.modifyStream sid _) handler sid false,
        by simp [set], fun _ => ⟨_, rfl⟩⟩

end Connection

end AsyncNet.Http
