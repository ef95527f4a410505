/-
This file models what a server does with a connection: the session's settings are flushed,
the connection preface is read and compared, and then the session is fed with what the
reads bring, its output being flushed after each of them. The HTTP/2 servers, the gRPC
server and its FRPC copy all serve a connection so.

The reads bring the bytes of the client in the segments in which they happen to arrive, the
preface and the first frames in one segment or in many, and a write accepts as much of what
it is offered as the socket has room for. None of this can be seen: with one socket as with
another, the session ends in the state it comes to when it is fed with all of the input
after the preface at once, and the bytes that have been written are the same.
-/

import AsyncNet.Http.Http2Output
import AsyncNet.Http.Http2Flush
import AsyncNet.Library.Arrivals

namespace AsyncNet.Http

open Library H2

/-- A session is fed with what has come, if anything has. -/
def Session.feedSome (session : Session) (data : Bytes) : Except Fault Session :=
  if data = [] then .ok session else session.feed data

/-- `PREFACE`. -/
def connectionPreface : Bytes := ascii "PRI * HTTP/2.0\r\n\r\nSM\r\n\r\n"

/-- A session of a connection, with what its socket will do: the segments that will come, and the
numbers that the writes will return. -/
structure ServedConnection where
  session : Session
  incoming : List Bytes
  answers : Nat → Int
  accepted : Bytes := []

/-- A flush is resumed with the number that the write has returned until it returns. -/
def awaitFlush : Nat → (Nat → Int) → Flusher → Flusher × (Nat → Int)
  | 0, answers, flusher => (flusher, answers)
  | steps + 1, answers, flusher =>
      match flusher.waiting 0 with
      | none => (flusher, answers)
      | some _ =>
          awaitFlush steps (fun index => answers (index + 1))
            (flusher.resumeFlush 0 (answers 0))

namespace ServedConnection

/-- `co_await session.flush(send_fn)`. Every write but a last that fails takes a byte, so the number
of bytes bounds the writes. -/
def flush (served : ServedConnection) : Bool × ServedConnection :=
  let start : Flusher :=
    { connection := served.session.connection, accepted := served.accepted }
  let (flusher, answers) := awaitFlush served.session.connection.outputBuf.length served.answers
    (start.startFlush 0)
  ((0, true) ∈ flusher.returned,
    { served with
      session := { served.session with connection := flusher.connection }
      answers
      accepted := flusher.accepted })

/-- The loop that fills `preface_buf`, which has 256 bytes, until 24 of them are there. -/
def readPreface : Nat → Bytes → List Bytes → Bytes × List Bytes
  | 0, read, incoming => (read, incoming)
  | passes + 1, read, incoming =>
      if connectionPreface.length ≤ read.length then (read, incoming)
      else
        let (data, rest) := readSome (256 - read.length) incoming
        if data = [] then (read, rest) else readPreface passes (read ++ data) rest

/-- The read loop. A pass that goes on has read a byte, so the bytes that come bound the passes. -/
def readLoop : Nat → ServedConnection → Except Fault ServedConnection
  | 0, served => .ok served
  | passes + 1, served =>
      if served.session.connection.alive = false then .ok served
      else
        let (data, incoming) := readSome 16384 served.incoming
        if data = [] then .ok { served with incoming }
        else do
          let session ← served.session.feed data
          match flush { served with session, incoming } with
          | (false, served) => return served
          | (true, served) => readLoop passes served

/-- `handle_connection` after the preface, with what has been read beyond it. -/
def serve (served : ServedConnection) (rest : Bytes) : Except Fault ServedConnection := do
  let session ← served.session.feedSome rest
  let served := (flush { served with session }).2
  served.readLoop (served.incoming.flatten.length + 1)

/-- `handle_connection` once the session has its handlers, up to the closing of the socket. It tells
whether the preface was the right one. -/
def handleConnection (served : ServedConnection) : Except Fault (Bool × ServedConnection) :=
  let served := served.flush.2
  let (read, incoming) := readPreface connectionPreface.length [] served.incoming
  let served := { served with incoming }
  if read.length < connectionPreface.length ∨
      read.take connectionPreface.length ≠ connectionPreface then .ok (false, served)
  else (served.serve (read.drop connectionPreface.length)).map fun served => (true, served)

/-! ### Flushing -/

/-- All writes accept something. -/
def Writable (answers : Nat → Int) : Prop := ∀ index, 0 < answers index

theorem Writable.tail {answers : Nat → Int} (writable : Writable answers) :
    Writable fun index => answers (index + 1) := fun index => writable (index + 1)

theorem awaitFlush_idle (steps : Nat) (answers : Nat → Int) (flusher : Flusher)
    (idle : flusher.waiting 0 = none) : awaitFlush steps answers flusher = (flusher, answers) := by
  cases steps with
  | zero => rfl
  | succ steps => rw [awaitFlush, idle]

theorem waiting_finish (flusher : Flusher) (id : Nat) (allOk : Bool) :
    (flusher.finish id allOk).waiting id = none := by
  show (if id = id then none else _) = none
  rw [if_pos rfl]

/-- A flush that is sending sends the rest of its data, and then it finds the buffer empty. -/
theorem awaitFlush_sending (steps : Nat) (answers : Nat → Int) (writable : Writable answers)
    (flusher : Flusher) (data : Bytes) (sent : Nat)
    (waiting : flusher.waiting 0 = some ⟨data, sent⟩) (more : sent < data.length)
    (taken : flusher.connection.outputBuf = []) (enough : data.length ≤ sent + steps) :
    ∃ left, Writable left ∧ (awaitFlush steps answers flusher).2 = left ∧
      (awaitFlush steps answers flusher).1.connection = flusher.connection ∧
      (awaitFlush steps answers flusher).1.accepted = flusher.accepted ++ data.drop sent ∧
      (0, true) ∈ (awaitFlush steps answers flusher).1.returned := by
  induction steps generalizing answers flusher sent with
  | zero => omega
  | succ steps inductionHypothesis =>
    have positive := writable 0
    have resumed : flusher.resumeFlush 0 (answers 0) =
        let flusher := { flusher with
          accepted := flusher.accepted ++ (data.drop sent).take (answers 0).toNat }
        if sent + (answers 0).toNat < data.length then
          flusher.setWaiting 0 (some { data, sent := sent + (answers 0).toNat })
        else flusher.takeOutput 0 := by
      rw [Flusher.resumeFlush, waiting]
      exact if_neg (Int.not_le.mpr positive)
    rw [awaitFlush, waiting]
    dsimp only at resumed ⊢
    rw [resumed]
    by_cases left : sent + (answers 0).toNat < data.length
    · rw [if_pos left]
      obtain ⟨answers', writable', rest, connection, accepted, returned⟩ :=
        inductionHypothesis (fun index => answers (index + 1)) writable.tail
          (({ flusher with
            accepted := flusher.accepted ++ (data.drop sent).take (answers 0).toNat } :
              Flusher).setWaiting 0 (some { data, sent := sent + (answers 0).toNat }))
          (sent + (answers 0).toNat) rfl left taken (by omega)
      refine ⟨answers', writable', rest, connection, accepted.trans ?_, returned⟩
      show flusher.accepted ++ (data.drop sent).take (answers 0).toNat ++ _ = _
      rw [List.append_assoc, ← List.drop_drop, List.take_append_drop]
    · rw [if_neg left]
      have all : (data.drop sent).take (answers 0).toNat = data.drop sent :=
        List.take_of_length_le (by rw [List.length_drop]; omega)
      have stays : flusher.connection.command .getPendingOutput = flusher.connection := by
        show { flusher.connection with
          sent := flusher.connection.sent ++ flusher.connection.outputBuf, outputBuf := [] } = _
        rw [taken, List.append_nil, ← taken]
      have finished : Flusher.takeOutput { flusher with
            accepted := flusher.accepted ++ (data.drop sent).take (answers 0).toNat } 0 =
          Flusher.finish { flusher with accepted := flusher.accepted ++ data.drop sent } 0 true := by
        rw [Flusher.takeOutput, all]
        show (if flusher.connection.outputBuf = [] then _ else _) = _
        rw [if_pos taken, stays]
      rw [finished, awaitFlush_idle steps _ _ (waiting_finish _ 0 true)]
      exact ⟨_, writable.tail, rfl, rfl, rfl,
        List.mem_append_right flusher.returned List.mem_cons_self⟩

/-- With a socket that can be written, a flush sends all of the output. -/
theorem flush_eq (served : ServedConnection) (writable : Writable served.answers) :
    ∃ answers, Writable answers ∧ served.flush = (true, { served with
      session := served.session.flushed
      answers
      accepted := served.accepted ++ served.session.connection.outputBuf }) := by
  obtain ⟨session, incoming, answers, accepted⟩ := served
  by_cases empty : session.connection.outputBuf = []
  · have started : Flusher.startFlush
        { connection := session.connection, accepted } 0 =
        Flusher.finish { connection := session.flushed.connection, flushing := true, accepted } 0
          true := if_pos empty
    refine ⟨answers, writable, ?_⟩
    rw [flush]
    dsimp only
    rw [started, awaitFlush_idle _ _ _ (waiting_finish _ 0 true), empty, List.append_nil]
    rfl
  · have started : Flusher.startFlush
        { connection := session.connection, accepted } 0 =
        Flusher.setWaiting { connection := session.flushed.connection, flushing := true, accepted } 0
          (some { data := session.connection.outputBuf }) := if_neg empty
    obtain ⟨left, writable', answers', connection, accepted', returned⟩ :=
      awaitFlush_sending session.connection.outputBuf.length answers writable
        (Flusher.setWaiting
          { connection := session.flushed.connection, flushing := true, accepted } 0
          (some { data := session.connection.outputBuf }))
        session.connection.outputBuf 0 rfl (List.length_pos_iff.mpr empty) rfl (by omega)
    refine ⟨left, writable', ?_⟩
    rw [flush]
    dsimp only
    rw [started, connection, accepted', answers', decide_eq_true returned]
    rfl

end ServedConnection

/-! ### Feeding what comes -/

namespace Session

theorem drained_flushed (session : Session) (drained : session.Drained) :
    session.flushed.Drained := drained

theorem feedSome_of_dead (session : Session) (data : Bytes)
    (dead : session.connection.alive = false) : session.feedSome data = .ok session := by
  rw [feedSome, feed, if_pos dead, ite_self]

/-- What has been fed leaves nothing to do for the flag of the preface. -/
theorem sawPreface_of_feed (session next : Session) (data : Bytes) (drained : session.Drained)
    (alive : session.connection.alive ≠ false) (fed : session.feed data = .ok next) :
    next.sawPreface = next := by
  rw [feed_eq_foldlM session data drained, if_neg alive] at fed
  have again := foldlM_feedByte_sawPreface data session.sawPreface
  rw [sawPreface_sawPreface, fed] at again
  exact (Except.ok.inj again).symm

theorem feedSome_append (session : Session) (data rest : Bytes) (drained : session.Drained) :
    session.feedSome (data ++ rest) =
      (session.feedSome data).bind fun next => next.feedSome rest := by
  by_cases dead : session.connection.alive = false
  · rw [feedSome_of_dead session _ dead, feedSome_of_dead session data dead]
    exact (feedSome_of_dead session rest dead).symm
  by_cases empty : data = []
  · rw [empty]
    rfl
  rw [feedSome, feedSome, if_neg empty, if_neg (by simp [empty])]
  cases fed : session.feed data with
  | error fault =>
    rw [feed_eq_foldlM session data drained, if_neg dead] at fed
    rw [feed_eq_foldlM session _ drained, if_neg dead, List.foldlM_append, fed]
    rfl
  | ok next =>
    have seen := sawPreface_of_feed session next data drained dead fed
    have drained' := feed_drained session next data drained fed
    rw [feed_eq_foldlM session data drained, if_neg dead] at fed
    rw [feed_eq_foldlM session _ drained, if_neg dead, List.foldlM_append, fed]
    show rest.foldlM feedByte next = next.feedSome rest
    rw [feedSome]
    split
    · rename_i nothing
      rw [nothing]
      rfl
    · rw [feed_eq_foldlM next rest drained', seen]
      split
      · rename_i dead'
        exact foldlM_feedByte_of_dead next rest dead'
      · rfl

theorem feedSome_drained (session next : Session) (data : Bytes) (drained : session.Drained)
    (fed : session.feedSome data = .ok next) : next.Drained := by
  rw [feedSome] at fed
  split at fed
  · cases fed
    exact drained
  · exact feed_drained session next data drained fed

/-- It makes no difference to a session whether its output has left when it is fed. -/
theorem map_flushed_feedSome (session : Session) (data : Bytes) (drained : session.Drained) :
    (session.flushed.feedSome data).map flushed = (session.feedSome data).map flushed := by
  unfold feedSome
  split
  · exact congrArg Except.ok session.flushed_flushed
  · rw [feed_eq_foldlM session data drained, feed_eq_foldlM session.flushed data drained]
    show (if session.connection.alive = false then Except.ok session.flushed
      else data.foldlM feedByte session.sawPreface.flushed).map flushed = _
    split
    · exact congrArg Except.ok session.flushed_flushed
    · exact map_flushed_foldlM_feedByte data session.sawPreface

/-- A session can be flushed between two pieces of its input. -/
theorem feedSome_flushed (session : Session) (data rest : Bytes) (drained : session.Drained) :
    ((session.feedSome data).bind fun next => next.flushed.feedSome rest).map flushed =
      (session.feedSome (data ++ rest)).map flushed := by
  rw [feedSome_append session data rest drained]
  cases fed : session.feedSome data with
  | error fault => rfl
  | ok next =>
    exact map_flushed_feedSome next rest (feedSome_drained session next data drained fed)

end Session

namespace ServedConnection

/-! ### The input of a connection -/

/-- The loop reads a prefix of what comes, and it stops short of the preface only when all of it has
been read. -/
theorem readPreface_spec (passes : Nat) (read : Bytes) (incoming : List Bytes)
    (enough : connectionPreface.length ≤ read.length + passes) :
    (readPreface passes read incoming).1 ++ (readPreface passes read incoming).2.flatten =
        read ++ incoming.flatten ∧
      (connectionPreface.length ≤ (readPreface passes read incoming).1.length ∨
        (readPreface passes read incoming).2.flatten = []) := by
  induction passes generalizing read incoming with
  | zero => exact ⟨rfl, Or.inl enough⟩
  | succ passes inductionHypothesis =>
    have parts := readSome_append (256 - read.length) incoming
    rw [readPreface]
    split
    · rename_i all
      exact ⟨rfl, Or.inl all⟩
    · rename_i short
      have length : connectionPreface.length = 24 := by decide
      dsimp only
      split
      · rename_i nothing
        rw [nothing, List.nil_append] at parts
        exact ⟨by rw [parts], Or.inr (parts.trans
          (readSome_eq_nil _ (by omega) incoming nothing))⟩
      · rename_i some
        have brought := List.length_pos_iff.mpr some
        rw [← parts, ← List.append_assoc]
        exact inductionHypothesis _ _ (by rw [List.length_append]; omega)

/-- All output has left, and the socket can be written. -/
structure Settled (served : ServedConnection) : Prop where
  flushed : served.session.flushed = served.session
  writable : Writable served.answers
  drained : served.session.Drained

/-- The read loop feeds the session with all that comes. -/
theorem readLoop_eq (passes : Nat) (served : ServedConnection) (settled : served.Settled)
    (enough : served.incoming.flatten.length < passes) :
    (served.readLoop passes).map session =
      (served.session.feedSome served.incoming.flatten).map Session.flushed := by
  induction passes generalizing served with
  | zero => exact absurd enough (Nat.not_lt_zero _)
  | succ passes inductionHypothesis =>
    have parts := readSome_append 16384 served.incoming
    rw [readLoop]
    split
    · rename_i dead
      rw [Session.feedSome_of_dead _ _ dead]
      exact congrArg Except.ok settled.flushed.symm
    dsimp only
    split
    · rename_i nothing
      rw [readSome_eq_nil 16384 (by decide) served.incoming nothing]
      exact congrArg Except.ok settled.flushed.symm
    · rename_i some
      have shorter := readSome_shorter 16384 served.incoming some
      rw [← parts, ← Session.feedSome_flushed _ _ _ settled.drained]
      have feeds : served.session.feedSome (readSome 16384 served.incoming).1 =
          served.session.feed (readSome 16384 served.incoming).1 := if_neg some
      rw [feeds]
      cases fed : served.session.feed (readSome 16384 served.incoming).1 with
      | error fault => rfl
      | ok next =>
        obtain ⟨answers, writable, flushes⟩ := flush_eq
          { served with session := next, incoming := (readSome 16384 served.incoming).2 }
          settled.writable
        show (match flush { served with
            session := next, incoming := (readSome 16384 served.incoming).2 } with
          | (false, served) => Except.ok served
          | (true, served) => readLoop passes served).map session = _
        rw [flushes]
        refine inductionHypothesis _ ⟨next.flushed_flushed, writable, ?_⟩ (by
          show (readSome 16384 served.incoming).2.flatten.length < passes
          omega)
        exact Session.drained_flushed next
          (Session.feed_drained _ next _ settled.drained fed)

theorem serve_eq (served : ServedConnection) (rest : Bytes) (settled : served.Settled) :
    (served.serve rest).map session =
      (served.session.feedSome (rest ++ served.incoming.flatten)).map Session.flushed := by
  rw [← Session.feedSome_flushed _ _ _ settled.drained, serve]
  cases fed : served.session.feedSome rest with
  | error fault => rfl
  | ok next =>
    obtain ⟨answers, writable, flushes⟩ := flush_eq { served with session := next }
      settled.writable
    show (readLoop _ (flush { served with session := next }).2).map session = _
    rw [flushes]
    refine readLoop_eq _ _ ⟨next.flushed_flushed, writable, ?_⟩ (Nat.lt_succ_self _)
    exact Session.drained_flushed next
      (Session.feedSome_drained _ next _ settled.drained fed)

/-- What a connection comes to: a session is fed with what follows the preface. -/
def outcome (session : Session) (input : Bytes) : Except Fault (Bool × Session) :=
  if connectionPreface <+: input then
    (session.feedSome (input.drop connectionPreface.length)).map fun next => (true, next.flushed)
  else .ok (false, session.flushed)

/-- The preface that has been read is the right one when the input starts with it. -/
theorem prefix_iff_read (read rest : Bytes)
    (stops : connectionPreface.length ≤ read.length ∨ rest = []) :
    connectionPreface <+: read ++ rest ↔
      ¬(read.length < connectionPreface.length ∨
        read.take connectionPreface.length ≠ connectionPreface) := by
  rw [not_or, not_not, Nat.not_lt]
  constructor
  · intro found
    have long : connectionPreface.length ≤ read.length := by
      rcases stops with long | rfl
      · exact long
      · exact List.append_nil read ▸ found.length_le
    have begins := List.prefix_of_prefix_length_le found (List.prefix_append read rest) long
    exact ⟨long, (List.prefix_iff_eq_take.mp begins).symm⟩
  · rintro ⟨_, front⟩
    have begins : connectionPreface <+: read := by
      rw [← front]
      exact List.take_prefix _ read
    exact begins.trans (List.prefix_append read rest)

/-- Serving a connection comes to the same, however its input is cut into segments and however much
the writes accept: the preface is found when the input starts with it, and the session ends in the
state, the bytes that have left included, in which it ends when it is fed with all of the rest. -/
theorem handleConnection_eq (served : ServedConnection) (reachable : served.session.Reachable)
    (writable : Writable served.answers) :
    served.handleConnection.map (fun result => (result.1, result.2.session)) =
      outcome served.session served.incoming.flatten := by
  have drained := Session.reachable_drained served.session reachable
  obtain ⟨answers, writable', flushes⟩ := flush_eq served writable
  obtain ⟨parts, stops⟩ := readPreface_spec connectionPreface.length [] served.incoming
    (Nat.le_add_left _ _)
  rw [List.nil_append] at parts
  rw [handleConnection, flushes]
  dsimp only
  generalize readPreface connectionPreface.length [] served.incoming = result at parts stops ⊢
  obtain ⟨read, incoming⟩ := result
  dsimp only at parts stops ⊢
  rw [outcome, ← parts]
  by_cases found : connectionPreface <+: read ++ incoming.flatten
  · have right := (prefix_iff_read read incoming.flatten stops).mp found
    have long : connectionPreface.length ≤ read.length :=
      Nat.not_lt.mp fun short => right (Or.inl short)
    have serves := serve_eq
      { session := served.session.flushed, incoming, answers
        accepted := served.accepted ++ served.session.connection.outputBuf }
      (read.drop connectionPreface.length)
      ⟨served.session.flushed_flushed, writable', drained⟩
    rw [if_neg right, if_pos found, List.drop_append_of_le_length long]
    have same := serves.trans (Session.map_flushed_feedSome served.session _ drained)
    calc
      _ = ((serve { session := served.session.flushed, incoming, answers
                    accepted := served.accepted ++ served.session.connection.outputBuf }
              (read.drop connectionPreface.length)).map session).map fun next => (true, next) := by
        cases serve _ _ <;> rfl
      _ = _ := by
        rw [same]
        cases served.session.feedSome _ <;> rfl
  · rw [if_neg found, if_pos (not_not.mp (mt (prefix_iff_read read incoming.flatten stops).mpr
      found))]
    rfl

/-- A preface cut in two, the second part with the start of a PING, and writes of one byte each. -/
theorem handleConnection_eq_ping :
    let served : ServedConnection :=
      { session := Session.create .server
        incoming := [connectionPreface.take 10,
          connectionPreface.drop 10 ++ [0, 0, 8, 6, 0], [0, 0, 0, 0, 1, 2, 3, 4, 5, 6, 7, 8]]
        answers := fun _ => 1 }
    served.handleConnection.map (fun result => (result.1, result.2.session)) =
      outcome (Session.create .server)
        (connectionPreface ++ [0, 0, 8, 6, 0, 0, 0, 0, 0, 1, 2, 3, 4, 5, 6, 7, 8]) :=
  handleConnection_eq _ (.create .server) fun _ => Int.one_pos

end ServedConnection

end AsyncNet.Http
