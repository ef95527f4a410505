/-
This file shows that it does not matter to an HTTP/2 session how its input is cut. A
session that is alive has taken every complete frame out of its reader, so it can be
fed byte by byte: feeding is a fold over the bytes, and folds compose along
concatenation. A dead session ignores what it is fed.
-/

import AsyncNet.Http.H2Reader
import AsyncNet.Http.Http2Calls
import AsyncNet.Library.Runs

namespace AsyncNet.Http.Session

open Library H2

/-! ### Between two calls -/

/-- A session that is alive has no complete frame left. -/
def Drained (session : Session) : Prop :=
  session.connection.alive = true → session.reader.AwaitsBytes

theorem process_reader (session next : Session) (f : Frame)
    (processed : session.process f = .ok next) :
    next.reader = session.reader := by
  obtain ⟨connection, _, rfl⟩ := map_ok processed
  rfl

theorem drain_of_awaits (session : Session) (awaits : session.reader.AwaitsBytes) :
    session.drain = .ok session := by
  rw [drain, FrameReader.hasFrame_of_awaits _ awaits, if_neg (by decide)]

theorem drain_of_hasFrame (session : Session) (frame : session.reader.hasFrame = true) :
    session.drain =
      process { session with reader := session.reader.takeFrame.2 } session.reader.takeFrame.1 := by
  rw [drain, if_pos frame]

theorem drain_drained (session next : Session)
    (stops : session.reader.AwaitsBytes ∨ session.reader.hasFrame = true)
    (drained : session.drain = .ok next) : next.Drained := by
  rcases stops with awaits | frame
  · rw [drain_of_awaits _ awaits] at drained
    cases drained
    exact fun _ => awaits
  · rw [drain_of_hasFrame _ frame] at drained
    intro _
    rw [process_reader _ next _ drained]
    exact FrameReader.awaitsBytes_takeFrame _

/-! ### One byte -/

/-- One byte is fed. -/
def feedByte (session : Session) (byte : UInt8) : Except Fault Session :=
  if session.connection.alive = false then .ok session
  else drain { session with reader := session.reader.push byte }

theorem feedByte_drained (session next : Session) (byte : UInt8) (drained : session.Drained)
    (fed : session.feedByte byte = .ok next) : next.Drained := by
  unfold feedByte at fed
  split at fed
  · cases fed
    exact drained
  · rename_i alive
    have awaits := drained (Bool.eq_true_of_not_eq_false alive)
    exact drain_drained _ next (session.reader.push_awaits_or_hasFrame byte awaits) fed

theorem foldlM_feedByte_drained (data : Bytes) (session next : Session) (drained : session.Drained)
    (fed : data.foldlM feedByte session = .ok next) : next.Drained :=
  foldlM_invariant (fun session byte next => feedByte_drained session next byte) data session next
    drained fed

theorem foldlM_feedByte_of_dead (session : Session) (data : Bytes)
    (dead : session.connection.alive = false) : data.foldlM feedByte session = .ok session := by
  induction data with
  | nil => rfl
  | cons byte data inductionHypothesis =>
    rw [List.foldlM_cons, feedByte, if_pos dead]
    exact inductionHypothesis

/-! ### The loop -/

theorem feedLoop_of_dead (passes : Nat) (session : Session) (data : Bytes)
    (dead : session.connection.alive = false) : feedLoop passes session data = .ok session := by
  cases passes with
  | zero => rfl
  | succ passes => rw [feedLoop, if_pos (Or.inr dead)]

/-- A pass of the loop, which takes a byte at least. -/
theorem feedLoop_pass (passes : Nat) (session : Session) (data : Bytes)
    (alive : session.connection.alive = true) (awaits : session.reader.AwaitsBytes)
    (nonempty : data ≠ []) :
    feedLoop (passes + 1) session data =
      (drain { session with reader := (session.reader.feed data).1 } >>= fun next =>
        feedLoop passes next (session.reader.feed data).2) := by
  have shorter := (session.reader.feed_stops data awaits).2
  have positive := List.length_pos_of_ne_nil nonempty
  rw [feedLoop, if_neg (by rw [alive]; exact fun stops => stops.elim nonempty (by decide))]
  revert shorter
  obtain ⟨reader, rest⟩ := session.reader.feed data
  intro shorter
  dsimp only at shorter ⊢
  cases drain { session with reader := reader } with
  | error fault => rfl
  | ok next =>
    show (if rest.length = data.length ∧ next.reader.hasFrame = false then Except.ok next
      else feedLoop passes next rest) = _
    rw [if_neg (by omega)]
    rfl

/-- The loop is a fold over the bytes. -/
theorem feedLoop_eq_foldlM (passes : Nat) (session : Session) (data : Bytes)
    (drained : session.Drained) (enough : data.length ≤ passes) :
    feedLoop passes session data = data.foldlM feedByte session := by
  induction bound : data.length using Nat.strong_induction_on generalizing passes session data with
  | _ bound' inductionHypothesis =>
  subst bound
  by_cases alive : session.connection.alive = true
  · cases data with
    | nil => cases passes <;> simp [feedLoop] <;> rfl
    | cons byte rest =>
      rw [List.length_cons] at enough inductionHypothesis
      obtain ⟨passes, rfl⟩ := Nat.exists_eq_succ_of_ne_zero (by omega : passes ≠ 0)
      have awaits := drained alive
      have later (next : Session) (left : Bytes) (shorter : left.length ≤ rest.length)
          (fuel : Nat) (fuelEnough : left.length ≤ fuel) (nextDrained : next.Drained) :
          feedLoop fuel next left = left.foldlM feedByte next :=
        inductionHypothesis left.length (by omega) fuel next left nextDrained fuelEnough rfl
      rw [feedLoop_pass passes session _ alive awaits (List.cons_ne_nil _ _), List.foldlM_cons,
        feedByte, if_neg (by rw [alive]; decide),
        FrameReader.feed_cons session.reader byte rest awaits]
      rcases session.reader.push_awaits_or_hasFrame byte awaits with awaits' | frame
      · rw [FrameReader.hasFrame_of_awaits _ awaits', if_neg (by decide),
          drain_of_awaits { session with reader := session.reader.push byte } awaits']
        show _ = rest.foldlM feedByte { session with reader := session.reader.push byte }
        set pushed : Session := { session with reader := session.reader.push byte }
        by_cases nonempty : rest = []
        · subst nonempty
          show (drain pushed >>= fun next => feedLoop passes next []) = Except.ok pushed
          rw [drain_of_awaits pushed awaits']
          show feedLoop passes pushed [] = _
          rw [later pushed [] le_rfl passes (Nat.zero_le _) fun _ => awaits']
          rfl
        · obtain ⟨fuel, length⟩ :=
            Nat.exists_eq_succ_of_ne_zero (List.length_pos_of_ne_nil nonempty).ne'
          have stops := pushed.reader.feed_stops rest awaits'
          have shorter : ((session.reader.push byte).feed rest).2.length ≤
            rest.length - 1 := stops.2
          rw [← later pushed rest le_rfl rest.length le_rfl fun _ => awaits', length,
            feedLoop_pass fuel pushed rest alive awaits' nonempty]
          refine bind_congr_of_ok fun next drains => ?_
          have nextDrained := drain_drained _ next stops.1 drains
          rw [later next _ (by omega) passes (by omega) nextDrained,
            later next _ (by omega) fuel (by omega) nextDrained]
      · rw [if_pos frame]
        refine bind_congr_of_ok fun next drains => ?_
        exact later next rest le_rfl passes (by omega)
          (drain_drained { session with reader := session.reader.push byte } next (Or.inr frame)
            drains)
  · have dead := Bool.eq_false_of_not_eq_true alive
    rw [feedLoop_of_dead _ _ _ dead, foldlM_feedByte_of_dead _ _ dead]

/-! ### Calls of `feed` -/

/-- What `feed` does before its loop. -/
def sawPreface (session : Session) : Session :=
  { session with prefaceReceived := session.prefaceReceived || session.config.mode = .server }

theorem feed_eq_foldlM (session : Session) (data : Bytes) (drained : session.Drained) :
    session.feed data =
      if session.connection.alive = false then .ok session
      else data.foldlM feedByte session.sawPreface := by
  unfold feed
  split
  · rfl
  · exact feedLoop_eq_foldlM data.length session.sawPreface data drained le_rfl

theorem feed_drained (session next : Session) (data : Bytes) (drained : session.Drained)
    (fed : session.feed data = .ok next) : next.Drained := by
  rw [feed_eq_foldlM session data drained] at fed
  split at fed
  · cases fed
    exact drained
  · exact foldlM_feedByte_drained data session.sawPreface next drained fed

theorem op_alive (session : Session) (op : Op) :
    (session.op op).connection.alive = session.connection.alive := by
  cases op with
  | call command => exact (Connection.quiet_command session.connection command).alive
  | _ => rfl

theorem op_reader (session : Session) (op : Op) : (session.op op).reader = session.reader := by
  cases op <;> rfl

theorem reachable_drained (session : Session) (reachable : Reachable session) :
    session.Drained := by
  induction reachable with
  | create mode => exact fun _ => FrameReader.awaitsBytes_new
  | op before op inductionHypothesis =>
    intro alive
    rw [op_alive] at alive
    rw [op_reader]
    exact inductionHypothesis alive
  | @feed session next before data fed inductionHypothesis =>
    exact feed_drained session next data inductionHypothesis fed

/-! ### Pieces of an input -/

theorem sawPreface_sawPreface (session : Session) :
    session.sawPreface.sawPreface = session.sawPreface := by
  unfold sawPreface
  simp only [Bool.or_assoc, Bool.or_self]

theorem feedByte_sawPreface (session : Session) (byte : UInt8) :
    session.sawPreface.feedByte byte = (session.feedByte byte).map sawPreface := by
  have drained (reader : FrameReader) : drain { session.sawPreface with reader := reader } =
      (drain { session with reader := reader }).map sawPreface := by
    unfold drain process
    dsimp only [sawPreface]
    split
    · cases session.connection.processFrame session.config reader.takeFrame.1 <;> rfl
    · rfl
  by_cases dead : session.connection.alive = false
  · rw [feedByte, feedByte, if_pos dead, if_pos (by exact dead)]
    rfl
  · rw [feedByte, feedByte, if_neg dead, if_neg (by exact dead)]
    exact drained (session.reader.push byte)

/-- Feeding byte by byte goes past the flag of the preface. -/
theorem foldlM_feedByte_sawPreface (data : Bytes) (session : Session) :
    data.foldlM feedByte session.sawPreface = (data.foldlM feedByte session).map sawPreface := by
  induction data generalizing session with
  | nil => rfl
  | cons byte data inductionHypothesis =>
    rw [List.foldlM_cons, List.foldlM_cons, feedByte_sawPreface]
    cases session.feedByte byte with
    | error fault => rfl
    | ok next => exact inductionHypothesis next

theorem map_feed (session : Session) (data : Bytes) (drained : session.Drained) :
    (session.feed data).map sawPreface = data.foldlM feedByte session.sawPreface := by
  rw [feed_eq_foldlM session data drained]
  by_cases dead : session.connection.alive = false
  · rw [if_pos dead, foldlM_feedByte_of_dead session.sawPreface data dead]
    rfl
  · rw [if_neg dead, ← foldlM_feedByte_sawPreface, sawPreface_sawPreface]

theorem map_foldlM_feed (pieces : List Bytes) (session : Session) (drained : session.Drained) :
    (pieces.foldlM feed session).map sawPreface =
      pieces.flatten.foldlM feedByte session.sawPreface := by
  induction pieces generalizing session with
  | nil => rfl
  | cons piece pieces inductionHypothesis =>
    have first := map_feed session piece drained
    rw [List.flatten_cons, List.foldlM_append, ← first, List.foldlM_cons]
    cases fed : session.feed piece with
    | error fault => rfl
    | ok next => exact inductionHypothesis next (feed_drained session next piece drained fed)

/-- However an input is cut into pieces, feeding them one after another to a reachable session ends
where feeding it in one piece does: in the same fault or in the same state, with the same frames
processed, the same calls made and the same bytes sent. Only the flag that a server has been fed at
all can be set by an empty piece. -/
theorem feed_pieces (session : Session) (reachable : Reachable session) (pieces : List Bytes) :
    (pieces.foldlM feed session).map sawPreface =
      (session.feed pieces.flatten).map sawPreface := by
  have drained := reachable_drained session reachable
  rw [map_foldlM_feed pieces session drained, map_feed session pieces.flatten drained]

/-- A PING cut inside its header and before its last byte, with the next header begun. -/
theorem feed_pieces_ping :
    ([[0, 0, 8], [6, 0, 0, 0, 0, 0, 1, 2, 3, 4, 5, 6, 7], [8, 0, 0]].foldlM feed
      (create .server)).map sawPreface =
    ((create .server).feed
      [0, 0, 8, 6, 0, 0, 0, 0, 0, 1, 2, 3, 4, 5, 6, 7, 8, 0, 0]).map sawPreface :=
  feed_pieces (create .server) (.create .server)
    [[0, 0, 8], [6, 0, 0, 0, 0, 0, 1, 2, 3, 4, 5, 6, 7], [8, 0, 0]]

end AsyncNet.Http.Session
