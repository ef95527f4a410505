/-
This file is about the times in the tracker's registry, by which stale peers are found. A peer is
seen when a command comes from its own connection, but `LIST` writes the time into every entry that
it copies. So a client that asks for the list from time to time keeps alive whatever is registered.
Where every `LIST` finds the other entries with the time that it writes, the times are those of the
commands of their own connections, and a peer that has been silent for too long is removed.
-/

import AsyncNet.P2p.TrackerOwnership

namespace AsyncNet.P2p

open Http Library

/-! ### The property -/

/-- The command of a line. -/
def command (line : Bytes) : Bytes := (extractWord (some line)).1

/-- A command that neither registers a peer nor ends its connection: `LIST`, `PING`, or one that is
answered with an error. -/
def Quiet (line : Bytes) : Prop :=
  line ≠ [] ∧ registration line = none ∧ command line ≠ ascii "QUIT"

instance (line : Bytes) : Decidable (Quiet line) :=
  inferInstanceAs (Decidable (line ≠ [] ∧ registration line = none ∧ command line ≠ ascii "QUIT"))

namespace TrackerServer

/-- Nothing has changed but the time of the connection's own peer. -/
structure TouchesOwn (connection : Connection) (server next : TrackerServer) : Prop where
  connections : next.connections = server.connections
  registrants : next.registrants = server.registrants
  others : ∀ id : Bytes, id ≠ connection.peerId → next.peers[id]? = server.peers[id]?
  own : (next.peers[connection.peerId]?).map PeerInfo.registration =
    (server.peers[connection.peerId]?).map PeerInfo.registration

/-- A quiet command changes at most the time of the connection's own peer. -/
def FramesOwn (server : TrackerServer) : TrackerAction → Prop
  | .line conn now line =>
      Quiet line → ∀ connection, server.connections conn = some connection →
        TouchesOwn connection server (server.handleLine conn connection now line).1
  | _ => True

/-- A `LIST` finds the time that it writes in all entries but the one of its own connection. -/
def ListsCurrent (server : TrackerServer) : TrackerAction → Prop
  | .line conn now line =>
      line ≠ [] → command line = ascii "LIST" →
        ∀ connection, server.connections conn = some connection →
          ∀ (id : Bytes) info, id ≠ connection.peerId → server.peers[id]? = some info →
            info.lastSeen = now
  | _ => True

/-- In a run, a line has come at a time from a connection that is registered under an id when the
line has been handled. -/
def HeardAt (start : TrackerServer) (actions : List TrackerAction) (id : Bytes) (time : Nat) :
    Prop :=
  ∃ front conn line server connection,
    front ++ [.line conn time line] <+: actions ∧
      after step start (front ++ [.line conn time line]) = some server ∧
      server.connections conn = some connection ∧ connection.peerId = id

/-! ### One line -/

section Line

variable {server : TrackerServer} {conn : Nat} {connection : Connection} {now : Nat} {line : Bytes}

/-- What a quiet command does. -/
theorem handleLine_quiet (quiet : Quiet line) :
    (server.handleLine conn connection now line).1 =
      if command line = ascii "LIST" then server.list now
      else if command line = ascii "PING" then server.ping connection now else server := by
  obtain ⟨some, none, stays⟩ := quiet
  unfold registration at none
  unfold command at stays ⊢
  unfold handleLine
  dsimp only at none ⊢
  rw [if_neg some]
  by_cases registers : (extractWord (Option.some line)).1 = ascii "REGISTER"
  · rw [if_pos ⟨some, registers⟩] at none
    rw [if_pos registers, none, registers, if_neg (by decide), if_neg (by decide)]
  · rw [if_neg registers]
    by_cases lists : (extractWord (Option.some line)).1 = ascii "LIST"
    · rw [if_pos lists, if_pos lists]
    · rw [if_neg lists, if_neg lists]
      by_cases pings : (extractWord (Option.some line)).1 = ascii "PING"
      · rw [if_pos pings, if_pos pings]
      · rw [if_neg pings, if_neg pings, if_neg stays]

/-- Any other line that registers no peer ends the connection. -/
theorem handleLine_ends (none : registration line = none) (loud : ¬ Quiet line) :
    (server.handleLine conn connection now line).1 = server.close conn connection := by
  by_cases empty : line = []
  · unfold handleLine
    dsimp only
    rw [if_pos empty]
  · have quits : (extractWord (some line)).1 = ascii "QUIT" := by
      by_contra stays
      exact loud ⟨empty, none, stays⟩
    unfold handleLine
    dsimp only
    rw [if_neg empty, quits, if_neg (by decide), if_neg (by decide), if_neg (by decide),
      if_pos rfl]

theorem getElem?_list (server : TrackerServer) (now : Nat) (id : Bytes) :
    (server.list now).peers[id]? =
      (server.peers[id]?).map fun info => { info with lastSeen := now } :=
  Std.ExtTreeMap.getElem?_map

theorem getElem?_ping_self (server : TrackerServer) {info : PeerInfo}
    (found : (server.ping connection now).peers[connection.peerId]? = some info) :
    info.lastSeen = now ∨ server.peers[connection.peerId]? = some info := by
  unfold ping at found
  split at found
  · exact Or.inr found
  · split at found
    · exact Or.inr found
    · have entry := Std.ExtTreeMap.getElem?_insert_self.symm.trans found
      cases entry
      exact Or.inl rfl

theorem getElem?_ping_other (server : TrackerServer) (connection : Connection) (now : Nat)
    {id : Bytes} (other : id ≠ connection.peerId) :
    (server.ping connection now).peers[id]? = server.peers[id]? := by
  unfold ping
  split
  · rfl
  · split
    · rfl
    · show (server.peers.insert connection.peerId _)[id]? = _
      rw [Std.ExtTreeMap.getElem?_insert,
        if_neg fun equal => other (Std.LawfulEqCmp.compare_eq_iff_eq.mp equal).symm]

theorem touchesOwn_self (connection : Connection) (server : TrackerServer) :
    TouchesOwn connection server server := ⟨rfl, rfl, fun _ _ => rfl, rfl⟩

theorem touchesOwn_ping (server : TrackerServer) (connection : Connection) (now : Nat) :
    TouchesOwn connection server (server.ping connection now) := by
  have refreshed := server.refreshed_ping connection now
  exact ⟨refreshed.connections, refreshed.registrants,
    fun _ other => server.getElem?_ping_other connection now other, refreshed.peers _⟩

/-- `LIST` changes the times of the other peers, unless they have the time that it writes. -/
theorem touchesOwn_list_iff (server : TrackerServer) (connection : Connection) (now : Nat) :
    TouchesOwn connection server (server.list now) ↔
      ∀ (id : Bytes) info, id ≠ connection.peerId → server.peers[id]? = some info →
        info.lastSeen = now := by
  have refreshed := server.refreshed_list now
  constructor
  · intro touches id info other found
    have same := touches.others id other
    rw [getElem?_list, found, Option.map_some] at same
    exact (congrArg PeerInfo.lastSeen (Option.some.inj same)).symm
  · intro current
    refine ⟨refreshed.connections, refreshed.registrants, fun id other => ?_, refreshed.peers _⟩
    rw [getElem?_list]
    cases found : server.peers[id]? with
    | none => rfl
    | some info =>
      rw [Option.map_some, ← current id info other found]

theorem framesOwn_iff (server : TrackerServer) (action : TrackerAction) :
    server.FramesOwn action ↔ server.ListsCurrent action := by
  cases action with
  | line conn now line =>
    constructor
    · intro frames some lists connection isOpen
      have quiet : Quiet line := by
        refine ⟨some, ?_, ?_⟩
        · unfold registration
          dsimp only
          rw [if_neg fun both => ?_]
          rw [show (extractWord (Option.some line)).1 = ascii "LIST" from lists] at both
          exact absurd both.2 (by decide)
        · rw [lists]
          decide
      have touches := frames quiet connection isOpen
      rw [handleLine_quiet quiet, if_pos lists] at touches
      exact (server.touchesOwn_list_iff connection now).mp touches
    · intro current quiet connection isOpen
      rw [handleLine_quiet quiet]
      split
      · rename_i lists
        exact (server.touchesOwn_list_iff connection now).mpr
          (current quiet.1 lists connection isOpen)
      · split
        · exact server.touchesOwn_ping connection now
        · exact touchesOwn_self connection server
  | accept _ _ | disconnect _ | cleanup _ => exact Iff.rfl

end Line

/-! ### Runs -/

section Runs

variable {start server next : TrackerServer} {actions : List TrackerAction} {id : Bytes}
  {time : Nat}

theorem HeardAt.concat (heard : HeardAt start actions id time) (action : TrackerAction) :
    HeardAt start (actions ++ [action]) id time := by
  obtain ⟨front, conn, line, server, connection, isPrefix, run, isOpen, same⟩ := heard
  have stays := isPrefix.trans (List.prefix_append actions [action])
  exact ⟨front, conn, line, server, connection, stays, run, isOpen, same⟩

/-- The time of every entry is one at which its own connection has been heard. -/
def TimesHeard (start : TrackerServer) (actions : List TrackerAction) (server : TrackerServer) :
    Prop :=
  ∀ (id : Bytes) info, server.peers[id]? = some info → HeardAt start actions id info.lastSeen

theorem TimesHeard.of_fewer (heard : TimesHeard start actions server) (action : TrackerAction)
    (fewer : ∀ (id : Bytes) info, next.peers[id]? = some info → server.peers[id]? = some info) :
    TimesHeard start (actions ++ [action]) next :=
  fun id info found => (heard id info (fewer id info found)).concat action

theorem fewer_close (server : TrackerServer) (conn : Nat) (connection : Connection) (id : Bytes)
    (info : PeerInfo) (found : (server.close conn connection).peers[id]? = some info) :
    server.peers[id]? = some info := by
  rw [getElem?_close] at found
  split at found
  · cases found
  · exact found

/-- The entries that `cleanup_stale_peers` leaves are not stale. -/
theorem getElem?_cleanupStalePeers (server : TrackerServer) (now : Nat) (id : Bytes)
    (info : PeerInfo) :
    (server.cleanupStalePeers now).peers[id]? = some info ↔
      server.peers[id]? = some info ∧ ¬ server.peerTimeout < now - info.lastSeen := by
  show (server.peers.filter _)[id]? = some info ↔ _
  rw [Std.ExtTreeMap.getElem?_filter', Option.filter_eq_some_iff, decide_eq_true_iff]

/-- A line keeps the times those at which the connections have been heard. -/
theorem TimesHeard.line (heard : TimesHeard start actions server) {conn now : Nat} {line : Bytes}
    (run : after step start (actions ++ [.line conn now line]) = some next)
    (taken : server.step (.line conn now line) = some next)
    (current : server.ListsCurrent (.line conn now line)) :
    TimesHeard start (actions ++ [.line conn now line]) next := by
  obtain ⟨_, connection, isOpen, handled⟩ := step_line taken
  -- A line from a connection that is registered under the id when it has been handled.
  have now' {id : Bytes} {latest : Connection}
      (isOpen : next.connections conn = some latest) (same : latest.peerId = id) :
      HeardAt start (actions ++ [.line conn now line]) id now :=
    ⟨actions, conn, line, next, latest, List.prefix_rfl, run, isOpen, same⟩
  by_cases quiet : Quiet line
  · rw [handleLine_quiet quiet] at handled
    split at handled
    · rename_i lists
      subst handled
      intro key info found
      rw [getElem?_list] at found
      obtain ⟨old, before, rfl⟩ := Option.map_eq_some_iff.mp found
      by_cases own : key = connection.peerId
      · exact now' isOpen own.symm
      · have same := current quiet.1 lists connection isOpen key old own before
        have former := (heard key old before).concat (.line conn now line)
        rwa [same] at former
    · split at handled
      · subst handled
        intro key info found
        by_cases own : key = connection.peerId
        · subst own
          obtain seen | before := server.getElem?_ping_self found
          · rw [seen]
            refine now' ?_ rfl
            rw [(server.refreshed_ping connection now).connections]
            exact isOpen
          · exact (heard _ info before).concat _
        · rw [getElem?_ping_other server connection now own] at found
          exact (heard key info found).concat _
      · subst handled
        exact heard.of_fewer _ fun _ _ found => found
  · cases registers : registration line with
    | none =>
      rw [handleLine_ends registers quiet] at handled
      rw [← handled]
      exact heard.of_fewer _ (server.fewer_close conn connection)
    | some arguments =>
      obtain ⟨id, udpPort, tcpPort, some, same⟩ | ⟨none, _⟩ :=
        server.handleLine_cases conn connection now line
      · rw [handled] at same
        subst same
        intro key info found
        by_cases own : key = id
        · subst own
          have entry := Std.ExtTreeMap.getElem?_insert_self.symm.trans found
          cases entry
          exact now' (Function.update_self ..) rfl
        · refine (heard key info ?_).concat _
          have found : (server.peers.insert id _)[key]? = Option.some info := found
          rwa [Std.ExtTreeMap.getElem?_insert,
            if_neg fun equal => own (Std.LawfulEqCmp.compare_eq_iff_eq.mp equal).symm] at found
      · cases registers.symm.trans none

theorem peerTimeout_close (server : TrackerServer) (conn : Nat) (connection : Connection) :
    (server.close conn connection).peerTimeout = server.peerTimeout := by
  unfold close
  dsimp only
  split <;> rfl

theorem peerTimeout_step {action : TrackerAction} (taken : server.step action = some next) :
    next.peerTimeout = server.peerTimeout := by
  cases action with
  | accept conn endpoint =>
    rw [step] at taken
    split at taken
    · cases taken
    · cases taken
      rfl
  | line conn now line =>
    obtain ⟨_, connection, _, rfl⟩ := step_line taken
    by_cases quiet : Quiet line
    · rw [handleLine_quiet quiet]
      split
      · rfl
      · split
        · unfold ping
          split
          · rfl
          · split <;> rfl
        · rfl
    · cases registers : registration line with
      | none => rw [handleLine_ends registers quiet, peerTimeout_close]
      | some arguments =>
        obtain ⟨id, udpPort, tcpPort, _, same⟩ | ⟨none, _⟩ :=
          server.handleLine_cases conn connection now line
        · rw [same]
          rfl
        · cases registers.symm.trans none
  | disconnect conn =>
    obtain ⟨connection, _, rfl⟩ := Option.map_eq_some_iff.mp taken
    exact server.peerTimeout_close conn connection
  | cleanup now =>
    cases taken
    rfl

/-- In a run in which every `LIST` is current, the times are those of the own connections. -/
theorem timesHeard (unseen : ∀ id : Bytes, start.peers[id]? = none)
    (heeds : Heeds step ListsCurrent start actions) (run : after step start actions = some server) :
    TimesHeard start actions server := by
  refine after_history
    (fun actions server => Heeds step ListsCurrent start actions → TimesHeard start actions server)
    ?_ ?_ run heeds
  · intro _ id info found
    cases (unseen id).symm.trans found
  · intro actions middle action next front inductionHypothesis taken heeds
    obtain ⟨earlier, last⟩ := heeds.of_concat
    have heard := inductionHypothesis earlier
    cases action with
    | accept conn endpoint =>
      rw [step] at taken
      split at taken
      · cases taken
      · cases taken
        exact heard.of_fewer _ fun _ _ found => found
    | line conn now line =>
      exact heard.line (after_concat.mpr ⟨middle, front, taken⟩) taken (last middle front)
    | disconnect conn =>
      obtain ⟨connection, _, rfl⟩ := Option.map_eq_some_iff.mp taken
      exact heard.of_fewer _ (middle.fewer_close conn connection)
    | cleanup now =>
      cases taken
      exact heard.of_fewer _ fun id info found =>
        ((middle.getElem?_cleanupStalePeers now id info).mp found).1

/-- The quiet commands of a run change at most the times of their own connections' peers, if and
only if every `LIST` finds the time that it writes in the other entries. Then a peer is removed when
its connection has not been heard for longer than the timeout. -/
theorem framesOwn_iff_and_stale_removed {timeout : Nat} {final : TrackerServer}
    (run : after step { peerTimeout := timeout } actions = some final) :
    (Heeds step FramesOwn { peerTimeout := timeout } actions ↔
        Heeds step ListsCurrent { peerTimeout := timeout } actions) ∧
      (Heeds step ListsCurrent { peerTimeout := timeout } actions → ∀ (id : Bytes) (now : Nat),
        (∀ time, HeardAt { peerTimeout := timeout } actions id time → timeout < now - time) →
        (final.cleanupStalePeers now).peers[id]? = none) := by
  refine ⟨heeds_congr framesOwn_iff actions _, fun heeds id now silent => ?_⟩
  have heard := timesHeard (fun _ => Std.ExtTreeMap.getElem?_empty) heeds run
  have same : final.peerTimeout = timeout :=
    after_invariant (fun server => server.peerTimeout = timeout)
      (fun _ _ _ before taken => (peerTimeout_step taken).trans before) rfl run
  rw [Option.eq_none_iff_forall_ne_some]
  intro info left
  obtain ⟨found, current⟩ := (final.getElem?_cleanupStalePeers now id info).mp left
  rw [same] at current
  exact current (silent _ (heard id info found))

theorem getElem?_list_register (server : TrackerServer) (conn : Nat) (connection : Connection)
    (now later : Nat) (id : Bytes) (udpPort tcpPort : Nat) :
    ((server.register conn connection now id udpPort tcpPort).list later).peers[id]? =
      some ⟨id, connection.endpoint.clientIp, udpPort, tcpPort, later⟩ := by
  rw [getElem?_list]
  show Option.map _ (server.peers.insert id _)[id]? = _
  rw [Std.ExtTreeMap.getElem?_insert_self]
  rfl

theorem HeardAt.mem (heard : HeardAt start actions id time) :
    ∃ conn line, .line conn time line ∈ actions := by
  obtain ⟨front, conn, line, _, _, isPrefix, _⟩ := heard
  exact ⟨conn, line, isPrefix.subset (List.mem_append_right _ List.mem_cons_self)⟩

/-- A client registers, asks for the list after five seconds, and says nothing more. -/
theorem stale_removed_alone :
    let actions : List TrackerAction :=
      [.accept 0 localClient.endpoint, .line 0 0 (ascii "REGISTER alice 8001"),
        .line 0 (5 * 10 ^ 9) (ascii "LIST")]
    ∃ final, after step {} actions = some final ∧ Heeds step FramesOwn {} actions ∧
      (final.cleanupStalePeers (70 * 10 ^ 9)).peers[ascii "alice"]? = none := by
  intro actions
  have heeds : Heeds step ListsCurrent {} actions := by
    refine ⟨trivial, fun _ first => ?_⟩
    cases first
    refine ⟨fun _ lists => absurd lists (by decide), fun _ second => ?_⟩
    cases second
    refine ⟨fun _ _ connection isOpen id info other found => ?_, fun _ _ => trivial⟩
    cases isOpen
    have other : id ≠ ascii "alice" := other
    have found : ((∅ : Std.ExtTreeMap Bytes PeerInfo).insert (ascii "alice") _)[id]? = some info :=
      found
    rw [Std.ExtTreeMap.getElem?_insert,
      if_neg fun equal => other (Std.LawfulEqCmp.compare_eq_iff_eq.mp equal).symm,
      Std.ExtTreeMap.getElem?_empty] at found
    cases found
  have sound := @framesOwn_iff_and_stale_removed actions (60 * 10 ^ 9) _ rfl
  refine ⟨_, rfl, sound.1.mpr heeds, sound.2 heeds _ _ fun time heard => ?_⟩
  obtain ⟨conn, line, member⟩ := heard.mem
  have early : time ≤ 5 * 10 ^ 9 := by
    obtain wrong | member := List.mem_cons.mp member
    · cases wrong
    obtain same | member := List.mem_cons.mp member
    · cases same
      exact Nat.zero_le _
    · cases List.mem_singleton.mp member
      exact Nat.le_refl _
  omega

/-- A client that asks for the list keeps alive a peer whose connection has been silent for longer
than the timeout. -/
theorem not_framesOwn_list :
    let actions : List TrackerAction :=
      [.accept 0 localClient.endpoint, .accept 1 localClient.endpoint,
        .line 0 0 (ascii "REGISTER alice 8001"), .line 1 (50 * 10 ^ 9) (ascii "LIST")]
    ∃ final, after step {} actions = some final ∧ ¬ Heeds step FramesOwn {} actions ∧
      (final.cleanupStalePeers (70 * 10 ^ 9)).peers[ascii "alice"]? ≠ none := by
  intro actions
  refine ⟨_, rfl, fun heeds => ?_, ?_⟩
  · have frames := (((heeds.2 _ rfl).2 _ rfl).2 _ rfl).1
    have current := (framesOwn_iff _ _).mp frames (by decide) (by decide) localClient rfl
      (ascii "alice") _ (by decide) Std.ExtTreeMap.getElem?_insert_self
    cases current
  · have listed := getElem?_list_register twoClients 0 localClient 0 (50 * 10 ^ 9) (ascii "alice")
      8001 0
    have recent : ¬ 60 * 10 ^ 9 < 70 * 10 ^ 9 - 50 * 10 ^ 9 := by decide
    have left := (getElem?_cleanupStalePeers _ (70 * 10 ^ 9) _ _).mpr ⟨listed, recent⟩
    exact fun none => by cases none.symm.trans left

end Runs

end TrackerServer

end AsyncNet.P2p
