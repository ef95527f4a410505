/-
This file is about who owns the entries of the tracker's registry. The registry is keyed by an
id that the client chooses, and what a connection owns is tracked by a variable of its
coroutine. So an entry is left without an owner when a connection registers under a second id,
and a connection that ends takes away the entry of another one when both have registered under
the same id. These are the only ways: the registry is owned throughout a run if and only if no
`REGISTER` of the run is of these two kinds.
-/

import AsyncNet.Library.Schedules
import AsyncNet.P2p.TrackerServer

namespace AsyncNet.P2p

open Http Library

/-! ### Ownership -/

/-- What `REGISTER` puts into an entry. -/
def PeerInfo.registration (info : PeerInfo) : Bytes × Bytes × Nat × Nat :=
  (info.id, info.publicAddress, info.udpPort, info.tcpPort)

/-- What the last `REGISTER` of a connection has put into its entry. -/
def Connection.registration (connection : Connection) : Bytes × Bytes × Nat × Nat :=
  (connection.peerId, connection.endpoint.clientIp, connection.ports.1, connection.ports.2)

/-- The arguments of a line that registers a peer. -/
def registration (line : Bytes) : Option (Bytes × Nat × Nat) :=
  let (cmd, stream) := extractWord (some line)
  if line ≠ [] ∧ cmd = ascii "REGISTER" then registerArguments stream else none

namespace TrackerServer

/-- Every id of the registry is the latest one of an open connection, which has registered it last
and whose data it holds, and a connection that ends now takes away nothing but its own entry. -/
structure Owned (server : TrackerServer) : Prop where
  entry : ∀ id info, server.peers[id]? = some info → ∃ conn connection,
    server.connections conn = some connection ∧ connection.peerId = id ∧
      server.registrants id = some conn ∧ info.registration = connection.registration
  own : ∀ conn connection, server.connections conn = some connection → connection.peerId ≠ [] →
    server.peers[connection.peerId]? ≠ none → server.registrants connection.peerId = some conn

/-- A connection registers under the id that it has, or has no entry under it, and the new id is not
the latest one of another connection. -/
def Exclusive (server : TrackerServer) : TrackerAction → Prop
  | .line conn _ line =>
      ∀ connection, server.connections conn = some connection →
        ∀ id udpPort tcpPort, registration line = some (id, udpPort, tcpPort) →
          (connection.peerId = id ∨ connection.peerId = [] ∨
            server.peers[connection.peerId]? = none) ∧
          ∀ other otherConnection, other ≠ conn →
            server.connections other = some otherConnection → otherConnection.peerId ≠ id
  | _ => True

/-! ### Steps -/

/-- The same registry, with other times. -/
structure Refreshed (server next : TrackerServer) : Prop where
  connections : next.connections = server.connections
  registrants : next.registrants = server.registrants
  peers : ∀ id : Bytes, (next.peers[id]?).map PeerInfo.registration =
    (server.peers[id]?).map PeerInfo.registration

theorem refreshed_self (server : TrackerServer) : server.Refreshed server :=
  ⟨rfl, rfl, fun _ => rfl⟩

theorem refreshed_list (server : TrackerServer) (now : Nat) :
    server.Refreshed (server.list now) := by
  refine ⟨rfl, rfl, fun id => ?_⟩
  show (Std.ExtTreeMap.map _ server.peers)[id]?.map _ = _
  rw [Std.ExtTreeMap.getElem?_map, Option.map_map]
  rfl

theorem refreshed_ping (server : TrackerServer) (connection : Connection) (now : Nat) :
    server.Refreshed (server.ping connection now) := by
  unfold ping
  split
  · exact server.refreshed_self
  · split
    · exact server.refreshed_self
    · rename_i info found
      refine ⟨rfl, rfl, fun id => ?_⟩
      show ((server.peers.insert _ _)[id]?).map _ = _
      rw [Std.ExtTreeMap.getElem?_insert]
      split
      · rename_i same
        rw [← Std.LawfulEqCmp.compare_eq_iff_eq.mp same, found]
        rfl
      · rfl

/-- What the handling of a line does to the registry. -/
theorem handleLine_cases (server : TrackerServer) (conn : Nat) (connection : Connection) (now : Nat)
    (line : Bytes) :
    (∃ id udpPort tcpPort, registration line = some (id, udpPort, tcpPort) ∧
        (server.handleLine conn connection now line).1 =
          server.register conn connection now id udpPort tcpPort) ∨
      registration line = none ∧
        (server.Refreshed (server.handleLine conn connection now line).1 ∨
          (server.handleLine conn connection now line).1 = server.close conn connection) := by
  unfold handleLine registration
  dsimp only
  by_cases empty : line = []
  · rw [if_pos empty, if_neg fun both => both.1 empty]
    exact Or.inr ⟨rfl, Or.inr rfl⟩
  by_cases registers : (extractWord (some line)).1 = ascii "REGISTER"
  · rw [if_neg empty, if_pos registers, if_pos ⟨empty, registers⟩]
    cases valid : registerArguments (extractWord (some line)).2 with
    | none => exact Or.inr ⟨rfl, Or.inl server.refreshed_self⟩
    | some found => exact Or.inl ⟨found.1, found.2.1, found.2.2, rfl, rfl⟩
  · rw [if_neg empty, if_neg registers, if_neg fun both => registers both.2]
    refine Or.inr ⟨rfl, ?_⟩
    split
    · exact Or.inl (server.refreshed_list now)
    · split
      · exact Or.inl (server.refreshed_ping connection now)
      · split
        · exact Or.inr rfl
        · exact Or.inl server.refreshed_self

theorem step_line {server next : TrackerServer} {conn now : Nat} {line : Bytes}
    (taken : server.step (.line conn now line) = some next) :
    IsLine line ∧ ∃ connection, server.connections conn = some connection ∧
      (server.handleLine conn connection now line).1 = next := by
  rw [step] at taken
  split at taken
  · rename_i isLine
    exact ⟨isLine, Option.map_eq_some_iff.mp taken⟩
  · cases taken

/-- No entry has an empty id. -/
def Named (server : TrackerServer) : Prop := server.peers[([] : Bytes)]? = none

theorem ne_nil_of_registration {line id : Bytes} {udpPort tcpPort : Nat}
    (registers : registration line = some (id, udpPort, tcpPort)) : id ≠ [] := by
  unfold registration registerArguments at registers
  dsimp only at registers
  split at registers
  · split at registers
    · cases registers
    · rename_i valid
      cases registers
      exact fun empty => valid (Or.inl empty)
  · cases registers

section Steps

variable {server next : TrackerServer} {conn : Nat} {connection : Connection}

theorem Refreshed.named (refreshed : server.Refreshed next) (named : server.Named) :
    next.Named := by
  have same := refreshed.peers []
  rw [show server.peers[([] : Bytes)]? = none from named, Option.map_none,
    Option.map_eq_none_iff] at same
  exact same

theorem Refreshed.owned (refreshed : server.Refreshed next) (owned : server.Owned) :
    next.Owned := by
  constructor
  · intro id info found
    have same := refreshed.peers id
    rw [found, Option.map_some] at same
    obtain ⟨old, before, data⟩ := Option.map_eq_some_iff.mp same.symm
    obtain ⟨conn, connection, isOpen, latest, last, holds⟩ := owned.entry id old before
    refine ⟨conn, connection, ?_, latest, ?_, data.symm.trans holds⟩
    · rw [refreshed.connections]
      exact isOpen
    · rw [refreshed.registrants]
      exact last
  · intro conn connection isOpen some present
    rw [refreshed.connections] at isOpen
    rw [refreshed.registrants]
    refine owned.own conn connection isOpen some fun missing => present ?_
    have same := refreshed.peers connection.peerId
    rw [missing, Option.map_none, Option.map_eq_none_iff] at same
    exact same

/-- A registry of which entries are taken away, while no other changes. -/
theorem Owned.of_subset (owned : server.Owned)
    (fewer : ∀ (id : Bytes) info, next.peers[id]? = some info → server.peers[id]? = some info)
    (registrants : next.registrants = server.registrants)
    (left : ∀ other info otherConnection, server.connections other = some otherConnection →
      next.peers[otherConnection.peerId]? = some info → next.connections other =
        some otherConnection)
    (only : ∀ other otherConnection, next.connections other = some otherConnection →
      otherConnection.peerId ≠ [] → server.connections other = some otherConnection) :
    next.Owned := by
  constructor
  · intro id info found
    obtain ⟨other, otherConnection, isOpen, rfl, last, holds⟩ :=
      owned.entry id info (fewer id info found)
    refine ⟨other, otherConnection, left other info otherConnection isOpen found, rfl, ?_, holds⟩
    rw [registrants]
    exact last
  · intro other otherConnection isOpen some present
    rw [registrants]
    refine owned.own other otherConnection (only other otherConnection isOpen some) some ?_
    obtain ⟨info, found⟩ := Option.ne_none_iff_exists'.mp present
    rw [fewer _ info found]
    nofun

theorem getElem?_close (server : TrackerServer) (conn : Nat) (connection : Connection)
    (id : Bytes) :
    (server.close conn connection).peers[id]? =
      if connection.peerId ≠ [] ∧ connection.peerId = id then none else server.peers[id]? := by
  unfold close
  dsimp only
  split
  · rename_i empty
    rw [if_neg fun both => both.1 empty]
    rfl
  · rename_i some
    show (server.peers.erase connection.peerId)[id]? = _
    rw [Std.ExtTreeMap.getElem?_erase]
    by_cases same : connection.peerId = id
    · rw [if_pos (Std.LawfulEqCmp.compare_eq_iff_eq.mpr same), if_pos ⟨some, same⟩]
    · rw [if_neg fun equal => same (Std.LawfulEqCmp.compare_eq_iff_eq.mp equal),
        if_neg fun both => same both.2]

theorem connections_close (server : TrackerServer) (conn : Nat) (connection : Connection) :
    (server.close conn connection).connections = Function.update server.connections conn none := by
  unfold close
  dsimp only
  split <;> rfl

theorem registrants_close (server : TrackerServer) (conn : Nat) (connection : Connection) :
    (server.close conn connection).registrants = server.registrants := by
  unfold close
  dsimp only
  split <;> rfl

theorem Owned.close (owned : server.Owned) (named : server.Named)
    (isOpen : server.connections conn = some connection) :
    (server.close conn connection).Owned := by
  refine owned.of_subset (fun id info found => ?_) (server.registrants_close conn connection)
    (fun other info otherConnection otherOpen found => ?_)
    (fun other otherConnection otherOpen _ => ?_)
  · rw [getElem?_close] at found
    split at found
    · cases found
    · exact found
  · rw [connections_close]
    refine (Function.update_of_ne ?_ _ _).trans otherOpen
    rintro rfl
    cases isOpen.symm.trans otherOpen
    rw [getElem?_close] at found
    split at found
    · cases found
    · rename_i outside
      by_cases empty : connection.peerId = []
      · rw [empty, show server.peers[([] : Bytes)]? = none from named] at found
        cases found
      · exact outside ⟨empty, rfl⟩
  · rw [connections_close] at otherOpen
    by_cases same : other = conn
    · rw [same, Function.update_self] at otherOpen
      cases otherOpen
    · rw [Function.update_of_ne same] at otherOpen
      exact otherOpen

theorem Owned.cleanup (owned : server.Owned) (now : Nat) :
    (server.cleanupStalePeers now).Owned := by
  refine owned.of_subset (fun id info found => ?_) rfl (fun _ _ _ otherOpen _ => otherOpen)
    (fun _ _ otherOpen _ => otherOpen)
  have found : (server.peers.filter fun _ info => ¬ server.peerTimeout < now - info.lastSeen)[id]? =
      some info := found
  rw [Std.ExtTreeMap.getElem?_filter', Option.filter_eq_some_iff] at found
  exact found.1

theorem Owned.accept (owned : server.Owned) (free : server.connections conn = none)
    (endpoint : Endpoint) :
    (server.setConnection conn (some { endpoint := endpoint })).Owned := by
  refine owned.of_subset (fun _ _ found => found) rfl
    (fun other info otherConnection otherOpen _ => ?_)
    (fun other otherConnection otherOpen some => ?_)
  · refine (Function.update_of_ne ?_ _ _).trans otherOpen
    rintro rfl
    cases free.symm.trans otherOpen
  · by_cases same : other = conn
    · subst same
      have otherOpen := (Function.update_self ..).symm.trans otherOpen
      cases otherOpen
      exact absurd rfl some
    · exact (Function.update_of_ne same _ _).symm.trans otherOpen

/-- What a connection registers is its own, and it is the only one that could be left without an
owner or be taken away by another connection. -/
theorem owned_register_iff (owned : server.Owned) (named : server.Named)
    (isOpen : server.connections conn = some connection) (now : Nat) {id : Bytes} (some : id ≠ [])
    (udpPort tcpPort : Nat) :
    (server.register conn connection now id udpPort tcpPort).Owned ↔
      (connection.peerId = id ∨ connection.peerId = [] ∨
          server.peers[connection.peerId]? = none) ∧
        ∀ other otherConnection, other ≠ conn →
          server.connections other = Option.some otherConnection → otherConnection.peerId ≠ id := by
  let next := server.register conn connection now id udpPort tcpPort
  have peers (key : Bytes) (differs : key ≠ id) : next.peers[key]? = server.peers[key]? := by
    show (server.peers.insert id _)[key]? = _
    rw [Std.ExtTreeMap.getElem?_insert,
      if_neg fun equal => differs (Std.LawfulEqCmp.compare_eq_iff_eq.mp equal).symm]
  have present : next.peers[id]? ≠ none := by
    show (server.peers.insert id _)[id]? ≠ none
    rw [Std.ExtTreeMap.getElem?_insert_self]
    nofun
  have registrants (key : Bytes) (differs : key ≠ id) :
      next.registrants key = server.registrants key := Function.update_of_ne differs _ _
  have registrant : next.registrants id = Option.some conn := Function.update_self ..
  have connections (other : Nat) (differs : other ≠ conn) :
      next.connections other = server.connections other := Function.update_of_ne differs _ _
  have own : next.connections conn =
      Option.some { connection with peerId := id, ports := (udpPort, tcpPort) } :=
    Function.update_self ..
  show next.Owned ↔ _
  constructor
  · intro after
    constructor
    · -- The former entry would have no owner: it was this connection's, which now has another id.
      by_contra former
      obtain ⟨differs, former⟩ := not_or.mp former
      obtain ⟨nonempty, held⟩ := not_or.mp former
      obtain ⟨info, found⟩ := Option.ne_none_iff_exists'.mp held
      have mine := owned.own conn connection isOpen nonempty held
      obtain ⟨other, otherConnection, otherOpen, latest, last, _⟩ :=
        after.entry connection.peerId info ((peers _ differs).trans found)
      rw [registrants _ differs, mine] at last
      cases last
      rw [own] at otherOpen
      cases otherOpen
      exact differs latest.symm
    · intro other otherConnection differs otherOpen latest
      have last := after.own other otherConnection ((connections other differs).trans otherOpen)
        (latest ▸ some) (latest ▸ present)
      rw [latest, registrant] at last
      cases last
      exact differs rfl
  · rintro ⟨former, exclusive⟩
    constructor
    · intro key info found
      by_cases same : key = id
      · subst same
        refine ⟨conn, _, own, rfl, registrant, ?_⟩
        have entry : next.peers[key]? = _ := Std.ExtTreeMap.getElem?_insert_self
        cases entry.symm.trans found
        rfl
      · have before := (peers key same).symm.trans found
        obtain ⟨other, otherConnection, otherOpen, latest, last, holds⟩ :=
          owned.entry key info before
        refine ⟨other, otherConnection, ?_, latest, (registrants key same).trans last, holds⟩
        refine (connections other ?_).trans otherOpen
        rintro rfl
        cases isOpen.symm.trans otherOpen
        rw [← latest] at same before
        obtain renewed | empty | missing := former
        · exact same renewed
        · rw [empty, show server.peers[([] : Bytes)]? = none from named] at before
          cases before
        · rw [missing] at before
          cases before
    · intro other otherConnection otherOpen nonempty held
      by_cases same : other = conn
      · subst same
        cases own.symm.trans otherOpen
        exact registrant
      · have before := (connections other same).symm.trans otherOpen
        have differs := exclusive other otherConnection same before
        rw [peers _ differs] at held
        rw [registrants _ differs]
        exact owned.own other otherConnection before nonempty held

/-- One step keeps the registry owned if and only if it is not one of the two kinds. -/
theorem owned_step_iff (owned : server.Owned) (named : server.Named) {action : TrackerAction}
    (taken : server.step action = some next) : next.Owned ↔ server.Exclusive action := by
  cases action with
  | accept conn endpoint =>
    rw [step] at taken
    split at taken
    · cases taken
    · rename_i free
      cases taken
      exact iff_of_true (owned.accept free endpoint) trivial
  | line conn now line =>
    obtain ⟨_, connection, isOpen, rfl⟩ := step_line taken
    obtain ⟨id, udpPort, tcpPort, registers, same⟩ | ⟨none, refreshed | ends⟩ :=
      server.handleLine_cases conn connection now line
    · rw [same, owned_register_iff owned named isOpen now (ne_nil_of_registration registers)]
      constructor
      · intro both connection' isOpen' id' udpPort' tcpPort' registers'
        cases isOpen.symm.trans isOpen'
        cases registers.symm.trans registers'
        exact both
      · intro exclusive
        exact exclusive connection isOpen id udpPort tcpPort registers
    · refine iff_of_true (refreshed.owned owned) fun _ _ _ _ _ registers => ?_
      cases none.symm.trans registers
    · rw [ends]
      refine iff_of_true (owned.close named isOpen) fun _ _ _ _ _ registers => ?_
      cases none.symm.trans registers
  | disconnect conn =>
    obtain ⟨connection, isOpen, rfl⟩ := Option.map_eq_some_iff.mp taken
    exact iff_of_true (owned.close named isOpen) trivial
  | cleanup now =>
    cases taken
    exact iff_of_true (owned.cleanup now) trivial

theorem Named.step (named : server.Named) {action : TrackerAction}
    (taken : server.step action = some next) : next.Named := by
  cases action with
  | accept conn endpoint =>
    rw [TrackerServer.step] at taken
    split at taken
    · cases taken
    · cases taken
      exact named
  | line conn now line =>
    obtain ⟨_, connection, isOpen, rfl⟩ := step_line taken
    obtain ⟨id, udpPort, tcpPort, registers, same⟩ | ⟨_, refreshed | ends⟩ :=
      server.handleLine_cases conn connection now line
    · rw [same]
      show (server.peers.insert id _)[([] : Bytes)]? = none
      rw [Std.ExtTreeMap.getElem?_insert, if_neg]
      · exact named
      · exact fun equal =>
          ne_nil_of_registration registers (Std.LawfulEqCmp.compare_eq_iff_eq.mp equal)
    · exact refreshed.named named
    · rw [ends, Named, getElem?_close, show server.peers[([] : Bytes)]? = none from named, ite_self]
  | disconnect conn =>
    obtain ⟨connection, isOpen, rfl⟩ := Option.map_eq_some_iff.mp taken
    rw [Named, getElem?_close, show server.peers[([] : Bytes)]? = none from named, ite_self]
  | cleanup now =>
    cases taken
    show (server.peers.filter _)[([] : Bytes)]? = none
    rw [Std.ExtTreeMap.getElem?_filter', show server.peers[([] : Bytes)]? = none from named]
    rfl

end Steps

theorem owned_new (timeout : Nat) : ({ peerTimeout := timeout } : TrackerServer).Owned := by
  constructor
  · intro id info found
    have none : (∅ : Std.ExtTreeMap Bytes PeerInfo)[id]? = none := Std.ExtTreeMap.getElem?_empty
    cases none.symm.trans found
  · intro conn connection isOpen
    cases isOpen

/-- The registry is owned throughout a run if and only if, throughout the run, no connection
registers under a second id while it has an entry or under the latest id of another one. -/
theorem owned_throughout_iff {timeout : Nat} {actions : List TrackerAction} {final : TrackerServer}
    (run : after step { peerTimeout := timeout } actions = some final) :
    (∀ front server, front <+: actions → after step { peerTimeout := timeout } front = some server →
        server.Owned) ↔
      Heeds step Exclusive { peerTimeout := timeout } actions :=
  forall_front_iff_heeds (fun _ _ _ named taken => Named.step named taken)
    (fun _ _ _ named owned taken => owned_step_iff owned named taken)
    (show Named { peerTimeout := timeout } from Std.ExtTreeMap.getElem?_empty)
    (owned_new timeout) run

/-- A client on the same host. -/
def localClient : Connection := { endpoint := ⟨(127, 0, 0, 1), 40000⟩ }

/-- Two clients are connected. -/
def twoClients : TrackerServer :=
  (({} : TrackerServer).setConnection 0 (some localClient)).setConnection 1 (some localClient)

theorem connections_twoClients {conn : Nat} {connection : Connection}
    (isOpen : twoClients.connections conn = some connection) : connection = localClient := by
  unfold twoClients setConnection at isOpen
  dsimp only at isOpen
  rw [Function.update_apply, Function.update_apply] at isOpen
  split at isOpen
  · cases isOpen
    rfl
  · split at isOpen
    · cases isOpen
      rfl
    · cases isOpen

theorem registration_alice :
    registration (ascii "REGISTER alice 8001") = some (ascii "alice", 8001, 0) := by decide

theorem registration_bob :
    registration (ascii "REGISTER bob 8002") = some (ascii "bob", 8002, 0) := by decide

/-- Two clients register under their own ids, and one leaves. -/
theorem owned_throughout_iff_two :
    let actions : List TrackerAction :=
      [.accept 0 localClient.endpoint, .accept 1 localClient.endpoint,
        .line 0 0 (ascii "REGISTER alice 8001"), .line 1 0 (ascii "REGISTER bob 8002"),
        .disconnect 0]
    (after step {} actions).isSome ∧
      ∀ front server, front <+: actions → after step {} front = some server → server.Owned := by
  refine ⟨rfl, (owned_throughout_iff rfl).mpr ⟨trivial, fun _ first => ?_⟩⟩
  cases first
  refine ⟨trivial, fun _ second => ?_⟩
  cases second
  refine ⟨fun connection isOpen id udpPort tcpPort registers => ?_, fun _ third => ?_⟩
  · cases registration_alice.symm.trans registers
    rw [connections_twoClients isOpen]
    refine ⟨Or.inr (Or.inl rfl), fun other otherConnection _ otherOpen => ?_⟩
    rw [connections_twoClients otherOpen]
    decide
  · cases third
    refine ⟨fun connection isOpen id udpPort tcpPort registers => ?_, fun _ fourth => ?_⟩
    · cases registration_bob.symm.trans registers
      cases isOpen
      refine ⟨Or.inr (Or.inl rfl), fun other otherConnection differs otherOpen => ?_⟩
      by_cases zero : other = 0
      · subst zero
        cases otherOpen
        decide
      · have before := (Function.update_of_ne zero _ _).symm.trans otherOpen
        rw [connections_twoClients before]
        decide
    · cases fourth
      exact ⟨trivial, fun _ _ => trivial⟩

/-- Two clients register under one id: the first to leave would take the entry of the other. -/
theorem not_owned_shared :
    ∃ server, after step {}
        [.accept 0 localClient.endpoint, .accept 1 localClient.endpoint,
          .line 0 0 (ascii "REGISTER alice 8001"), .line 1 0 (ascii "REGISTER alice 8001")] =
        some server ∧ ¬ server.Owned := by
  refine ⟨_, rfl, fun owned => ?_⟩
  have last := owned.own 0 { localClient with peerId := ascii "alice", ports := (8001, 0) } rfl
    (by decide) ?_
  · cases last
  · intro missing
    have present := Std.ExtTreeMap.getElem?_insert_self.symm.trans missing
    cases present

end TrackerServer

end AsyncNet.P2p
