/-
This file is about a client of the tracker and the replies that it reads. While the replies are read
entirely, a call finds nothing but the reply to its own command, the client has what the server has
registered, and a call that waits is answered. Whether a reply is read entirely depends on the
registry: the number that announces the peers counts the one that asks, and only where it is
registered does the number take in the line that ends the reply.
-/

import AsyncNet.P2p.TrackerOwnership
import AsyncNet.P2p.TrackerText

namespace AsyncNet.P2p

open Http Library

/-! ### The registry -/

theorem extractUint16_lt (stream : Stream) : (extractUint16 stream).1 < 2 ^ 16 := by
  have bound (digits rest : Bytes) (negative : Prop) [Decidable negative] :
      (if digits = [] then (0, none)
        else if 2 ^ 16 ≤ digitsValue digits then (2 ^ 16 - 1, none)
        else (if negative then (2 ^ 16 - digitsValue digits) % 2 ^ 16 else digitsValue digits,
          some rest) : Nat × Stream).1 < 2 ^ 16 := by
    split_ifs
    · exact Nat.two_pow_pos 16
    · exact Nat.sub_lt (Nat.two_pow_pos 16) Nat.one_pos
    · exact Nat.mod_lt _ (Nat.two_pow_pos 16)
    · omega
  cases stream with
  | none => exact Nat.two_pow_pos 16
  | some text => exact bound _ _ _

/-- What a line registers. -/
theorem registration_spec {line id : Bytes} {udpPort tcpPort : Nat} (isLine : line.length < 1024)
    (registers : registration line = some (id, udpPort, tcpPort)) :
    IsWord id ∧ id.length + 8 < 1024 ∧ udpPort < 2 ^ 16 := by
  have some := TrackerServer.ne_nil_of_registration registers
  unfold registration registerArguments at registers
  dsimp only at registers
  split at registers
  · rename_i marked
    split at registers
    · cases registers
    · obtain failed | ⟨cmd, rest, first, _, fits⟩ := extractWord_cases line
      · rw [failed] at marked
        exact absurd marked.2 (by decide)
      · rw [first] at registers marked
        have length : cmd.length = 8 := congrArg List.length marked.2
        dsimp only at registers
        obtain failed | ⟨word, last, second, isWord, part⟩ := extractWord_cases rest
        · rw [failed] at registers
          cases registers
          exact absurd rfl some
        · rw [second] at registers
          cases registers
          have short : word.length + 8 < 1024 := by omega
          exact ⟨isWord, short, extractUint16_lt _⟩
  · cases registers

namespace TrackerServer

/-- Every entry is under its id and holds what can be registered, and so does every connection. -/
structure WellFormed (server : TrackerServer) : Prop where
  entry : ∀ (id : Bytes) (info : PeerInfo), server.peers[id]? = some info →
    info.id = id ∧ info.WellFormed
  latest : ∀ conn connection, server.connections conn = some connection → connection.peerId ≠ [] →
    IsWord connection.peerId ∧ connection.peerId.length + 8 < 1024

theorem wellFormed_new (timeout : Nat) :
    ({ peerTimeout := timeout } : TrackerServer).WellFormed := by
  constructor
  · intro id info found
    have none : (∅ : Std.ExtTreeMap Bytes PeerInfo)[id]? = none := Std.ExtTreeMap.getElem?_empty
    cases none.symm.trans found
  · intro conn connection isOpen
    cases isOpen

section Steps

variable {server next : TrackerServer} {conn : Nat} {connection : Connection}

theorem wellFormed_of_registration {info other : PeerInfo}
    (same : info.registration = other.registration) (wellFormed : info.WellFormed) :
    other.WellFormed := by
  obtain ⟨id, address, udpPort, _⟩ : info.id = other.id ∧ info.publicAddress = other.publicAddress ∧
      info.udpPort = other.udpPort ∧ info.tcpPort = other.tcpPort := by
    simpa only [PeerInfo.registration, Prod.mk.injEq] using same
  exact ⟨id ▸ wellFormed.id, id ▸ wellFormed.short, address ▸ wellFormed.address,
    udpPort ▸ wellFormed.udpPort⟩

theorem Refreshed.wellFormed (refreshed : server.Refreshed next) (wellFormed : server.WellFormed) :
    next.WellFormed := by
  constructor
  · intro id info found
    have same := refreshed.peers id
    rw [found, Option.map_some] at same
    obtain ⟨old, before, data⟩ := Option.map_eq_some_iff.mp same.symm
    obtain ⟨key, valid⟩ := wellFormed.entry id old before
    exact ⟨(congrArg Prod.fst data).symm.trans key, wellFormed_of_registration data valid⟩
  · intro conn connection isOpen
    rw [refreshed.connections] at isOpen
    exact wellFormed.latest conn connection isOpen

theorem WellFormed.close (wellFormed : server.WellFormed) (conn : Nat) (connection : Connection) :
    (server.close conn connection).WellFormed := by
  constructor
  · intro id info found
    rw [getElem?_close] at found
    split at found
    · cases found
    · exact wellFormed.entry id info found
  · intro other otherConnection isOpen
    rw [connections_close, Function.update_apply] at isOpen
    split at isOpen
    · cases isOpen
    · exact wellFormed.latest other otherConnection isOpen

theorem WellFormed.register (wellFormed : server.WellFormed) (conn : Nat) (connection : Connection)
    (now : Nat) {id : Bytes} {udpPort : Nat} (tcpPort : Nat)
    (valid : IsWord id ∧ id.length + 8 < 1024 ∧ udpPort < 2 ^ 16) :
    (server.register conn connection now id udpPort tcpPort).WellFormed := by
  constructor
  · intro key info found
    have found : (server.peers.insert id _)[key]? = some info := found
    rw [Std.ExtTreeMap.getElem?_insert] at found
    split at found
    · rename_i same
      cases found
      exact ⟨Std.LawfulEqCmp.compare_eq_iff_eq.mp same,
        ⟨valid.1, valid.2.1, ⟨connection.endpoint, rfl⟩, valid.2.2⟩⟩
    · exact wellFormed.entry key info found
  · intro other otherConnection isOpen nonempty
    have isOpen : Function.update server.connections conn _ other = some otherConnection := isOpen
    rw [Function.update_apply] at isOpen
    split at isOpen
    · cases isOpen
      exact ⟨valid.1, valid.2.1⟩
    · exact wellFormed.latest other otherConnection isOpen nonempty

theorem WellFormed.handleLine (wellFormed : server.WellFormed) (conn : Nat)
    (connection : Connection) (now : Nat) {line : Bytes} (isLine : line.length < 1024) :
    (server.handleLine conn connection now line).1.WellFormed := by
  obtain ⟨id, udpPort, tcpPort, registers, same⟩ | ⟨_, refreshed | ends⟩ :=
    server.handleLine_cases conn connection now line
  · rw [same]
    exact wellFormed.register conn connection now tcpPort (registration_spec isLine registers)
  · exact refreshed.wellFormed wellFormed
  · rw [ends]
    exact wellFormed.close conn connection

theorem WellFormed.step (wellFormed : server.WellFormed) {action : TrackerAction}
    (taken : server.step action = some next) : next.WellFormed := by
  cases action with
  | accept conn endpoint =>
    rw [TrackerServer.step] at taken
    split at taken
    · cases taken
    · cases taken
      refine ⟨wellFormed.entry, fun other otherConnection isOpen nonempty => ?_⟩
      have isOpen : Function.update server.connections conn _ other = some otherConnection := isOpen
      rw [Function.update_apply] at isOpen
      split at isOpen
      · cases isOpen
        exact absurd rfl nonempty
      · exact wellFormed.latest other otherConnection isOpen nonempty
  | line conn now line =>
    obtain ⟨isLine, connection, isOpen, rfl⟩ := step_line taken
    exact wellFormed.handleLine conn connection now isLine.1
  | disconnect conn =>
    obtain ⟨connection, isOpen, rfl⟩ := Option.map_eq_some_iff.mp taken
    exact wellFormed.close conn connection
  | cleanup now =>
    cases taken
    refine ⟨fun id info found => ?_, wellFormed.latest⟩
    have found : (server.peers.filter _)[id]? = some info := found
    rw [Std.ExtTreeMap.getElem?_filter', Option.filter_eq_some_iff] at found
    exact wellFormed.entry id info found.1

/-- A step for another connection leaves this one as it is. -/
theorem connections_of_not_concerns {action : TrackerAction}
    (taken : server.step action = some next) (other : ¬ action.Concerns conn) :
    next.connections conn = server.connections conn := by
  cases action with
  | accept conn' endpoint =>
    rw [TrackerServer.step] at taken
    split at taken
    · cases taken
    · cases taken
      exact Function.update_of_ne (Ne.symm other) _ _
  | line conn' now line =>
    obtain ⟨_, connection, isOpen, rfl⟩ := step_line taken
    obtain ⟨id, udpPort, tcpPort, _, same⟩ | ⟨_, refreshed | ends⟩ :=
      server.handleLine_cases conn' connection now line
    · rw [same]
      exact Function.update_of_ne (Ne.symm other) _ _
    · rw [refreshed.connections]
    · rw [ends, connections_close]
      exact Function.update_of_ne (Ne.symm other) _ _
  | disconnect conn' =>
    obtain ⟨connection, isOpen, rfl⟩ := Option.map_eq_some_iff.mp taken
    rw [connections_close]
    exact Function.update_of_ne (Ne.symm other) _ _
  | cleanup now =>
    cases taken
    rfl

end Steps

/-- The peers of a registry have what can be registered, and different ids. -/
theorem WellFormed.registered {server : TrackerServer} (wellFormed : server.WellFormed) :
    (∀ info ∈ server.peers.toList.map (·.2), info.WellFormed) ∧
      ((server.peers.toList.map (·.2)).map (·.id)).Nodup := by
  have entry : ∀ found ∈ server.peers.toList, found.2.id = found.1 ∧ found.2.WellFormed := by
    intro found member
    exact wellFormed.entry found.1 found.2
      (Std.ExtTreeMap.mem_toList_iff_getElem?_eq_some.mp member)
  constructor
  · intro info member
    obtain ⟨found, listed, rfl⟩ := List.mem_map.mp member
    exact (entry found listed).2
  · have keys : (server.peers.toList.map (·.2)).map (·.id) = server.peers.toList.map Prod.fst := by
      rw [List.map_map]
      exact List.map_congr_left fun found member => (entry found member).1
    rw [keys, Std.ExtTreeMap.map_fst_toList_eq_keys]
    exact Std.ExtTreeMap.nodup_keys

/-- The times of the peers are not told. -/
theorem listResponse_list (server : TrackerServer) (now : Nat) (peerId : Bytes) :
    listResponse ((server.list now).peers.toList.map (·.2)) peerId =
      listResponse (server.peers.toList.map (·.2)) peerId := by
  have peers : (server.list now).peers.toList.map (·.2) =
      (server.peers.toList.map (·.2)).map fun info => { info with lastSeen := now } := by
    show (Std.ExtTreeMap.map _ server.peers).toList.map _ = _
    rw [Std.ExtTreeMap.toList_map, List.map_map, List.map_map]
    rfl
  unfold listResponse
  rw [peers, List.length_map, List.filter_map, List.flatMap_map]
  rfl

end TrackerServer

/-! ### Calls -/

/-- The line of a command. -/
def ClientCall.line (myId : Bytes) : ClientCall → Bytes
  | .listPeers => ascii "LIST"
  | .ping => ascii "PING " ++ myId

/-- What a call is answered with. -/
def ClientCall.answer (myId : Bytes) (peers : List PeerInfo) : ClientCall → Bytes
  | .listPeers => writeLine (TrackerServer.listResponse peers myId)
  | .ping => writeLine (ascii "PONG")

/-- What a call is for. -/
def ClientCall.expected (myId : Bytes) (peers : List PeerInfo) : ClientCall → CallResult
  | .listPeers => .peers ((peers.filter (·.id ≠ myId)).map PeerInfo.listed)
  | .ping => .alive true

theorem readLine_command {myId : Bytes} (isWord : IsWord myId) (short : myId.length + 8 < 1024)
    (call : ClientCall) : readLine 1024 [] (call.command myId) = some (call.line myId, []) := by
  cases call with
  | listPeers =>
    exact show readLine 1024 [] (writeLine (ascii "LIST")) = some (ascii "LIST", []) by decide
  | ping =>
    have mark : (ascii "PING ").length = 5 := rfl
    have single : (10 : UInt8) ∉ ascii "PING " ++ myId := by
      intro member
      obtain member | member := List.mem_append.mp member
      · exact absurd member (by decide)
      · exact not_mem_of_isWord isWord member
    show readLine 1024 [] (ascii "PING " ++ myId ++ [10]) = _
    rw [readLine_append [] (by rw [List.length_nil, List.length_append, mark]; omega) single,
      List.nil_append, dropCr_of_isWord isWord]
    rfl

/-- The server answers a command, and the connection stays open under its id. -/
theorem handleLine_command (server : TrackerServer) (conn : Nat) (connection : Connection)
    (now : Nat) (call : ClientCall) :
    (server.handleLine conn connection now (call.line connection.peerId)).2 =
        call.answer connection.peerId (server.peers.toList.map (·.2)) ∧
      (server.handleLine conn connection now (call.line connection.peerId)).1.connections =
        server.connections := by
  cases call with
  | listPeers =>
    refine ⟨?_, rfl⟩
    exact congrArg writeLine (server.listResponse_list now connection.peerId)
  | ping =>
    have first : extractWord (some (ascii "PING " ++ connection.peerId)) =
        (ascii "PING", some (ascii " " ++ connection.peerId)) := by
      have isWord : IsWord (ascii "PING") := isWord_of_all (by decide) (by decide)
      exact extractWord_append_space isWord connection.peerId
    have handled : server.handleLine conn connection now (ascii "PING " ++ connection.peerId) =
        (server.ping connection now, writeLine (ascii "PONG")) := by
      unfold TrackerServer.handleLine
      rw [first]
      rfl
    show (server.handleLine conn connection now (ascii "PING " ++ connection.peerId)).2 = _ ∧
      (server.handleLine conn connection now (ascii "PING " ++ connection.peerId)).1.connections = _
    rw [handled]
    exact ⟨rfl, (server.refreshed_ping connection now).connections⟩

/-- What a call reads of its answer and returns. The reply is read entirely, and the call returns
what it is for, if and only if the caller is registered and the number of peers is an `int`. -/
theorem reply_answer {peers : List PeerInfo} (wellFormed : ∀ info ∈ peers, info.WellFormed)
    (distinct : (peers.map (·.id)).Nodup) (myId : Bytes) (call : ClientCall) :
    ∃ result left, call.reply (call.answer myId peers) = some (result, left) ∧
      ((left = [] ∧ result = call.expected myId peers) ↔
        (call = .listPeers → myId ∈ peers.map (·.id) ∧ peers.length < 2 ^ 31)) := by
  cases call with
  | listPeers =>
    by_cases small : peers.length < 2 ^ 31
    · refine ⟨_, _, listPeersReply_listResponse wellFormed distinct small myId, ?_⟩
      by_cases present : myId ∈ peers.map (·.id)
      · rw [if_pos present]
        exact iff_of_true ⟨rfl, rfl⟩ fun _ => ⟨present, small⟩
      · rw [if_neg present]
        exact iff_of_false (fun both => absurd both.1 (List.cons_ne_nil _ _))
          fun meets => present (meets rfl).1
    · obtain ⟨result, left, read, short⟩ := listPeersReply_large peers.length
        ((peers.filter (·.id ≠ myId)).flatMap (fun info => TrackerServer.peerLine info ++ [10]) ++
          [10])
        (by omega)
      refine ⟨result, left, ?_, iff_of_false (fun both => ?_) fun meets => small (meets rfl).2⟩
      · show listPeersReply (writeLine (TrackerServer.listResponse peers myId)) = _
        rw [writeLine_listResponse, read]
      · -- At least `2 ^ 31 - 1` peers are expected.
        have counted := length_filter_present distinct myId
        have some : (peers.filter (·.id ≠ myId)).map PeerInfo.listed ≠ [] := by
          intro empty
          rw [List.map_eq_nil_iff] at empty
          rw [empty, List.length_nil] at counted
          split at counted <;> omega
        obtain rfl | rfl := short
        · cases both.2
        · exact some (CallResult.peers.inj both.2).symm
  | ping =>
    have read : pingReply (writeLine (ascii "PONG")) = some (.alive true, []) := by decide
    exact ⟨.alive true, [], read, iff_of_true ⟨rfl, rfl⟩ nofun⟩

/-! ### Sessions -/

/-- The call has read what was written in reply to its command, it has left nothing, and it has
returned what it is for. -/
def Exchange.Agrees (myId : Bytes) (exchange : Exchange) : Prop :=
  ∃ served, exchange.served = some served ∧ exchange.read = served.reply ∧ exchange.left = [] ∧
    exchange.result = exchange.call.expected myId served.peers

namespace Session

/-- Every call that has returned agrees with the server, and the one that has not is going to be
handled or to return. -/
structure Agreement (session : Session) : Prop where
  exchanges : ∀ exchange ∈ session.exchanges, exchange.Agrees session.myId
  handled : session.call ≠ none → session.served = none → ∀ now, session.serve now ≠ none
  returns : session.call ≠ none → session.served ≠ none → session.finish ≠ none

/-- A `list_peers` that returns was handled while the caller was registered, and while the number of
the peers was an `int`. -/
def CallerListed (session : Session) : SessionAction → Prop
  | .finish =>
      session.call = some .listPeers → ∀ served, session.served = some served →
        session.myId ∈ served.peers.map (·.id) ∧ served.peers.length < 2 ^ 31
  | _ => True

/-- Between the client and the server there is nothing but the command of the call that has not
returned, or the reply to it. -/
structure Synchronised (session : Session) : Prop where
  isWord : IsWord session.myId
  short : session.myId.length + 8 < 1024
  connected : ∃ connection, session.server.connections session.conn = some connection ∧
    connection.peerId = session.myId
  idle : session.call = none → session.toServer = [] ∧ session.toClient = []
  asked : ∀ call, session.call = some call → session.served = none →
    session.toServer = call.command session.myId ∧ session.toClient = []
  answered : ∀ call served, session.call = some call → session.served = some served →
    session.toServer = [] ∧ session.toClient = served.reply ∧
      served.reply = call.answer session.myId served.peers ∧
      (∀ info ∈ served.peers, info.WellFormed) ∧ (served.peers.map (·.id)).Nodup

section Steps

variable {session next : Session}

theorem serve_eq_some {now : Nat} (taken : session.serve now = some next) :
    ∃ connection line toServer, session.server.connections session.conn = some connection ∧
      readLine 1024 [] session.toServer = some (line, toServer) ∧
      next =
        let handled := session.server.handleLine session.conn connection now line
        { session with
          server := handled.1, toServer := toServer, toClient := session.toClient ++ handled.2,
          served := some ⟨session.registered, handled.2⟩ } := by
  unfold serve at taken
  obtain ⟨connection, isOpen, taken⟩ := Option.bind_eq_some_iff.mp taken
  obtain ⟨⟨line, toServer⟩, read, taken⟩ := Option.bind_eq_some_iff.mp taken
  cases taken
  exact ⟨connection, line, toServer, isOpen, read, rfl⟩

theorem finish_eq_some (taken : session.finish = some next) :
    ∃ call result left, session.call = some call ∧
      call.reply session.toClient = some (result, left) ∧
      next = { session with
        toClient := left
        call := none
        exchanges := session.exchanges ++ [⟨call, session.served,
          session.toClient.take (session.toClient.length - left.length), left, result⟩] } := by
  unfold finish at taken
  obtain ⟨call, pending, taken⟩ := Option.bind_eq_some_iff.mp taken
  obtain ⟨⟨result, left⟩, read, taken⟩ := Option.bind_eq_some_iff.mp taken
  cases taken
  exact ⟨call, result, left, pending, read, rfl⟩

/-- Nothing is read where nothing has come. -/
theorem reply_nil (call : ClientCall) : call.reply [] = none := by
  cases call <;> rfl

/-- The server reads the command of the call, and answers it. -/
theorem Synchronised.serve (synchronised : session.Synchronised)
    (wellFormed : session.server.WellFormed) {now : Nat}
    (taken : session.serve now = some next) : next.Synchronised := by
  obtain ⟨connection, line, toServer, isOpen, read, rfl⟩ := serve_eq_some taken
  obtain ⟨same, found, latest⟩ := synchronised.connected
  cases isOpen.symm.trans found
  have waits : ∃ call, session.call = some call ∧ session.served = none := by
    cases pending : session.call with
    | none =>
      rw [(synchronised.idle pending).1] at read
      cases read
    | some call =>
      cases handled : session.served with
      | none => exact ⟨call, rfl, rfl⟩
      | some served =>
        rw [(synchronised.answered call served pending handled).1] at read
        cases read
  obtain ⟨call, pending, unhandled⟩ := waits
  obtain ⟨command, nothing⟩ := synchronised.asked call pending unhandled
  rw [command, readLine_command synchronised.isWord synchronised.short call] at read
  cases read
  obtain ⟨answer, connections⟩ :=
    handleLine_command session.server session.conn connection now call
  rw [latest] at answer connections
  obtain ⟨valid, distinct⟩ := wellFormed.registered
  refine ⟨synchronised.isWord, synchronised.short, ⟨connection, ?_, latest⟩, ?_, ?_, ?_⟩
  · dsimp only
    rw [connections]
    exact isOpen
  · intro none
    cases pending.symm.trans none
  · intro _ _ none
    cases none
  · intro call' served pending' handled
    cases pending.symm.trans pending'
    cases handled
    refine ⟨rfl, ?_, answer, valid, distinct⟩
    dsimp only
    rw [nothing, List.nil_append]

theorem Synchronised.write (synchronised : session.Synchronised) (idle : session.call = none)
    (call : ClientCall) : (session.write call).Synchronised := by
  obtain ⟨noCommand, noReply⟩ := synchronised.idle idle
  refine ⟨synchronised.isWord, synchronised.short, synchronised.connected, ?_, ?_, ?_⟩
  · intro none
    cases none
  · intro call' pending _
    cases pending
    refine ⟨?_, noReply⟩
    show session.toServer ++ _ = _
    rw [noCommand, List.nil_append]
    rfl
  · intro _ _ _ handled
    cases handled

/-- A call returns once its command was handled. Nothing is left, and the call agrees with the
server, if and only if the caller was listed. -/
theorem Synchronised.finish (synchronised : session.Synchronised)
    (taken : session.finish = some next) :
    ∃ exchange, next.exchanges = session.exchanges ++ [exchange] ∧
      (exchange.Agrees session.myId ↔ session.CallerListed .finish) ∧
      (exchange.Agrees session.myId → next.Synchronised) := by
  obtain ⟨call, result, left, pending, read, rfl⟩ := finish_eq_some taken
  refine ⟨_, rfl, ?_⟩
  cases handled : session.served with
  | none =>
    rw [(synchronised.asked call pending handled).2, reply_nil] at read
    cases read
  | some served =>
    obtain ⟨noCommand, come, answer, valid, distinct⟩ :=
      synchronised.answered call served pending handled
    obtain ⟨result', left', read', exactly⟩ := reply_answer valid distinct session.myId call
    rw [come, answer, read'] at read
    cases read
    have agrees : Exchange.Agrees session.myId ⟨call, some served,
        session.toClient.take (session.toClient.length - left.length), left, result⟩ ↔
        left = [] ∧ result = call.expected session.myId served.peers := by
      constructor
      · rintro ⟨_, same, _, empty, right⟩
        cases same
        exact ⟨empty, right⟩
      · rintro ⟨rfl, right⟩
        refine ⟨served, rfl, ?_, rfl, right⟩
        dsimp only
        rw [List.length_nil, Nat.sub_zero, List.take_length, come]
    refine ⟨?_, fun both => ?_⟩
    · rw [agrees, exactly]
      constructor
      · intro listed isList other same
        cases handled.symm.trans same
        cases pending.symm.trans isList
        exact listed rfl
      · intro listed isList
        exact listed (isList ▸ pending) served handled
    · obtain ⟨empty, _⟩ := agrees.mp both
      refine ⟨synchronised.isWord, synchronised.short, synchronised.connected,
        fun _ => ⟨noCommand, empty⟩, ?_, ?_⟩
      · intro _ some
        cases some
      · intro _ _ some
        cases some

/-- While nothing else is under way, a call is handled and returns. -/
theorem Synchronised.agrees (synchronised : session.Synchronised)
    (agree : ∀ exchange ∈ session.exchanges, exchange.Agrees session.myId) :
    session.Agreement := by
  refine ⟨agree, fun pending unhandled now => ?_, fun pending handled => ?_⟩
  · obtain ⟨call, pending⟩ := Option.ne_none_iff_exists'.mp pending
    obtain ⟨connection, isOpen, _⟩ := synchronised.connected
    have read := readLine_command synchronised.isWord synchronised.short call
    rw [← (synchronised.asked call pending unhandled).1] at read
    unfold Session.serve
    rw [isOpen, read]
    exact Option.some_ne_none _
  · obtain ⟨call, pending⟩ := Option.ne_none_iff_exists'.mp pending
    obtain ⟨served, handled⟩ := Option.ne_none_iff_exists'.mp handled
    obtain ⟨_, come, answer, valid, distinct⟩ :=
      synchronised.answered call served pending handled
    obtain ⟨result, left, read, _⟩ := reply_answer valid distinct session.myId call
    rw [← answer, ← come] at read
    unfold Session.finish
    rw [pending]
    show (call.reply session.toClient).bind _ ≠ none
    rw [read]
    exact Option.some_ne_none _

/-- The registry is well-formed, and nothing else is under way while the calls agree. -/
structure Sound (session : Session) : Prop where
  wellFormed : session.server.WellFormed
  synchronised : (∀ exchange ∈ session.exchanges, exchange.Agrees session.myId) →
    session.Synchronised

theorem Sound.serve (sound : session.Sound) {now : Nat} (taken : session.serve now = some next) :
    next.Sound := by
  have stays (agree : ∀ exchange ∈ next.exchanges, exchange.Agrees next.myId) :
      next.Synchronised := by
    refine Synchronised.serve (sound.synchronised ?_) sound.wellFormed taken
    obtain ⟨_, _, _, _, _, rfl⟩ := serve_eq_some taken
    exact agree
  refine ⟨?_, stays⟩
  obtain ⟨connection, line, toServer, isOpen, read, rfl⟩ := serve_eq_some taken
  exact sound.wellFormed.handleLine session.conn connection now
    (length_of_readLine (by decide) read)

theorem Sound.finish (sound : session.Sound) (taken : session.finish = some next) :
    next.Sound := by
  refine ⟨?_, fun agree => ?_⟩
  · obtain ⟨_, _, _, _, _, rfl⟩ := finish_eq_some taken
    exact sound.wellFormed
  · have sameId : next.myId = session.myId := by
      obtain ⟨_, _, _, _, _, rfl⟩ := finish_eq_some taken
      rfl
    rw [sameId] at agree
    have before (exchange : Exchange) (member : exchange ∈ session.exchanges) :
        exchange.Agrees session.myId := by
      obtain ⟨_, _, _, _, _, rfl⟩ := finish_eq_some taken
      exact agree exchange (List.mem_append_left _ member)
    obtain ⟨exchange, grown, _, stays⟩ := (sound.synchronised before).finish taken
    refine stays (agree exchange ?_)
    rw [grown]
    exact List.mem_append_right _ List.mem_cons_self

theorem Sound.step (sound : session.Sound) {action : SessionAction}
    (taken : session.step action = some next) : next.Sound := by
  cases action with
  | call call =>
    rw [Session.step] at taken
    split at taken
    · rename_i idle
      cases taken
      exact ⟨sound.wellFormed, fun agree => (sound.synchronised agree).write idle call⟩
    · cases taken
  | serve now => exact sound.serve taken
  | finish => exact sound.finish taken
  | other action =>
    rw [Session.step] at taken
    split at taken
    · cases taken
    · rename_i other
      obtain ⟨server, moved, rfl⟩ := Option.map_eq_some_iff.mp taken
      refine ⟨sound.wellFormed.step moved, fun agree => ?_⟩
      have before := sound.synchronised agree
      refine ⟨before.isWord, before.short, ?_, before.idle, before.asked, before.answered⟩
      dsimp only
      rw [TrackerServer.connections_of_not_concerns moved other]
      exact before.connected

/-- One step keeps the agreement if and only if it is not the return of a `list_peers` whose caller
was not listed. -/
theorem agreement_step_iff (sound : session.Sound) (agreement : session.Agreement)
    {action : SessionAction} (taken : session.step action = some next) :
    next.Agreement ↔ session.CallerListed action := by
  have stays := (sound.step taken).synchronised
  have synchronised := sound.synchronised agreement.exchanges
  cases action with
  | call call =>
    refine iff_of_true ((stays ?_).agrees ?_) trivial
    all_goals
      rw [Session.step] at taken
      split at taken
      · cases taken
        exact agreement.exchanges
      · cases taken
  | serve now =>
    refine iff_of_true ((stays ?_).agrees ?_) trivial
    all_goals
      obtain ⟨_, _, _, _, _, rfl⟩ := serve_eq_some taken
      exact agreement.exchanges
  | finish =>
    have sameId : next.myId = session.myId := by
      obtain ⟨_, _, _, _, _, rfl⟩ := finish_eq_some taken
      rfl
    obtain ⟨exchange, grown, exactly, _⟩ := synchronised.finish taken
    rw [← exactly]
    constructor
    · intro after
      rw [← sameId]
      refine after.exchanges exchange ?_
      rw [grown]
      exact List.mem_append_right _ List.mem_cons_self
    · intro agrees
      have all : ∀ exchange ∈ next.exchanges, exchange.Agrees next.myId := by
        intro other member
        rw [grown] at member
        rw [sameId]
        obtain former | last := List.mem_append.mp member
        · exact agreement.exchanges other former
        · rw [List.mem_singleton.mp last]
          exact agrees
      exact (stays all).agrees all
  | other action =>
    refine iff_of_true ((stays ?_).agrees ?_) trivial
    all_goals
      rw [Session.step] at taken
      split at taken
      · cases taken
      · obtain ⟨server, moved, rfl⟩ := Option.map_eq_some_iff.mp taken
        exact agreement.exchanges

end Steps

/-- A client that is connected, when it makes no call. -/
def idle (server : TrackerServer) (conn : Nat) (connection : Connection) : Session :=
  { server := server, conn := conn, myId := connection.peerId }

/-- The calls of a connected client agree with the server throughout a run if and only if,
throughout the run, every `list_peers` that returns was handled while its caller was registered,
among fewer than `2 ^ 31` peers. -/
theorem agreement_throughout_iff {timeout : Nat} {before : List TrackerAction}
    {server : TrackerServer}
    (reached : after TrackerServer.step { peerTimeout := timeout } before = some server)
    {conn : Nat} {connection : Connection} (isOpen : server.connections conn = some connection)
    (registered : connection.peerId ≠ []) {actions : List SessionAction} {final : Session}
    (run : after step (idle server conn connection) actions = some final) :
    (∀ front session, front <+: actions →
        after step (idle server conn connection) front = some session → session.Agreement) ↔
      Heeds step CallerListed (idle server conn connection) actions := by
  have wellFormed : server.WellFormed :=
    after_invariant TrackerServer.WellFormed (fun _ _ _ wellFormed taken => wellFormed.step taken)
      (TrackerServer.wellFormed_new timeout) reached
  obtain ⟨isWord, short⟩ := wellFormed.latest conn connection isOpen registered
  have synchronised : (idle server conn connection).Synchronised := by
    refine ⟨isWord, short, ⟨connection, isOpen, rfl⟩, fun _ => ⟨rfl, rfl⟩, ?_, ?_⟩
    · intro _ pending
      cases pending
    · intro _ _ pending
      cases pending
  have none : ∀ exchange ∈ (idle server conn connection).exchanges,
      exchange.Agrees connection.peerId := by
    intro _ member
    cases member
  exact forall_front_iff_heeds (fun _ _ _ sound taken => Sound.step sound taken)
    (fun _ _ _ sound agreement taken => agreement_step_iff sound agreement taken)
    ⟨wellFormed, fun _ => synchronised⟩ (synchronised.agrees none) run

open TrackerServer (localClient)

/-- A client that has registered. -/
def alice : Connection := { localClient with peerId := ascii "alice", ports := (8001, 0) }

/-- Two clients have registered. -/
def aliceAndBob : TrackerServer :=
  (TrackerServer.twoClients.register 0 localClient 0 (ascii "alice") 8001 0).register 1
    localClient 0 (ascii "bob") 8002 0

/-- A client asks for the peers, with a removal of stale ones in between, and whether the tracker is
alive. -/
theorem agreement_throughout_iff_two :
    let actions : List SessionAction :=
      [.call .listPeers, .other (.cleanup 1), .serve 2, .finish, .call .ping, .serve 3, .finish]
    (after step (idle aliceAndBob 0 alice) actions).isSome ∧
      ∀ front session, front <+: actions →
        after step (idle aliceAndBob 0 alice) front = some session → session.Agreement := by
  intro actions
  have reached : after TrackerServer.step { peerTimeout := 60 * 10 ^ 9 }
      [.accept 0 localClient.endpoint, .accept 1 localClient.endpoint,
        .line 0 0 (ascii "REGISTER alice 8001"), .line 1 0 (ascii "REGISTER bob 8002")] =
      some aliceAndBob := rfl
  have possible : (after step (idle aliceAndBob 0 alice) actions).isSome := by decide +kernel
  obtain ⟨final, run⟩ := Option.isSome_iff_exists.mp possible
  have listed :
      ascii "alice" ∈ ((aliceAndBob.cleanupStalePeers 1).peers.toList.map (·.2)).map (·.id) ∧
      ((aliceAndBob.cleanupStalePeers 1).peers.toList.map (·.2)).length < 2 ^ 31 := by
    decide +kernel
  refine ⟨possible, (agreement_throughout_iff reached rfl (by decide) run).mpr
    ⟨trivial, fun _ called => ?_⟩⟩
  cases called
  refine ⟨trivial, fun _ cleaned => ?_⟩
  cases cleaned
  refine ⟨trivial, fun _ served => ?_⟩
  obtain ⟨_, _, _, _, _, rfl⟩ := serve_eq_some served
  refine ⟨fun _ _ handled => ?_, fun _ returned => ?_⟩
  · cases handled
    exact listed
  · obtain ⟨_, _, _, _, _, rfl⟩ := finish_eq_some returned
    refine ⟨trivial, fun _ called => ?_⟩
    cases called
    refine ⟨trivial, fun _ served => ?_⟩
    obtain ⟨_, _, _, _, _, rfl⟩ := serve_eq_some served
    refine ⟨fun isList => ?_, fun _ _ => trivial⟩
    cases isList

/-- The only client is removed as stale. Its `list_peers` leaves the end of the reply behind, and
its next `ping` takes that for the answer. -/
theorem not_agreement_stale :
    ∃ server session,
      after TrackerServer.step {}
          [.accept 0 localClient.endpoint, .line 0 0 (ascii "REGISTER alice 8001")] = some server ∧
        server.connections 0 = some alice ∧
        after step (idle server 0 alice)
          [.other (.cleanup (61 * 10 ^ 9)), .call .listPeers, .serve (62 * 10 ^ 9), .finish,
            .call .ping, .serve (63 * 10 ^ 9), .finish] = some session ∧
        ¬ session.Agreement := by
  have results : (after step
      (idle ((({} : TrackerServer).setConnection 0 (some localClient)).register 0 localClient 0
        (ascii "alice") 8001 0) 0 alice)
      [.other (.cleanup (61 * 10 ^ 9)), .call .listPeers, .serve (62 * 10 ^ 9), .finish,
        .call .ping, .serve (63 * 10 ^ 9), .finish]).map
        (fun session => session.exchanges.map fun exchange => (exchange.call, exchange.result)) =
      some [(.listPeers, .peers []), (.ping, .alive false)] := by
    decide +kernel
  obtain ⟨session, run, both⟩ := Option.map_eq_some_iff.mp results
  refine ⟨_, session, rfl, rfl, run, fun agreement => ?_⟩
  obtain ⟨exchange, member, same⟩ := List.mem_map.mp
    (both ▸ List.mem_cons_of_mem _ List.mem_cons_self :
      ((.ping, .alive false) : ClientCall × CallResult) ∈
        session.exchanges.map fun exchange => (exchange.call, exchange.result))
  obtain ⟨isPing, isFalse⟩ := Prod.mk.inj same
  obtain ⟨served, _, _, _, answer⟩ := agreement.exchanges exchange member
  rw [isPing, isFalse] at answer
  cases answer

end Session

end AsyncNet.P2p
