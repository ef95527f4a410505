/-
This file models `tracker_server` of `p2p/tracker_server.cpp`: the registry, the commands of its
line protocol and the removal of stale peers. All of it runs on the thread of one `io_context`,
and a client's coroutine gives way only where it awaits its socket. So a command is one step,
from the line that has been read to the reply that is written, and so is the end of a
connection.
-/

import AsyncNet.Http.Types
import Std.Data.ExtTreeMap.Lemmas

namespace AsyncNet.P2p

open Http

/-! ### Streams -/

/-- The white space of a `std::istringstream`. -/
def isSpace (byte : UInt8) : Bool := byte = 32 || (9 ≤ byte && byte ≤ 13)

/-- What is left of a `std::istringstream`, none once an extraction has failed. -/
abbrev Stream := Option Bytes

/-- `iss >> text`. An extraction that fails leaves the string empty. -/
def extractWord (stream : Stream) : Bytes × Stream :=
  match stream with
  | none => ([], none)
  | some text =>
      let text := text.dropWhile isSpace
      let word := text.takeWhile fun byte => !isSpace byte
      if word = [] then ([], none) else (word, some (text.drop word.length))

/-- `iss >> number` for a `uint16_t` that holds `0`: a sign and a run of digits. A number that does
not fit fails with the largest value, and the minus sign wraps. -/
def extractUint16 (stream : Stream) : Nat × Stream :=
  match stream with
  | none => (0, none)
  | some text =>
      let text := text.dropWhile isSpace
      let negative := text.head? = some 45
      let unsigned := if negative ∨ text.head? = some 43 then text.tail else text
      let digits := unsigned.takeWhile isDigit
      let value := digitsValue digits
      if digits = [] then (0, none)
      else if 2 ^ 16 ≤ value then (2 ^ 16 - 1, none)
      else (if negative then (2 ^ 16 - value) % 2 ^ 16 else value,
        some (unsigned.drop digits.length))

/-! ### The server -/

/-- `peer_info`, with a time of the steady clock in nanoseconds. -/
structure PeerInfo where
  id : Bytes
  publicAddress : Bytes
  udpPort : Nat
  tcpPort : Nat := 0
  lastSeen : Nat := 0
  deriving DecidableEq

/-- The address that `getpeername` gives for a client. -/
structure Endpoint where
  ip : UInt8 × UInt8 × UInt8 × UInt8
  port : UInt16
  deriving DecidableEq

/-- `inet_ntop` for `AF_INET`. -/
def Endpoint.clientIp (endpoint : Endpoint) : Bytes :=
  decimal endpoint.ip.1.toNat ++ ascii "." ++ decimal endpoint.ip.2.1.toNat ++ ascii "." ++
    decimal endpoint.ip.2.2.1.toNat ++ ascii "." ++ decimal endpoint.ip.2.2.2.toNat

/-- The coroutine `handle_client`: the address of the client and its local `peer_id`. The last field
records the ports that it has registered with that id. -/
structure Connection where
  endpoint : Endpoint
  peerId : Bytes := []
  ports : Nat × Nat := (0, 0)
  deriving DecidableEq

/-- `tracker_server`, with the coroutines of the clients that are connected. The third field records
by which connection an id was registered last. -/
structure TrackerServer where
  peers : Std.ExtTreeMap Bytes PeerInfo := ∅
  connections : Nat → Option Connection := fun _ => none
  registrants : Bytes → Option Nat := fun _ => none
  peerTimeout : Nat := 60 * 10 ^ 9

/-- The arguments of `REGISTER`, if they are valid: the id, the UDP port and the TCP port. -/
def registerArguments (stream : Stream) : Option (Bytes × Nat × Nat) :=
  let (id, stream) := extractWord stream
  let (udpPort, stream) := extractUint16 stream
  let (tcpPort, stream) := extractUint16 stream
  let tcpPort := if stream = none then 0 else tcpPort
  if id = [] ∨ udpPort = 0 then none else some (id, udpPort, tcpPort)

/-- `write_line`. -/
def writeLine (line : Bytes) : Bytes := line ++ [10]

namespace TrackerServer

def setConnection (server : TrackerServer) (conn : Nat) (connection : Option Connection) :
    TrackerServer :=
  { server with connections := Function.update server.connections conn connection }

/-- `cleanup_stale_peers`. -/
def cleanupStalePeers (server : TrackerServer) (now : Nat) : TrackerServer :=
  { server with
    peers := server.peers.filter fun _ info => ¬ server.peerTimeout < now - info.lastSeen }

/-- The command `REGISTER` with valid arguments. -/
def register (server : TrackerServer) (conn : Nat) (connection : Connection) (now : Nat)
    (id : Bytes) (udpPort tcpPort : Nat) : TrackerServer :=
  let info : PeerInfo :=
    { id := id, publicAddress := connection.endpoint.clientIp, udpPort := udpPort,
      tcpPort := tcpPort, lastSeen := now }
  { server with
    peers := server.peers.insert id info
    registrants := Function.update server.registrants id (some conn) }.setConnection conn
    (some { connection with peerId := id, ports := (udpPort, tcpPort) })

/-- The line of `LIST` for a peer. -/
def peerLine (info : PeerInfo) : Bytes :=
  info.id ++ ascii " " ++ info.publicAddress ++ ascii " " ++ decimal info.udpPort

/-- The reply to `LIST`, before `write_line` ends it. The number counts every peer, the lines leave
out the one that asks. -/
def listResponse (peers : List PeerInfo) (peerId : Bytes) : Bytes :=
  ascii "PEERS " ++ decimal peers.length ++ [10] ++
    (peers.filter (·.id ≠ peerId)).flatMap fun info => peerLine info ++ [10]

/-- The command `LIST`: every peer is seen now. -/
def list (server : TrackerServer) (now : Nat) : TrackerServer :=
  { server with peers := server.peers.map fun _ info => { info with lastSeen := now } }

/-- The command `PING`: the peer of the connection is seen now, if it is registered. -/
def ping (server : TrackerServer) (connection : Connection) (now : Nat) : TrackerServer :=
  if connection.peerId = [] then server
  else
    match server.peers[connection.peerId]? with
    | none => server
    | some info =>
        { server with
          peers := server.peers.insert connection.peerId { info with lastSeen := now } }

/-- The end of `handle_client`. -/
def close (server : TrackerServer) (conn : Nat) (connection : Connection) : TrackerServer :=
  let server :=
    if connection.peerId = [] then server
    else { server with peers := server.peers.erase connection.peerId }
  server.setConnection conn none

/-- `handle_client` from a line that has been read to the next, with what it writes. -/
def handleLine (server : TrackerServer) (conn : Nat) (connection : Connection) (now : Nat)
    (line : Bytes) : TrackerServer × Bytes :=
  let (cmd, stream) := extractWord (some line)
  if line = [] then (server.close conn connection, [])
  else if cmd = ascii "REGISTER" then
    match registerArguments stream with
    | none => (server, writeLine (ascii "ERROR invalid REGISTER format"))
    | some (id, udpPort, tcpPort) =>
        (server.register conn connection now id udpPort tcpPort,
          writeLine (ascii "OK " ++ connection.endpoint.clientIp ++ ascii ":" ++
            decimal connection.endpoint.port.toNat))
  else if cmd = ascii "LIST" then
    (server.list now,
      writeLine (listResponse ((server.list now).peers.toList.map (·.2)) connection.peerId))
  else if cmd = ascii "PING" then (server.ping connection now, writeLine (ascii "PONG"))
  else if cmd = ascii "QUIT" then (server.close conn connection, [])
  else (server, writeLine (ascii "ERROR unknown command"))

end TrackerServer

/-! ### Steps -/

/-- The lines that `read_line` can return. -/
def IsLine (line : Bytes) : Prop := line.length < 1024 ∧ 10 ∉ line

instance (line : Bytes) : Decidable (IsLine line) :=
  inferInstanceAs (Decidable (line.length < 1024 ∧ 10 ∉ line))

/-- What the coroutines of the server do: a client is accepted, a line of it is handled, the
connection is lost, stale peers are removed. -/
inductive TrackerAction where
  | accept (conn : Nat) (endpoint : Endpoint)
  | line (conn : Nat) (now : Nat) (line : Bytes)
  | disconnect (conn : Nat)
  | cleanup (now : Nat)

namespace TrackerServer

def step (server : TrackerServer) : TrackerAction → Option TrackerServer
  | .accept conn endpoint =>
      match server.connections conn with
      | some _ => none
      | none => some (server.setConnection conn (some { endpoint := endpoint }))
  | .line conn now line =>
      if IsLine line then
        (server.connections conn).map fun connection =>
          (server.handleLine conn connection now line).1
      else none
  | .disconnect conn => (server.connections conn).map fun connection => server.close conn connection
  | .cleanup now => some (server.cleanupStalePeers now)

end TrackerServer

end AsyncNet.P2p
