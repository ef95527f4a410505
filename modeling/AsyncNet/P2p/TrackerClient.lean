/-
This file models `tracker_client` of `p2p/tracker_client.cpp`, after `connect` has registered
it, and its connection to the server. The client writes a command and reads the lines of the
reply from the bytes that have come; it waits where they end before the reply does. The server's
side of the connection is one of the steps of the server, which the steps of all other clients
come between.
-/

import AsyncNet.P2p.TrackerServer

namespace AsyncNet.P2p

open Http

/-! ### Reading -/

/-- `line.pop_back()` for a trailing carriage return. -/
def dropCr (line : Bytes) : Bytes := if line.getLast? = some 13 then line.dropLast else line

/-- `read_line` from a line that has begun: the line and what follows it, none while it waits for
more bytes. A line of the length `limit` is given up and read as an empty one. -/
def readLine (limit : Nat) (line : Bytes) : Bytes → Option (Bytes × Bytes)
  | [] => if limit ≤ line.length then some ([], []) else none
  | byte :: input =>
      if limit ≤ line.length then some ([], byte :: input)
      else if byte = 10 then some (dropCr line, input)
      else readLine limit (line ++ [byte]) input

/-- `std::stoi`, none when it throws. -/
def stoi (text : Bytes) : Option Int :=
  let text := text.dropWhile isSpace
  let negative := text.head? = some 45
  let unsigned := if negative ∨ text.head? = some 43 then text.tail else text
  let digits := unsigned.takeWhile isDigit
  let value : Int := if negative then -(digitsValue digits : Int) else digitsValue digits
  if digits ≠ [] ∧ -2 ^ 31 ≤ value ∧ value < 2 ^ 31 then some value else none

/-- What a call returns. -/
inductive CallResult where
  | peers (peers : List PeerInfo)
  | alive (alive : Bool)
  | threw
  deriving DecidableEq

/-- A line of the reply to `LIST`. -/
def parsePeer (line : Bytes) : PeerInfo :=
  let (id, stream) := extractWord (some line)
  let (publicAddress, stream) := extractWord stream
  { id := id, publicAddress := publicAddress, udpPort := (extractUint16 stream).1 }

/-- The loop of `list_peers`. -/
def readPeers : Nat → Bytes → Option (List PeerInfo × Bytes)
  | 0, input => some ([], input)
  | count + 1, input =>
      (readLine 4096 [] input).bind fun (line, input) =>
        if line = [] then some ([], input)
        else
          (readPeers count input).map fun (peers, input) =>
            (if (parsePeer line).id = [] then peers else parsePeer line :: peers, input)

/-- `list_peers`, after it has written its command. -/
def listPeersReply (input : Bytes) : Option (CallResult × Bytes) :=
  (readLine 4096 [] input).bind fun (header, input) =>
    if header = [] ∨ header.take 6 ≠ ascii "PEERS " then some (.peers [], input)
    else
      match stoi (header.drop 6) with
      | none => some (.threw, input)
      | some count => (readPeers count.toNat input).map fun (peers, input) => (.peers peers, input)

/-- `ping`, after it has written its command. -/
def pingReply (input : Bytes) : Option (CallResult × Bytes) :=
  (readLine 4096 [] input).map fun (response, input) => (.alive (response = ascii "PONG"), input)

/-! ### The connection -/

/-- The calls of a client that is connected. -/
inductive ClientCall where
  | listPeers
  | ping
  deriving DecidableEq

/-- What a call writes. -/
def ClientCall.command (myId : Bytes) : ClientCall → Bytes
  | .listPeers => writeLine (ascii "LIST")
  | .ping => writeLine (ascii "PING " ++ myId)

/-- What a call makes of the bytes that have come. -/
def ClientCall.reply : ClientCall → Bytes → Option (CallResult × Bytes)
  | .listPeers => listPeersReply
  | .ping => pingReply

/-- The handling of a command: the peers that were registered then and what was written. -/
structure Served where
  peers : List PeerInfo
  reply : Bytes

/-- A call that has returned: how it was served, the bytes it has read, those it has left and what
it has returned. -/
structure Exchange where
  call : ClientCall
  served : Option Served
  read : Bytes
  left : Bytes
  result : CallResult

/-- A server and one of its clients, with the bytes under way between them. `call` is the call that
has not returned, `served` its handling. The last field records the calls that have returned. -/
structure Session where
  server : TrackerServer
  conn : Nat
  myId : Bytes
  toServer : Bytes := []
  toClient : Bytes := []
  call : Option ClientCall := none
  served : Option Served := none
  exchanges : List Exchange := []

/-- The steps of the client and of its connection, and those of the server for others. -/
inductive SessionAction where
  | call (call : ClientCall)
  | serve (now : Nat)
  | finish
  | other (action : TrackerAction)

/-- The step of the server is for a connection. -/
def TrackerAction.Concerns (conn : Nat) : TrackerAction → Prop
  | .accept other _ => other = conn
  | .line other _ _ => other = conn
  | .disconnect other => other = conn
  | .cleanup _ => False

instance (conn : Nat) : (action : TrackerAction) → Decidable (action.Concerns conn)
  | .accept other _ => inferInstanceAs (Decidable (other = conn))
  | .line other _ _ => inferInstanceAs (Decidable (other = conn))
  | .disconnect other => inferInstanceAs (Decidable (other = conn))
  | .cleanup _ => inferInstanceAs (Decidable False)

namespace Session

/-- The peers that are registered. -/
def registered (session : Session) : List PeerInfo := session.server.peers.toList.map (·.2)

/-- The client writes a command. -/
def write (session : Session) (call : ClientCall) : Session :=
  { session with
    toServer := session.toServer ++ call.command session.myId, call := some call, served := none }

/-- `handle_client` reads a line of the client and handles it. -/
def serve (session : Session) (now : Nat) : Option Session := do
  let connection ← session.server.connections session.conn
  let (line, toServer) ← readLine 1024 [] session.toServer
  let (server, reply) := session.server.handleLine session.conn connection now line
  return { session with
    server := server
    toServer := toServer
    toClient := session.toClient ++ reply
    served := some ⟨session.registered, reply⟩ }

/-- The client reads a reply, and its call returns. -/
def finish (session : Session) : Option Session := do
  let call ← session.call
  let (result, left) ← call.reply session.toClient
  let read := session.toClient.take (session.toClient.length - left.length)
  return { session with
    toClient := left
    call := none
    exchanges := session.exchanges ++ [⟨call, session.served, read, left, result⟩] }

def step (session : Session) : SessionAction → Option Session
  | .call call => if session.call = none then some (session.write call) else none
  | .serve now => session.serve now
  | .finish => session.finish
  | .other action =>
      if action.Concerns session.conn then none
      else (session.server.step action).map fun server => { session with server := server }

end Session

end AsyncNet.P2p
