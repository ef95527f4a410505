/-
This file models the WebSocket connection of `include/async_net/http/websocket.hpp`: the
frame codec, and the loops of a `websocket_connection` that read a frame, write bytes and
receive a message.

What the socket brings is the list of what its reads return, and a read after the last of
them, or one that returns nothing, finds the connection closed. How many bytes a write takes
is a function of what the socket has taken before and of what it is offered.
-/

import AsyncNet.Http.H2Frame
import AsyncNet.Http.Hpack

namespace AsyncNet.Http.Ws

open H2

/-- `opcode`. The four bits can hold codes that the enumeration does not name. -/
inductive Opcode where
  | continuation | text | binary | close | ping | pong
  | reserved (code : UInt8)
  deriving DecidableEq, Repr

def Opcode.ofByte (code : UInt8) : Opcode :=
  if code = 0x0 then .continuation
  else if code = 0x1 then .text
  else if code = 0x2 then .binary
  else if code = 0x8 then .close
  else if code = 0x9 then .ping
  else if code = 0xA then .pong
  else .reserved code

def Opcode.toByte : Opcode → UInt8
  | .continuation => 0x0
  | .text => 0x1
  | .binary => 0x2
  | .close => 0x8
  | .ping => 0x9
  | .pong => 0xA
  | .reserved code => code

/-- `frame`. -/
structure Frame where
  fin : Bool := true
  op : Opcode := .text
  masked : Bool := false
  payload : Bytes := []
  deriving DecidableEq, Repr

/-! ### Frames -/

/-- The eight bytes of a long length. -/
def putUint64 (value : Nat) : Bytes :=
  [byteAt value 56, byteAt value 48, byteAt value 40, byteAt value 32, byteAt value 24,
    byteAt value 16, byteAt value 8, byteAt value 0]

/-- `encode_frame`. -/
def encodeFrame (op : Opcode) (payload : Bytes) (fin : Bool) : Bytes :=
  let size := payload.length
  let length :=
    if size ≤ 125 then [UInt8.ofNat size]
    else if size ≤ 65535 then [126, byteAt size 8, byteAt size 0]
    else 127 :: putUint64 size
  [if fin then op.toByte ||| 0x80 else op.toByte] ++ length ++ payload

/-- The length of the payload and the position after it. -/
def payloadLength (data : Bytes) : Option (Nat × Nat) :=
  let short := data.getD 1 0 &&& 0x7F
  if short = 126 then
    if data.length < 4 then none
    else some ((data.getD 2 0).toNat * 2 ^ 8 + (data.getD 3 0).toNat, 4)
  else if short = 127 then
    if data.length < 10 then none
    else some (((data.drop 2).take 8).foldl (fun length byte => length * 2 ^ 8 + byte.toNat) 0, 10)
  else some (short.toNat, 2)

/-- The masking key and the position after it. -/
def maskKeyAt (data : Bytes) (pos : Nat) : Option (Bytes × Nat) :=
  if data.getD 1 0 &&& 0x80 ≠ 0 then
    if data.length < pos + 4 then none else some ((data.drop pos).take 4, pos + 4)
  else some ([0, 0, 0, 0], pos)

/-- The bytes of a payload, each with the byte of the key at its place. -/
def applyMask (maskKey payload : Bytes) : Bytes :=
  payload.mapIdx fun index byte => byte ^^^ maskKey.getD (index % 4) 0

/-- `parse_frame`: the frame at the front of the data and what follows it. A length that wraps the
sum with the position asks for a string that is too long. -/
def parseFrame (data : Bytes) : Except Fault (Option (Frame × Bytes)) :=
  if data.length < 2 then .ok none
  else
    match payloadLength data with
    | none => .ok none
    | some (payloadLen, pos) =>
        match maskKeyAt data pos with
        | none => .ok none
        | some (maskKey, pos) =>
            if data.length < (pos + payloadLen) % 2 ^ 64 then .ok none
            else if data.length < pos + payloadLen then .error .lengthError
            else
              let masked : Bool := data.getD 1 0 &&& 0x80 ≠ 0
              let payload := (data.drop pos).take payloadLen
              .ok (some
                ({ fin := data.getD 0 0 &&& 0x80 ≠ 0
                   op := .ofByte (data.getD 0 0 &&& 0x0F)
                   masked
                   payload := if masked then applyMask maskKey payload else payload },
                  data.drop (pos + payloadLen)))

/-! ### Connections -/

/-- `websocket_connection`: what the reads of its socket will bring, what it has written, and the
buffer. -/
structure WebsocketConnection where
  reads : List Bytes
  written : Bytes := []
  readBuffer : Bytes := []
  deriving DecidableEq, Repr

namespace WebsocketConnection

/-- The bytes that are still to be parsed. -/
def stream (connection : WebsocketConnection) : Bytes :=
  connection.readBuffer ++ connection.reads.flatten

/-- The loop of `read_frame`, over what the reads bring. -/
def readFrameLoop : List Bytes → Bytes → Except Fault (Option Frame × Bytes × List Bytes)
  | [], readBuffer => do
      if readBuffer ≠ [] then
        if let some (frm, rest) ← parseFrame readBuffer then
          return (some frm, rest, [])
      return (none, readBuffer, [])
  | read :: reads, readBuffer => do
      if readBuffer ≠ [] then
        if let some (frm, rest) ← parseFrame readBuffer then
          return (some frm, rest, read :: reads)
      if read = [] then return (none, readBuffer, reads)
      readFrameLoop reads (readBuffer ++ read)

/-- `read_frame`. -/
def readFrame (connection : WebsocketConnection) :
    Except Fault (Option Frame × WebsocketConnection) := do
  let (frm, readBuffer, reads) ← readFrameLoop connection.reads connection.readBuffer
  return (frm, { connection with readBuffer, reads })

section Writing

variable (accepts : Bytes → Bytes → Nat)

/-- The loop of `write_raw`. A pass that goes on has written a byte, so the number of bytes bounds
them. -/
def writeRawLoop : Nat → Bytes → Bytes → Bool × Bytes
  | 0, written, _ => (true, written)
  | passes + 1, written, data =>
      if data = [] then (true, written)
      else
        let n := accepts written data
        if n = 0 then (false, written)
        else writeRawLoop passes (written ++ data.take n) (data.drop n)

/-- `write_raw`. -/
def writeRaw (connection : WebsocketConnection) (data : Bytes) : Bool × WebsocketConnection :=
  let (sent, written) := writeRawLoop accepts (data.length + 1) connection.written data
  (sent, { connection with written })

/-- `send_close_frame`. -/
def sendCloseFrame (connection : WebsocketConnection) : WebsocketConnection :=
  (connection.writeRaw accepts (encodeFrame .close [] true)).2

/-- The loop of `receive`. A pass that goes on has taken a frame off the stream, so the number of
bytes bounds them. -/
def receiveLoop : Nat → Bytes → Bool → WebsocketConnection →
    Except Fault (Bytes × WebsocketConnection)
  | 0, _, _, connection => .ok ([], connection)
  | passes + 1, message, inFragment, connection => do
      match ← connection.readFrame with
      | (none, connection) => return ([], connection)
      | (some frm, connection) =>
          match frm.op with
          | .close => return ([], connection.sendCloseFrame accepts)
          | .ping =>
              let pongData := encodeFrame .pong frm.payload true
              receiveLoop passes message inFragment (connection.writeRaw accepts pongData).2
          | .pong => receiveLoop passes message inFragment connection
          | .text | .binary =>
              if frm.fin then return (frm.payload, connection)
              else receiveLoop passes frm.payload true connection
          | .continuation =>
              if inFragment then
                if frm.fin then return (message ++ frm.payload, connection)
                else receiveLoop passes (message ++ frm.payload) inFragment connection
              else return ([], connection)
          | .reserved _ => receiveLoop passes message inFragment connection

/-- `receive`. -/
def receive (connection : WebsocketConnection) : Except Fault (Bytes × WebsocketConnection) :=
  receiveLoop accepts (connection.stream.length + 1) [] false connection

/-- The messages of successive calls of `receive`. -/
def receives : Nat → WebsocketConnection → Except Fault (List Bytes × WebsocketConnection)
  | 0, connection => .ok ([], connection)
  | calls + 1, connection => do
      let (message, connection) ← connection.receive accepts
      let (messages, connection) ← receives calls connection
      return (message :: messages, connection)

end Writing

end WebsocketConnection

end AsyncNet.Http.Ws
