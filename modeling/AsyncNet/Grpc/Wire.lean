/-
This file models the message framing of gRPC: `encode_grpc_message` and
`decode_grpc_message` of `src/grpc/grpc_wire.cpp`, and the `stream_deframer` of
`include/async_net/grpc/stream_deframer.hpp`, which takes the messages out of the bytes of
a stream as they arrive. Lengths are `uint32_t` on the wire, and the sums with the five
bytes of the header wrap with them.
-/

import AsyncNet.Http.H2Frame
import AsyncNet.Http.Hpack

namespace AsyncNet.Grpc

open AsyncNet.Http AsyncNet.Http.H2

/-- `encode_grpc_message`: no compression, the length in four bytes and the message. -/
def encodeGrpcMessage (protobufData : Bytes) : Bytes :=
  [0x00] ++ putUint32 (protobufData.length % 2 ^ 32) ++ protobufData

/-- `decode_grpc_message`. A length that wraps the sum around asks for a string longer than the
data. -/
def decodeGrpcMessage (data : Bytes) : Except Fault (Option Bytes) :=
  let msgLen := getUint32 data 1
  if data.length < 5 then .ok none
  else if data.length < (5 + msgLen) % 2 ^ 32 then .ok none
  else if data.length < 5 + msgLen then .error .outOfBounds
  else .ok (some ((data.drop 5).take msgLen))

/-! ### The deframer -/

/-- `stream_deframer`: its buffer, whether a callback is set, and what the reader and the callback
have been given. -/
structure StreamDeframer where
  buf : Bytes := []
  onMsg : Bool := false
  pushed : List Bytes := []
  passed : List Bytes := []
  deriving DecidableEq, Repr

namespace StreamDeframer

/-- `stream_deframer::on_message`. -/
def onMessage (deframer : StreamDeframer) : StreamDeframer := { deframer with onMsg := true }

/-- A message goes to the callback, if there is one, or into the reader. -/
def deliver (deframer : StreamDeframer) (proto : Bytes) : StreamDeframer :=
  if deframer.onMsg then { deframer with passed := deframer.passed ++ [proto] }
  else { deframer with pushed := deframer.pushed ++ [proto] }

/-- The frame at the front of the buffer and what follows it, once the buffer holds all of it. -/
def takeFrame (buf : Bytes) : Except Fault (Option (Bytes × Bytes)) :=
  let msgLen := getUint32 buf 1
  if buf.length < 5 then .ok none
  else if buf.length < (5 + msgLen) % 2 ^ 32 then .ok none
  else if buf.length < 5 + msgLen then .error .outOfBounds
  else .ok (some (buf.take (5 + msgLen), buf.drop ((5 + msgLen) % 2 ^ 32)))

/-- The loop of `stream_deframer::feed`. Each pass that goes on takes a frame of five bytes or more,
so the number of bytes bounds them. From 4 GiB on the sum can wrap to zero with the whole frame in
the buffer. Nothing is erased then, and the source goes round without end. -/
def feedLoop : Nat → StreamDeframer → Except Fault StreamDeframer
  | 0, deframer => .ok deframer
  | passes + 1, deframer => do
      match ← takeFrame deframer.buf with
      | none => return deframer
      | some (frameData, buf) =>
          let deframer := { deframer with buf }
          match ← decodeGrpcMessage frameData with
          | none => feedLoop passes deframer
          | some proto => feedLoop passes (deframer.deliver proto)

/-- `stream_deframer::feed`. -/
def feed (deframer : StreamDeframer) (data : Bytes) : Except Fault StreamDeframer :=
  let buf := deframer.buf ++ data
  feedLoop (buf.length + 1) { deframer with buf }

end StreamDeframer

end AsyncNet.Grpc
