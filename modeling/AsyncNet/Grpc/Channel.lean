/-
This file models the unary calls of a gRPC client, `channel::unary_call` of
`src/grpc/grpc_channel.cpp`. A call has two parts: the request that it submits to the HTTP/2
session, and what it makes of the promise when that is complete. The two overloads are one
here: the one without metadata sends an empty map, and the map that it receives is not
looked at.

The identifier that `submit_request` returns is that of a new stream and not negative, so
the branch for a request that could not be submitted is left out.
-/

import AsyncNet.Grpc.Types
import AsyncNet.Grpc.Wire
import AsyncNet.Http.Http2State

namespace AsyncNet.Grpc

open AsyncNet.Http AsyncNet.Http.H2 AsyncNet.Library

/-- `grpc_constants::te`. -/
def te : Bytes := ascii "trailers"

/-- `make_grpc_request`. -/
def makeGrpcRequest (host path bodyData : Bytes) : Request :=
  let hdrs := Headers.set [] (ascii "Host") host
  let hdrs := Headers.set hdrs (ascii "Content-Type") contentType
  let hdrs := Headers.set hdrs (ascii "TE") te
  let hdrs := Headers.set hdrs (ascii "grpc-encoding") grpcEncoding
  { method := .post, path, ver := .http2, hdrs, bd := bodyData }

/-- `extract_grpc_status`. -/
def extractGrpcStatus (resp : Response) : Status where
  code :=
    match resp.hdrs.get grpcStatus with
    | none => .ok
    | some value => ⟨fromChars value⟩
  message := (resp.hdrs.get grpcMessage).getD []

/-! ### Unary calls -/

/-- `channel`: the host that its requests name, and whether it is connected. -/
structure Channel where
  host : Bytes
  connected : Bool := true
  deriving DecidableEq, Repr

/-- The arguments of `unary_call`. -/
structure UnaryCall where
  service : Bytes
  method : Bytes
  requestData : Bytes
  initialMetadata : Metadata := ∅

/-- What `unary_call` returns, and the metadata that it has given to its caller. -/
structure Reply where
  status : Status
  data : Bytes := []
  responseMetadata : Option Metadata := none

namespace UnaryCall

def path (call : UnaryCall) : Bytes := makePath call.service call.method

/-- The request of a call. -/
def toRequest (call : UnaryCall) (host : Bytes) : Request :=
  let req := makeGrpcRequest host call.path (encodeGrpcMessage call.requestData)
  { req with
    hdrs := call.initialMetadata.toList.foldl
      (fun hdrs entry => Headers.set hdrs entry.1 entry.2) req.hdrs }

end UnaryCall

/-- `unary_call` until it waits: the request that it submits, unless it returns at once. -/
def Channel.submission (channel : Channel) (call : UnaryCall) : Except Reply Request :=
  if channel.connected = false then
    .error { status := ⟨.unavailable, ascii "Channel not connected"⟩ }
  else .ok (call.toRequest channel.host)

/-- `unary_call` from the completion of its promise on. -/
def unaryReply (promise : ResponsePromise) : Except Fault Reply :=
  let resp := promise.resp
  if promise.error then .ok { status := ⟨.internal, ascii "Request error"⟩ }
  else if resp.status.code ≠ 200 then
    .ok { status := ⟨.internal, ascii "HTTP error: " ++ Http.toString resp.status.code⟩ }
  else
    let responseMetadata := some (extractFromHeaders resp.hdrs)
    let grpcStatus := extractGrpcStatus resp
    if grpcStatus.code ≠ .ok then .ok { status := grpcStatus, responseMetadata }
    else do
      match ← decodeGrpcMessage resp.bd with
      | none =>
          return { status := ⟨.internal, ascii "Invalid gRPC response frame"⟩, responseMetadata }
      | some data => return { status := grpcStatus, data, responseMetadata }

end AsyncNet.Grpc
