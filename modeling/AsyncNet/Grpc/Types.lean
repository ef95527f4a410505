/-
This file models the types of gRPC in `include/async_net/grpc/types.hpp`: status codes, the
metadata of a call and how it is taken out of the headers of a message, and the paths of
methods.
-/

import Mathlib.Data.List.Basic
import AsyncNet.Http.Types

namespace AsyncNet.Grpc

open AsyncNet.Http AsyncNet.Library

/-- `grpc::status_code`: any `int`, since the client casts what it receives. -/
structure StatusCode where
  code : Int := 0
  deriving DecidableEq, Repr

namespace StatusCode

def ok : StatusCode := ⟨0⟩

def unimplemented : StatusCode := ⟨12⟩

def internal : StatusCode := ⟨13⟩

def unavailable : StatusCode := ⟨14⟩

end StatusCode

/-- `grpc::status`. -/
structure Status where
  code : StatusCode := .ok
  message : Bytes := []
  deriving DecidableEq, Repr

/-- `grpc::metadata`: a map that is ordered by its keys. -/
abbrev Metadata := Std.ExtTreeMap Bytes Bytes

/-- `call_context`. -/
structure CallContext where
  initialMetadata : Metadata := ∅
  responseMetadata : Metadata := ∅

/-- The header names that `extract_from_headers` skips. -/
def reservedNames : List Bytes :=
  [ascii "content-type", ascii "te", ascii "host", ascii "grpc-encoding", ascii "grpc-status",
    ascii "grpc-message", ascii "grpc-accept-encoding", ascii "user-agent",
    ascii "accept-encoding"]

/-- Whether `extract_from_headers` skips a header of that name. -/
def isSkipped (name : Bytes) : Bool :=
  name = [] || name.head? = some 58 || name.head? = some 45 || reservedNames.contains name

/-- `call_context::extract_from_headers`. -/
def extractFromHeaders (hdrs : Headers) : Metadata :=
  hdrs.foldl (fun md header => if isSkipped header.1 then md else md.insert header.1 header.2) ∅

/-! ### Constants -/

def contentType : Bytes := ascii "application/grpc"

def grpcEncoding : Bytes := ascii "identity"

def grpcStatus : Bytes := ascii "grpc-status"

def grpcMessage : Bytes := ascii "grpc-message"

/-! ### Paths -/

/-- `make_path`. -/
def makePath (service method : Bytes) : Bytes := ascii "/" ++ service ++ ascii "/" ++ method

/-- `parse_path`: the service and the method, both empty for what is no path. -/
def parsePath (path : Bytes) : Bytes × Bytes :=
  if path.head? = some 47 then
    match indexOf (ascii "/") path.tail with
    | none => ([], [])
    | some slash => (path.tail.take slash, path.tail.drop (slash + 1))
  else ([], [])

end AsyncNet.Grpc
