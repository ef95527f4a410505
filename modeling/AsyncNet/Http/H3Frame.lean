/-
This file models the HTTP/3 frame layer of `src/http/h3_frame.hpp`: the variable-length
integers of QUIC, the builders and parsers of frames that the session uses, and the
`frame_reader` that the bytes of a stream are fed to. Memory does not run out: a frame may
announce any length.
-/

import AsyncNet.Http.H2Frame
import AsyncNet.Http.Hpack

namespace AsyncNet.Http.H3

open H2

/-! ### Variable-length integers -/

/-- `append_varint` with `encode_varint`: nothing is appended for a value that does not fit. -/
def encodeVarint (value : Nat) : Bytes :=
  if value < 64 then [UInt8.ofNat value]
  else if value < 16384 then [byteAt value 8 ||| 0x40, byteAt value 0]
  else if value < 1073741824 then
    [byteAt value 24 ||| 0x80, byteAt value 16, byteAt value 8, byteAt value 0]
  else if value < 4611686018427387904 then
    [byteAt value 56 ||| 0xC0, byteAt value 48, byteAt value 40, byteAt value 32, byteAt value 24,
      byteAt value 16, byteAt value 8, byteAt value 0]
  else []

/-- The bytes of an integer by the two bits at the top of the first of them. -/
def varintLength (first : UInt8) : Nat :=
  if first < 0x40 then 1
  else if first < 0x80 then 2
  else if first < 0xC0 then 4
  else 8

/-- `decode_varint`: the value and the bytes that it takes. -/
def decodeVarint (buf : Bytes) : Option (Nat × Nat) :=
  let length := varintLength (buf.getD 0 0)
  if buf.length < length then none
  else some ((buf.tail.take (length - 1)).foldl (fun value byte => value * 2 ^ 8 + byte.toNat)
    (buf.getD 0 0 &&& 0x3F).toNat, length)

/-! ### Frames -/

/-- `frame_type`. A number outside the enumeration is kept: `static_cast` accepts it and the session
ignores the frame. -/
inductive FrameType where
  | data | headers | cancelPush | settings | pushPromise | goaway | maxPushId
  | unknown (code : Nat)
  deriving DecidableEq, Repr

def FrameType.ofCode (code : Nat) : FrameType :=
  if code = 0x00 then .data
  else if code = 0x01 then .headers
  else if code = 0x03 then .cancelPush
  else if code = 0x04 then .settings
  else if code = 0x05 then .pushPromise
  else if code = 0x07 then .goaway
  else if code = 0x0D then .maxPushId
  else .unknown code

def FrameType.code : FrameType → Nat
  | .data => 0x00
  | .headers => 0x01
  | .cancelPush => 0x03
  | .settings => 0x04
  | .pushPromise => 0x05
  | .goaway => 0x07
  | .maxPushId => 0x0D
  | .unknown code => code

/-- `stream_type`. -/
inductive StreamType where
  | control | push | qpackEncoder | qpackDecoder
  deriving DecidableEq, Repr

def StreamType.ofCode : Nat → Option StreamType
  | 0x00 => some .control
  | 0x01 => some .push
  | 0x02 => some .qpackEncoder
  | 0x03 => some .qpackDecoder
  | _ => none

def StreamType.code : StreamType → Nat
  | .control => 0x00
  | .push => 0x01
  | .qpackEncoder => 0x02
  | .qpackDecoder => 0x03

/-- `frame`. -/
structure Frame where
  type : FrameType
  payload : Bytes
  deriving DecidableEq, Repr

/-- `build_frame`. -/
def buildFrame (type : FrameType) (payload : Bytes) : Bytes :=
  encodeVarint type.code ++ encodeVarint payload.length ++ payload

/-- `build_data_frame`. -/
def buildDataFrame (data : Bytes) : Bytes := buildFrame .data data

/-- `build_headers_frame`. -/
def buildHeadersFrame (qpackData : Bytes) : Bytes := buildFrame .headers qpackData

/-- `build_settings_frame`, over identifiers and values. -/
def buildSettingsFrame (settings : List (Nat × Nat)) : Bytes :=
  buildFrame .settings (settings.flatMap fun setting =>
    encodeVarint setting.1 ++ encodeVarint setting.2)

/-- `build_push_promise_frame`. -/
def buildPushPromiseFrame (pushId : Nat) (qpackHeaders : Bytes) : Bytes :=
  buildFrame .pushPromise (encodeVarint pushId ++ qpackHeaders)

/-- `build_max_push_id_frame`. -/
def buildMaxPushIdFrame (pushId : Nat) : Bytes := buildFrame .maxPushId (encodeVarint pushId)

/-- `parse_push_promise`: the push ID and the header block. -/
def parsePushPromise (data : Bytes) : Nat × Bytes :=
  match decodeVarint data with
  | none => (0, [])
  | some (pushId, consumed) => (pushId, data.drop consumed)

/-! ### The reader -/

/-- `frame_reader::state`. -/
inductive ReaderState where
  | readType | readLength | readPayload | complete
  deriving DecidableEq, Repr

/-- `frame_reader`. The value of an integer that is complete is used at once and not kept. -/
structure FrameReader where
  state : ReaderState := .readType
  currentType : FrameType := .data
  currentLength : Nat := 0
  payloadBuf : Bytes := []
  varintBuf : Bytes := []
  varintBytesExpected : Nat := 0
  deriving DecidableEq, Repr

namespace FrameReader

/-- The bytes of an integer that has begun. -/
def held (reader : FrameReader) : Bytes :=
  if reader.varintBytesExpected = 0 then [] else reader.varintBuf

/-- The bytes that an integer takes, by its first byte. -/
def expected (reader : FrameReader) (data : Bytes) : Nat :=
  if reader.varintBytesExpected = 0 then varintLength (data.getD 0 0)
  else reader.varintBytesExpected

/-- `frame_reader::feed_varint` on data that is not empty: the value, if the integer is complete,
and what is left of the data. -/
def feedVarint (reader : FrameReader) (data : Bytes) : FrameReader × Option Nat × Bytes :=
  let needed := reader.expected data - reader.held.length
  let varintBuf := reader.held ++ data.take needed
  if varintBuf.length = reader.expected data then
    ({ reader with varintBuf := [], varintBytesExpected := 0 },
      (decodeVarint varintBuf).map (·.1), data.drop needed)
  else
    ({ reader with varintBuf, varintBytesExpected := reader.expected data }, none,
      data.drop needed)

/-- One pass of the loop of `frame_reader::feed`, on data that is not empty. -/
def feedPass (reader : FrameReader) (data : Bytes) : FrameReader × Bytes :=
  match reader.state with
  | .readType =>
      match reader.feedVarint data with
      | (reader, none, rest) => (reader, rest)
      | (reader, some type, rest) =>
          ({ reader with currentType := .ofCode type, state := .readLength }, rest)
  | .readLength =>
      match reader.feedVarint data with
      | (reader, none, rest) => (reader, rest)
      | (reader, some length, rest) =>
          ({ reader with currentLength := length, payloadBuf := [], state := .readPayload }, rest)
  | .readPayload =>
      let remaining := reader.currentLength - reader.payloadBuf.length
      let payloadBuf := reader.payloadBuf ++ data.take remaining
      ({ reader with
          payloadBuf
          state := if payloadBuf.length = reader.currentLength then .complete else .readPayload },
        data.drop remaining)
  | .complete => (reader, data)

/-- The loop of `frame_reader::feed`: the reader and what it has not consumed. A pass takes a byte
or completes a frame without a payload, which ends the loop. -/
def feedLoop : Nat → FrameReader → Bytes → FrameReader × Bytes
  | 0, reader, data => (reader, data)
  | passes + 1, reader, data =>
      if data = [] ∨ reader.state = .complete then (reader, data)
      else
        let (reader, rest) := reader.feedPass data
        feedLoop passes reader rest

/-- `frame_reader::feed`. -/
def feed (reader : FrameReader) (data : Bytes) : FrameReader × Bytes :=
  feedLoop (data.length + 1) reader data

/-- `frame_reader::has_frame`. -/
def hasFrame (reader : FrameReader) : Bool := reader.state = .complete

/-- `frame_reader::take_frame`. -/
def takeFrame (reader : FrameReader) : FrameReader × Frame :=
  ({ reader with state := .readType, payloadBuf := [] },
    { type := reader.currentType, payload := reader.payloadBuf })

section Reading

variable {State : Type}

/-- The loop over the frames that a reader completes: each is handled before the rest of the data is
fed. The first feed has been made. -/
def handleFrames (handle : State → Frame → Except Fault State) :
    Nat → FrameReader → Bytes → State → Except Fault (FrameReader × State)
  | 0, reader, _, state => .ok (reader, state)
  | frames + 1, reader, rest, state =>
      if reader.hasFrame then do
        let (reader, f) := reader.takeFrame
        let state ← handle state f
        let (reader, rest) := reader.feed rest
        handleFrames handle frames reader rest state
      else .ok (reader, state)

/-- Data is fed to a reader, and the frames that it completes are handled. All but the first take
bytes of the data, which bounds their number. -/
def read (handle : State → Frame → Except Fault State) (reader : FrameReader) (data : Bytes)
    (state : State) : Except Fault (FrameReader × State) :=
  let (reader, rest) := reader.feed data
  handleFrames handle (data.length + 2) reader rest state

end Reading

end FrameReader

end AsyncNet.Http.H3
