/-
This file models the HTTP/2 frame layer of `src/http/h2_frame.hpp`: the nine-byte
frame header, the builders and parsers of the individual frames, and the
incremental `frame_reader` the session feeds received bytes to. Integers are
written and read byte by byte as the source does, so that a payload longer than
the 24-bit length field or a stream identifier with the reserved bit set loses
exactly the bits it loses there.
-/

import AsyncNet.Http.Types

namespace AsyncNet.Http.H2

/-! ### Constants -/

def frameHeaderSize : Nat := 9
def settingsParamSize : Nat := 6
def defaultMaxFrameSize : Nat := 16384
def defaultWindowSize : Nat := 65535
def maxWindowSize : Nat := 0x7FFFFFFF

/-- `frame_type`. A byte outside the enumeration is kept: `static_cast` accepts it and the
session ignores the frame. -/
inductive FrameType where
  | data | headers | priority | rstStream | settings | pushPromise | ping | goaway
  | windowUpdate | continuation
  | unknown (code : UInt8)
  deriving DecidableEq, Repr

def FrameType.ofByte (code : UInt8) : FrameType :=
  if code = 0 then .data
  else if code = 1 then .headers
  else if code = 2 then .priority
  else if code = 3 then .rstStream
  else if code = 4 then .settings
  else if code = 5 then .pushPromise
  else if code = 6 then .ping
  else if code = 7 then .goaway
  else if code = 8 then .windowUpdate
  else if code = 9 then .continuation
  else .unknown code

def FrameType.toByte : FrameType → UInt8
  | .data => 0
  | .headers => 1
  | .priority => 2
  | .rstStream => 3
  | .settings => 4
  | .pushPromise => 5
  | .ping => 6
  | .goaway => 7
  | .windowUpdate => 8
  | .continuation => 9
  | .unknown code => code

namespace Flag

def none : UInt8 := 0x00
def ack : UInt8 := 0x01
def endStream : UInt8 := 0x01
def endHeaders : UInt8 := 0x04
def padded : UInt8 := 0x08
def priority : UInt8 := 0x20

end Flag

/-- `error_code`, with the values outside the enumeration kept. -/
inductive ErrorCode where
  | noErr | protocolError | internalError | flowControlError | settingsTimeout | streamClosed
  | frameSizeError | refusedStream | cancel | compressionError | connectError | enhanceYourCalm
  | inadequateSecurity | http11Required
  | unknown (code : Nat)
  deriving DecidableEq, Repr

def ErrorCode.ofNat : Nat → ErrorCode
  | 0x0 => .noErr
  | 0x1 => .protocolError
  | 0x2 => .internalError
  | 0x3 => .flowControlError
  | 0x4 => .settingsTimeout
  | 0x5 => .streamClosed
  | 0x6 => .frameSizeError
  | 0x7 => .refusedStream
  | 0x8 => .cancel
  | 0x9 => .compressionError
  | 0xA => .connectError
  | 0xB => .enhanceYourCalm
  | 0xC => .inadequateSecurity
  | 0xD => .http11Required
  | code => .unknown code

def ErrorCode.toNat : ErrorCode → Nat
  | .noErr => 0x0
  | .protocolError => 0x1
  | .internalError => 0x2
  | .flowControlError => 0x3
  | .settingsTimeout => 0x4
  | .streamClosed => 0x5
  | .frameSizeError => 0x6
  | .refusedStream => 0x7
  | .cancel => 0x8
  | .compressionError => 0x9
  | .connectError => 0xA
  | .enhanceYourCalm => 0xB
  | .inadequateSecurity => 0xC
  | .http11Required => 0xD
  | .unknown code => code

/-- `setting_id`, with the identifiers outside the enumeration kept. -/
inductive SettingId where
  | headerTableSize | enablePush | maxConcurrentStreams | initialWindowSize | maxFrameSize
  | maxHeaderListSize
  | unknown (code : Nat)
  deriving DecidableEq, Repr

def SettingId.ofNat (code : Nat) : SettingId :=
  if code = 1 then .headerTableSize
  else if code = 2 then .enablePush
  else if code = 3 then .maxConcurrentStreams
  else if code = 4 then .initialWindowSize
  else if code = 5 then .maxFrameSize
  else if code = 6 then .maxHeaderListSize
  else .unknown code

def SettingId.toNat : SettingId → Nat
  | .headerTableSize => 1
  | .enablePush => 2
  | .maxConcurrentStreams => 3
  | .initialWindowSize => 4
  | .maxFrameSize => 5
  | .maxHeaderListSize => 6
  | .unknown code => code

structure SettingEntry where
  id : SettingId
  value : Nat
  deriving DecidableEq, Repr

/-! ### Big-endian integers -/

/-- `static_cast<uint8_t>((value >> shift) & 0xFF)`. -/
def byteAt (value shift : Nat) : UInt8 := UInt8.ofNat (value >>> shift)

/-- The four bytes of a `uint32_t`, most significant first. -/
def putUint32 (value : Nat) : Bytes :=
  [byteAt value 24, byteAt value 16, byteAt value 8, byteAt value 0]

/-- The `uint32_t` whose most significant byte stands at `offset`. -/
def getUint32 (buf : Bytes) (offset : Nat) : Nat :=
  (buf.getD offset 0).toNat * 2 ^ 24 + (buf.getD (offset + 1) 0).toNat * 2 ^ 16 +
    (buf.getD (offset + 2) 0).toNat * 2 ^ 8 + (buf.getD (offset + 3) 0).toNat

/-! ### Frames -/

structure FrameHeader where
  length : Nat := 0
  type : FrameType := .data
  flags : UInt8 := 0
  streamId : Nat := 0
  deriving DecidableEq, Repr

/-- `frame_header::has_flag`. -/
def FrameHeader.hasFlag (header : FrameHeader) (flag : UInt8) : Bool := header.flags &&& flag != 0

/-- `frame_header::write_to`. -/
def FrameHeader.writeTo (header : FrameHeader) : Bytes :=
  [byteAt header.length 16, byteAt header.length 8, byteAt header.length 0,
    header.type.toByte, header.flags] ++ putUint32 (header.streamId % 2 ^ 31)

/-- `frame_header::read_from`. -/
def FrameHeader.readFrom (buf : Bytes) : FrameHeader where
  length := (buf.getD 0 0).toNat * 2 ^ 16 + (buf.getD 1 0).toNat * 2 ^ 8 + (buf.getD 2 0).toNat
  type := .ofByte (buf.getD 3 0)
  flags := buf.getD 4 0
  streamId := getUint32 buf 5 % 2 ^ 31

structure Frame where
  hdr : FrameHeader
  payload : Bytes
  deriving DecidableEq, Repr

/-- `build_frame`. -/
def buildFrame (type : FrameType) (flags : UInt8) (streamId : Nat) (payload : Bytes) : Bytes :=
  FrameHeader.writeTo { length := payload.length, type, flags, streamId } ++ payload

/-- The frame that is read where `build_frame` wrote. -/
def Frame.ofPayload (type : FrameType) (flags : UInt8) (streamId : Nat) (payload : Bytes) : Frame :=
  { hdr := { length := payload.length, type, flags, streamId }, payload }

/-- The six bytes of one setting. -/
def putSetting (setting : SettingEntry) : Bytes :=
  [byteAt setting.id.toNat 8, byteAt setting.id.toNat 0] ++ putUint32 setting.value

/-- `build_settings_frame`. -/
def buildSettingsFrame (settings : List SettingEntry) (ack : Bool) : Bytes :=
  buildFrame .settings (if ack then Flag.ack else Flag.none) 0
    (if ack then [] else settings.flatMap putSetting)

/-- `build_window_update`. -/
def buildWindowUpdate (streamId increment : Nat) : Bytes :=
  buildFrame .windowUpdate 0 streamId (putUint32 (increment % 2 ^ 31))

/-- `build_goaway`. -/
def buildGoaway (lastStreamId : Nat) (error : ErrorCode) (debugData : Bytes) : Bytes :=
  buildFrame .goaway 0 0
    (putUint32 (lastStreamId % 2 ^ 31) ++ putUint32 error.toNat ++ debugData)

/-- `build_rst_stream`. -/
def buildRstStream (streamId : Nat) (error : ErrorCode) : Bytes :=
  buildFrame .rstStream 0 streamId (putUint32 error.toNat)

/-- `build_ping`. -/
def buildPing (opaqueData : Bytes) (ack : Bool) : Bytes :=
  buildFrame .ping (if ack then Flag.ack else 0) 0 (opaqueData.take 8)

/-- `build_push_promise`: `END_HEADERS` is always set. -/
def buildPushPromise (streamId promisedStreamId : Nat) (headerBlock : Bytes) : Bytes :=
  buildFrame .pushPromise Flag.endHeaders streamId
    (putUint32 (promisedStreamId % 2 ^ 31) ++ headerBlock)

/-- The settings of a payload whose length is `count` parameters. -/
def parseSettingsFrom : Nat → Bytes → List SettingEntry
  | 0, _ => []
  | count + 1, payload =>
      { id := .ofNat ((payload.getD 0 0).toNat * 2 ^ 8 + (payload.getD 1 0).toNat)
        value := getUint32 payload 2 } ::
        parseSettingsFrom count (payload.drop settingsParamSize)

/-- `parse_settings`. -/
def parseSettings (payload : Bytes) : List SettingEntry :=
  if payload.length % settingsParamSize ≠ 0 then []
  else parseSettingsFrom (payload.length / settingsParamSize) payload

/-- `parse_window_update`. -/
def parseWindowUpdate (payload : Bytes) : Nat :=
  if payload.length < 4 then 0 else getUint32 payload 0 % 2 ^ 31

/-- `parse_push_promise`: the promised stream and the header block. -/
def parsePushPromise (payload : Bytes) : Nat × Bytes :=
  if payload.length < 4 then (0, []) else (getUint32 payload 0 % 2 ^ 31, payload.drop 4)

/-- `goaway_data`. -/
structure GoawayData where
  lastStreamId : Nat := 0
  ec : ErrorCode := .noErr
  debugData : Bytes := []
  deriving DecidableEq, Repr

/-- `parse_goaway`. -/
def parseGoaway (payload : Bytes) : GoawayData :=
  if payload.length < 8 then {}
  else
    { lastStreamId := getUint32 payload 0 % 2 ^ 31
      ec := .ofNat (getUint32 payload 4)
      debugData := payload.drop 8 }

/-! ### The frame reader -/

/-- `frame_reader`. The bytes of `header_buf_` past `header_buf_len_` are never read, and a
`current_length_` of `SIZE_MAX` (the header is not parsed yet) is `none`. -/
structure FrameReader where
  headerBuf : Bytes := []
  currentHeader : FrameHeader := {}
  currentLength : Option Nat := none
  payloadBuf : Bytes := []
  deriving DecidableEq, Repr

namespace FrameReader

/-- `payload_buf_.size() < current_length_`. -/
def wantsPayload (reader : FrameReader) : Bool :=
  match reader.currentLength with
  | none => true
  | some length => reader.payloadBuf.length < length

/-- The bytes of the payload that are still missing. -/
def payloadNeed (reader : FrameReader) (available : Nat) : Nat :=
  match reader.currentLength with
  | none => available
  | some length => length - reader.payloadBuf.length

/-- The end of each pass of `feed`: a header that has just become complete is parsed. -/
def parseHeader (reader : FrameReader) : FrameReader :=
  if reader.headerBuf.length = frameHeaderSize ∧ reader.currentLength = none then
    let header := FrameHeader.readFrom reader.headerBuf
    { reader with currentHeader := header, currentLength := some header.length, payloadBuf := [] }
  else reader

/-- The loop of `frame_reader::feed`. Every pass takes a byte or stops, so the number of bytes
bounds the passes. The second component is what was not consumed. -/
def feedLoop : Nat → FrameReader → Bytes → FrameReader × Bytes
  | 0, reader, data => (reader, data)
  | passes + 1, reader, data =>
      if data = [] then (reader, [])
      else if reader.headerBuf.length < frameHeaderSize then
        let take := min (frameHeaderSize - reader.headerBuf.length) data.length
        feedLoop passes
          (parseHeader { reader with headerBuf := reader.headerBuf ++ data.take take })
          (data.drop take)
      else if reader.wantsPayload then
        let take := min (reader.payloadNeed data.length) data.length
        feedLoop passes
          (parseHeader { reader with payloadBuf := reader.payloadBuf ++ data.take take })
          (data.drop take)
      else (reader, data)

/-- `frame_reader::feed`, with the bytes it leaves. -/
def feed (reader : FrameReader) (data : Bytes) : FrameReader × Bytes :=
  feedLoop data.length reader data

/-- `frame_reader::has_frame`. -/
def hasFrame (reader : FrameReader) : Bool :=
  reader.headerBuf.length = frameHeaderSize && !reader.wantsPayload

/-- `frame_reader::take_frame`. -/
def takeFrame (reader : FrameReader) : Frame × FrameReader :=
  ({ hdr := reader.currentHeader, payload := reader.payloadBuf },
    { reader with headerBuf := [], currentLength := none, payloadBuf := [] })

end FrameReader

end AsyncNet.Http.H2
