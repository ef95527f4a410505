/-
This file models the QPACK codec of `src/http/qpack.cpp` (RFC 9204): the dynamic table
and `process_encoder_instructions`, which the encoder stream of a peer drives, the
encoder, which only uses the static table, and the decoder of field sections. Its
integers, its Huffman code and its eviction are those of HPACK.
-/

import AsyncNet.Http.Hpack

namespace AsyncNet.Http.H3

open AsyncNet.Http.H2

/-- `qpack_static_table`. -/
def qpackStaticTable : List Header :=
  [(":authority", ""), (":path", "/"), ("age", "0"), ("content-disposition", ""),
    ("content-length", "0"), ("cookie", ""), ("date", ""), ("etag", ""), ("if-modified-since", ""),
    ("if-none-match", ""), ("last-modified", ""), ("link", ""), ("location", ""), ("referer", ""),
    ("set-cookie", ""), (":method", "CONNECT"), (":method", "DELETE"), (":method", "GET"),
    (":method", "HEAD"), (":method", "OPTIONS"), (":method", "POST"), (":method", "PUT"),
    (":scheme", "http"), (":scheme", "https"), (":status", "103"), (":status", "200"),
    (":status", "304"), (":status", "404"), (":status", "503"), ("accept", "*/*"),
    ("accept", "application/dns-message"), ("accept-encoding", "gzip, deflate, br"),
    ("accept-ranges", "bytes"), ("access-control-allow-headers", "cache-control"),
    ("access-control-allow-headers", "content-type"), ("access-control-allow-origin", "*"),
    ("cache-control", "max-age=0"), ("cache-control", "max-age=2592000"),
    ("cache-control", "max-age=604800"), ("cache-control", "no-cache"),
    ("cache-control", "no-store"), ("cache-control", "public, max-age=31536000"),
    ("content-encoding", "br"), ("content-encoding", "gzip"),
    ("content-type", "application/dns-message"), ("content-type", "application/javascript"),
    ("content-type", "application/json"), ("content-type", "application/x-www-form-urlencoded"),
    ("content-type", "image/gif"), ("content-type", "image/jpeg"), ("content-type", "image/png"),
    ("content-type", "text/css"), ("content-type", "text/html; charset=utf-8"),
    ("content-type", "text/plain"), ("content-type", "text/plain;charset=utf-8"),
    ("range", "bytes=0-"), ("strict-transport-security", "max-age=31536000"),
    ("strict-transport-security", "max-age=31536000; includesubdomains"),
    ("strict-transport-security", "max-age=31536000; includesubdomains; preload"),
    ("vary", "accept-encoding"), ("vary", "origin"), ("x-content-type-options", "nosniff"),
    ("x-xss-protection", "1; mode=block"), (":status", "100"), (":status", "204"),
    (":status", "206"), (":status", "302"), (":status", "400"), (":status", "403"),
    (":status", "421"), (":status", "425"), (":status", "500"), ("accept-language", ""),
    ("access-control-allow-credentials", "FALSE"), ("access-control-allow-credentials", "TRUE"),
    ("access-control-allow-headers", "*"), ("access-control-allow-methods", "get"),
    ("access-control-allow-methods", "get, post, options"),
    ("access-control-allow-methods", "options"),
    ("access-control-expose-headers", "content-length"),
    ("access-control-request-headers", "content-type"), ("access-control-request-method", "get"),
    ("access-control-request-method", "post"), ("alt-svc", "clear"), ("authorization", ""),
    ("content-security-policy", "script-src 'none'; object-src 'none'; base-uri 'none'"),
    ("early-data", "1"), ("expect-ct", ""), ("forwarded", ""), ("if-range", ""), ("origin", ""),
    ("purpose", "prefetch"), ("server", ""), ("timing-allow-origin", "*"),
    ("upgrade-insecure-requests", "1"), ("user-agent", ""), ("x-forwarded-for", ""),
    ("x-frame-options", "deny"), ("x-frame-options", "sameorigin")].map
    fun entry => (ascii entry.1, ascii entry.2)

/-- `qpack_decode_int`, a copy of `hpack_decode_int`. -/
def qpackDecodeInt (buf : Bytes) (prefixBits : Nat) : Option (Nat × Nat) :=
  hpackDecodeInt buf prefixBits

/-- `qpack_decode_string`: the string and the `int` it returns, `0` on failure. A string that has
octets and decodes to nothing is a failure here. -/
def qpackDecodeString (buf : Bytes) : Except Fault (Bytes × Int) :=
  let huffman := buf.getD 0 0 &&& 0x80 ≠ 0
  match qpackDecodeInt buf 7 with
  | none => .ok ([], 0)
  | some (strLen, consumed) =>
      if buf.length < (consumed + strLen) % 2 ^ 64 then .ok ([], 0)
      else if buf.length < consumed + strLen then
        .error (if huffman then .outOfBounds else .lengthError)
      else
        let octets := (buf.drop consumed).take strLen
        let out := if huffman then huffmanDecode octets else octets
        if huffman ∧ out = [] ∧ 0 < strLen then .ok ([], 0)
        else .ok (out, wrapInt32 (consumed + wrapInt32 strLen))

/-- `qpack_encode_int`, a copy of `hpack_encode_int`. -/
def qpackEncodeInt (bufsize value prefixBits : Nat) (firstByteMask : UInt8) : Bytes :=
  hpackEncodeInt bufsize value prefixBits firstByteMask

/-- `qpack_encode_string`, a copy of `encode_string`. -/
def qpackEncodeString (text : Bytes) : Bytes :=
  if huffmanIsShorter text then
    qpackEncodeInt 16 (huffmanEncode text).length 7 0x80 ++ huffmanEncode text
  else qpackEncodeInt 16 text.length 7 0x00 ++ text

/-! ### The encoder -/

/-- `qpack_encoder::find_static`. -/
def findStatic (name value : Bytes) : Option Nat :=
  qpackStaticTable.findIdx? fun entry => entry.1 = name && entry.2 = value

/-- `qpack_encoder::find_static_name`. -/
def findStaticName (name : Bytes) : Option Nat :=
  qpackStaticTable.findIdx? fun entry => entry.1 = name

/-- The loop body of `qpack_encoder::encode_static`: an index, a name reference or a literal. -/
def encodeFieldLine (header : Header) : Bytes :=
  match findStatic header.1 header.2 with
  | some index => qpackEncodeInt 64 index 6 0xC0
  | none =>
      match findStaticName header.1 with
      | some nameIndex => qpackEncodeInt 64 nameIndex 4 0x50 ++ qpackEncodeString header.2
      | none => [0x20] ++ qpackEncodeString header.1 ++ qpackEncodeString header.2

/-- `qpack_encoder::encode_static`, with its two bytes for no insertion and no base. -/
def encodeStatic (headers : Headers) : Bytes := [0x00, 0x00] ++ headers.flatMap encodeFieldLine

/-! ### The dynamic table -/

/-- `qpack_dynamic_table`. -/
structure QpackDynamicTable where
  table : HpackDynamicTable := { maxSize := 4096 }
  insertCount : Nat := 0
  deriving DecidableEq

namespace QpackDynamicTable

/-- `qpack_dynamic_table::insert`. An entry that cannot fit is counted all the same. -/
def insert (dynamicTable : QpackDynamicTable) (name value : Bytes) : QpackDynamicTable :=
  { table := dynamicTable.table.add (name, value), insertCount := dynamicTable.insertCount + 1 }

/-- `qpack_dynamic_table::set_max_size`. -/
def setMaxSize (dynamicTable : QpackDynamicTable) (maxSize : Nat) : QpackDynamicTable :=
  { dynamicTable with table := dynamicTable.table.resize maxSize }

/-- `qpack_dynamic_table::get`, with zero-based indices. -/
def get (dynamicTable : QpackDynamicTable) (index : Nat) : Option Header :=
  dynamicTable.table.entries[index]?

end QpackDynamicTable

/-! ### The encoder stream -/

structure QpackDecoder where
  dynamicTable : QpackDynamicTable := {}
  maxTableSize : Nat := 4096
  knownReceivedCount : Nat := 0
  deriving DecidableEq

/-- A call of `qpack_decode_string` by the instruction loop, which stops at a result that is not
positive. -/
def readString (rest : Bytes) : Except Fault (Option (Bytes × Bytes)) := do
  let (text, consumed) ← qpackDecodeString rest
  return if consumed ≤ 0 then none else some (text, rest.drop consumed.toNat)

namespace QpackDecoder

/-- The insertion of an entry and its acknowledgement. -/
def insert (decoder : QpackDecoder) (name value : Bytes) : QpackDecoder :=
  { decoder with
    dynamicTable := decoder.dynamicTable.insert name value
    knownReceivedCount := decoder.knownReceivedCount + 1 }

/-- The end of the insert instructions: the value and the insertion. -/
def insertValue (decoder : QpackDecoder) (name rest : Bytes) :
    Except Fault (Option (QpackDecoder × Bytes)) := do
  match ← readString rest with
  | none => return none
  | some (value, rest) => return some (decoder.insert name value, rest)

/-- One pass of the loop of `process_encoder_instructions`, `none` for its `break`s. The test for
`Set Dynamic Table Capacity` comes after one that any such instruction passes. -/
def instruction (decoder : QpackDecoder) (rest : Bytes) :
    Except Fault (Option (QpackDecoder × Bytes)) :=
  let byte := rest.getD 0 0
  if byte &&& 0xC0 = 0xC0 then
    match qpackDecodeInt rest 5 with
    | none => .ok none
    | some (nameIdx, consumed) =>
        let name := if byte &&& 0x20 ≠ 0 then (qpackStaticTable[nameIdx]?.map (·.1)).getD [] else []
        decoder.insertValue name (rest.drop consumed)
  else if byte &&& 0xC0 = 0x00 ∧ byte &&& 0x20 ≠ 0 then
    match qpackDecodeInt rest 5 with
    | none => .ok none
    | some (nameIdx, consumed) =>
        let name := ((decoder.dynamicTable.get nameIdx).map (·.1)).getD []
        decoder.insertValue name (rest.drop consumed)
  else if byte &&& 0xE0 = 0x40 then do
    match ← readString (rest.drop 1) with
    | none => return none
    | some (name, rest) => decoder.insertValue name rest
  else if byte &&& 0xE0 = 0x20 then
    match qpackDecodeInt rest 5 with
    | none => .ok none
    | some (capacity, consumed) =>
        .ok (some ({ decoder with dynamicTable := decoder.dynamicTable.setMaxSize capacity },
          rest.drop consumed))
  else if byte &&& 0xE0 = 0x00 ∧ byte &&& 0x10 = 0x00 then
    match qpackDecodeInt rest 4 with
    | none => .ok none
    | some (index, consumed) =>
        let dynamicTable :=
          match decoder.dynamicTable.get index with
          | none => decoder.dynamicTable
          | some entry => decoder.dynamicTable.insert entry.1 entry.2
        .ok (some ({ decoder with
          dynamicTable := dynamicTable, knownReceivedCount := decoder.knownReceivedCount + 1 },
          rest.drop consumed))
  else .ok none

/-- The loop of `process_encoder_instructions`. Every pass takes at least one byte, so the number
of bytes bounds the passes. -/
def instructionLoop : Nat → QpackDecoder → Bytes → Except Fault QpackDecoder
  | 0, decoder, _ => .ok decoder
  | passes + 1, decoder, rest =>
      if rest = [] then .ok decoder
      else do
        match ← decoder.instruction rest with
        | none => return decoder
        | some (decoder, rest) => instructionLoop passes decoder rest

/-- `process_encoder_instructions`. -/
def processEncoderInstructions (decoder : QpackDecoder) (data : Bytes) :
    Except Fault QpackDecoder :=
  instructionLoop data.length decoder data

/-! ### Field sections -/

/-- The name of a literal with a name reference. -/
def referredName (decoder : QpackDecoder) (isStatic : Bool) (nameIdx : Nat) : Option Bytes :=
  if isStatic then qpackStaticTable[nameIdx]?.map (·.1)
  else (decoder.dynamicTable.get nameIdx).map (·.1)

/-- `qpack_decode_string` at a position of a field line, which a negative `int` takes before the
line. -/
def stringAt (data : Bytes) (consumed : Int) : Except Fault (Bytes × Int) :=
  if consumed < 0 then .error .negativeAdvance else qpackDecodeString (data.drop consumed.toNat)

/-- A literal with a name reference: its value is at the position after the reference. -/
def valueLine (data name : Bytes) (consumed : Int) : Except Fault (Option (Header × Int)) := do
  let (value, length) ← stringAt data consumed
  return if length = 0 then none else some ((name, value), wrapInt32 (consumed + length))

/-- A literal without a name reference. -/
def literalLine (data : Bytes) : Except Fault (Option (Header × Int)) := do
  let (name, length) ← stringAt data 1
  if length = 0 then return none
  valueLine data name (wrapInt32 (1 + length))

/-- `qpack_decoder::decode_field_line`: the header and the `int` it returns, none for `0`. -/
def decodeFieldLine (decoder : QpackDecoder) (data : Bytes) (base : Nat) :
    Except Fault (Option (Header × Int)) :=
  let byte := data.getD 0 0
  if data = [] then .ok none
  else if byte &&& 0xC0 = 0xC0 then
    match qpackDecodeInt data 6 with
    | none => .ok none
    | some (index, consumed) => .ok (qpackStaticTable[index]?.map fun entry => (entry, consumed))
  else if byte &&& 0xE0 = 0xA0 then
    match qpackDecodeInt data 5 with
    | none => .ok none
    | some (index, consumed) =>
        .ok ((decoder.dynamicTable.get ((base + index) % 2 ^ 64)).map fun entry =>
          (entry, consumed))
  else if byte &&& 0xC0 = 0x40 then
    match qpackDecodeInt data 4 with
    | none => .ok none
    | some (nameIdx, consumed) =>
        match decoder.referredName (byte &&& 0x10 ≠ 0) nameIdx with
        | none => .ok none
        | some name => valueLine data name consumed
  else if byte &&& 0xE0 = 0x20 then literalLine data
  else if byte &&& 0xF0 = 0x00 ∧ byte &&& 0x0C = 0x00 then
    match qpackDecodeInt data 4 with
    | none => .ok none
    | some (index, consumed) =>
        .ok ((decoder.dynamicTable.get index).map fun entry => (entry, consumed))
  else .ok none

/-- The Required Insert Count that a field section encodes; the sums are those of `size_t`. -/
def requiredInsertCount (decoder : QpackDecoder) (encoded : Nat) : Nat :=
  if encoded = 0 then 0
  else
    let maxEntries := decoder.maxTableSize / 32
    let fullRange := if 2 * maxEntries = 0 then 1 else 2 * maxEntries
    let maxValue := decoder.dynamicTable.insertCount + maxEntries
    let count := (maxValue / fullRange * fullRange + (encoded - 1)) % 2 ^ 64
    let count := if maxValue < count then (count + 2 ^ 64 - fullRange) % 2 ^ 64 else count
    (count + 1) % 2 ^ 64

/-- The base of a field section; the sums are those of `size_t`. -/
def sectionBase (count deltaBase : Nat) (negative : Bool) : Nat :=
  if count = 0 then 0
  else if negative then (count + 2 * 2 ^ 64 - 1 - deltaBase) % 2 ^ 64
  else (count - 1 + deltaBase) % 2 ^ 64

/-- The loop of `qpack_decoder::decode` from an `int` position on. A pass that goes on moves
forward or leaves the range of `int`, so the number of bytes bounds the passes. -/
def fieldLines (decoder : QpackDecoder) (data : Bytes) (base : Nat) :
    Nat → Int → Except Fault Headers
  | 0, _ => .ok []
  | passes + 1, position =>
      if position < wrapInt32 data.length then
        if position < 0 then .error .negativeAdvance
        else do
          match ← decoder.decodeFieldLine (data.drop position.toNat) base with
          | none => return []
          | some (header, length) =>
              if length ≤ 0 then return []
              return header ::
                (← decoder.fieldLines data base passes (wrapInt32 (position + length)))
      else .ok []

/-- `qpack_decoder::decode`. -/
def decode (decoder : QpackDecoder) (data : Bytes) : Except Fault Headers :=
  if data.length < 2 then .ok []
  else
    match qpackDecodeInt data 8 with
    | none => .ok []
    | some (encoded, consumed) =>
        match qpackDecodeInt (data.drop consumed) 7 with
        | none => .ok []
        | some (deltaBase, deltaConsumed) =>
            let base := sectionBase (decoder.requiredInsertCount encoded) deltaBase
              (data.getD consumed 0 &&& 0x80 ≠ 0)
            decoder.fieldLines data base (data.length + 1)
              (wrapInt32 ((consumed + deltaConsumed : Nat) : Int))

end QpackDecoder

end AsyncNet.Http.H3
