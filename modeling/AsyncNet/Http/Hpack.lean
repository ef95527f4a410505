/-
This file models the HPACK codec of `src/http/hpack.cpp` (RFC 7541): prefix
integers, string literals, the static and the dynamic table, the encoder and the
decoder. The decoder walks a byte buffer with a position; here it walks the bytes
that are left. `size_t` and `uint64_t` values are natural numbers with the
reductions written out where the source can wrap, and the lengths it narrows to
`int` are narrowed here.

Two things a peer can send have no value in C++: a string length that wraps the
bounds check around, after which the octets are read past the buffer, unless the
Huffman decoder gives up before, or `std::string::assign` throws, and a string of
2^31 octets or more whose `int` length is negative, after which the position runs
backwards. Decoding ends in a `Fault` there.
-/

import AsyncNet.Http.Huffman

namespace AsyncNet.Http.H2

/-- How decoding can end without a value: a read past the end of the buffer, the
`std::length_error` of `std::string::assign`, or a position that runs backwards. -/
inductive Fault where
  | outOfBounds | lengthError | negativeAdvance
  deriving DecidableEq, Repr

/-! ### Prefix integers -/

/-- The continuation bytes of `hpack_encode_int`, with `space` bytes left in the buffer. -/
def encodeIntTail : Nat → Nat → Option Bytes
  | 0, _ => none
  | space + 1, value =>
      if 128 ≤ value then
        (encodeIntTail space (value >>> 7)).map fun tail =>
          UInt8.ofNat (value &&& 0x7F ||| 0x80) :: tail
      else some [UInt8.ofNat value]

/-- `hpack_encode_int`: the bytes it returns the number of. -/
def hpackEncodeInt (bufsize value prefixBits : Nat) (firstByteMask : UInt8) : Bytes :=
  let maxPrefix := 2 ^ prefixBits - 1
  if bufsize = 0 then []
  else if value < maxPrefix then [firstByteMask ||| UInt8.ofNat value]
  else
    match encodeIntTail (bufsize - 1) (value - maxPrefix) with
    | none => []
    | some tail => (firstByteMask ||| UInt8.ofNat maxPrefix) :: tail

/-- The continuation loop of `hpack_decode_int`. A shift of 64 or more is undefined in C++; it
is taken modulo 64, as the hardware does. -/
def decodeIntTail : Bytes → Nat → Nat → Nat → Option (Nat × Nat)
  | [], _, _, _ => none
  | byte :: rest, shift, value, pos =>
      let value := (value + ((byte &&& 0x7F).toNat <<< (shift % 64)) % 2 ^ 64) % 2 ^ 64
      if byte &&& 0x80 ≠ 0 then decodeIntTail rest (shift + 7) value (pos + 1)
      else some (value, pos + 1)

/-- `hpack_decode_int`: the value and the number of bytes consumed. -/
def hpackDecodeInt (buf : Bytes) (prefixBits : Nat) : Option (Nat × Nat) :=
  match buf with
  | [] => none
  | first :: rest =>
      let maxPrefix := 2 ^ prefixBits - 1
      let value := first.toNat &&& maxPrefix
      if value < maxPrefix then some (value, 1) else decodeIntTail rest 0 value 1

/-! ### Strings -/

/-- `encode_string`. -/
def encodeString (text : Bytes) : Bytes :=
  if huffmanIsShorter text then
    hpackEncodeInt 16 (huffmanEncode text).length 7 0x80 ++ huffmanEncode text
  else hpackEncodeInt 16 text.length 7 0x00 ++ text

/-- The conversion of a value to a 32-bit `int`. -/
def wrapInt32 (value : Int) : Int := (value + 2 ^ 31) % 2 ^ 32 - 2 ^ 31

/-- `decode_string`: the string and the `int` it reports as consumed, `0` on failure. -/
def decodeString (data : Bytes) : Except Fault (Bytes × Int) :=
  let huffman := data.getD 0 0 &&& 0x80 ≠ 0
  match hpackDecodeInt data 7 with
  | none => .ok ([], 0)
  | some (strLen, consumed) =>
      if data.length < (consumed + strLen) % 2 ^ 64 then .ok ([], 0)
      else if data.length < consumed + strLen then
        if huffman then
          -- the bit loop gives up inside the buffer, or it goes on past its end
          match ((data.drop consumed).flatMap bitsOf).foldlM HuffmanState.step {} with
          | none => .ok ([], wrapInt32 (consumed + wrapInt32 strLen))
          | some _ => .error .outOfBounds
        else .error .lengthError
      else
        let octets := (data.drop consumed).take strLen
        .ok (if huffman then huffmanDecode octets else octets,
          wrapInt32 (consumed + wrapInt32 strLen))

/-! ### The static table -/

/-- `hpack_static_table`, with the placeholder at index 0. -/
def hpackStaticTable : List Header :=
  [("", ""), (":authority", ""), (":method", "GET"), (":method", "POST"), (":path", "/"),
    (":path", "/index.html"), (":scheme", "http"), (":scheme", "https"), (":status", "200"),
    (":status", "204"), (":status", "206"), (":status", "304"), (":status", "400"),
    (":status", "404"), (":status", "500"), ("accept-charset", ""),
    ("accept-encoding", "gzip, deflate"), ("accept-language", ""), ("accept-ranges", ""),
    ("accept", ""), ("access-control-allow-origin", ""), ("age", ""), ("allow", ""),
    ("authorization", ""), ("cache-control", ""), ("content-disposition", ""),
    ("content-encoding", ""), ("content-language", ""), ("content-length", ""),
    ("content-location", ""), ("content-range", ""), ("content-type", ""), ("cookie", ""),
    ("date", ""), ("etag", ""), ("expect", ""), ("expires", ""), ("from", ""), ("host", ""),
    ("if-match", ""), ("if-modified-since", ""), ("if-none-match", ""), ("if-range", ""),
    ("if-unmodified-since", ""), ("last-modified", ""), ("link", ""), ("location", ""),
    ("max-forwards", ""), ("proxy-authenticate", ""), ("proxy-authorization", ""), ("range", ""),
    ("referer", ""), ("refresh", ""), ("retry-after", ""), ("server", ""), ("set-cookie", ""),
    ("strict-transport-security", ""), ("transfer-encoding", ""), ("user-agent", ""),
    ("vary", ""), ("via", ""), ("www-authenticate", "")].map
    fun entry => (ascii entry.1, ascii entry.2)

/-- The loop of `hpack_find_static` from an index on. -/
def findStaticFrom (name value : Bytes) : List Header → Nat → Nat → Nat × Bool
  | [], _, nameMatch => (nameMatch, false)
  | entry :: rest, index, nameMatch =>
      if entry.1 = name then
        if entry.2 = value then (index, true)
        else findStaticFrom name value rest (index + 1) (if nameMatch = 0 then index else nameMatch)
      else findStaticFrom name value rest (index + 1) nameMatch

/-- `hpack_find_static`. -/
def hpackFindStatic (name value : Bytes) : Nat × Bool :=
  findStaticFrom name value (hpackStaticTable.drop 1) 1 0

/-! ### The dynamic table -/

/-- `entry_size` (RFC 7541 §4.1). -/
def entrySize (entry : Header) : Nat := entry.1.length + entry.2.length + 32

/-- The sum of the sizes of a list of entries. -/
def entriesSize (entries : List Header) : Nat := (entries.map entrySize).sum

theorem entriesSize_nil : entriesSize [] = 0 := rfl

/-- `hpack_dynamic_table`, newest entry first. The recorded size is the size of the entries. -/
@[ext] structure HpackDynamicTable where
  maxSize : Nat
  entries : List Header := []
  currentSize : Nat := entriesSize entries
  accounted : currentSize = entriesSize entries := by first | exact entriesSize_nil | rfl
  deriving DecidableEq

theorem entriesSize_dropLast (entries : List Header) (back : Header)
    (last : entries.getLast? = some back) :
    entriesSize entries - entrySize back = entriesSize entries.dropLast := by
  obtain ⟨front, rfl⟩ := List.getLast?_eq_some_iff.mp last
  simp [entriesSize]

namespace HpackDynamicTable

/-- `hpack_dynamic_table::evict`: the oldest entry leaves. -/
def evict (table : HpackDynamicTable) : HpackDynamicTable :=
  match last : table.entries.getLast? with
  | none => table
  | some back =>
      { table with
        currentSize := table.currentSize - entrySize back
        entries := table.entries.dropLast
        accounted := by rw [table.accounted, entriesSize_dropLast _ _ last] }

/-- The eviction loop of `add`, and of `resize` with no room asked for. -/
def makeRoom (room : Nat) : Nat → HpackDynamicTable → HpackDynamicTable
  | 0, table => table
  | passes + 1, table =>
      if table.maxSize < table.currentSize + room ∧ table.entries ≠ [] then
        makeRoom room passes table.evict
      else table

/-- `hpack_dynamic_table::add`. -/
def add (table : HpackDynamicTable) (entry : Header) : HpackDynamicTable :=
  let evicted := makeRoom (entrySize entry) table.entries.length table
  if entrySize entry ≤ table.maxSize then
    { evicted with
      entries := entry :: evicted.entries
      currentSize := evicted.currentSize + entrySize entry
      accounted := by rw [evicted.accounted]; simp [entriesSize]; omega }
  else evicted

/-- `hpack_dynamic_table::resize`. -/
def resize (table : HpackDynamicTable) (newMaxSize : Nat) : HpackDynamicTable :=
  makeRoom 0 table.entries.length { table with maxSize := newMaxSize }

/-- `hpack_dynamic_table::get`, with one-based indices. -/
def get (table : HpackDynamicTable) (index : Nat) : Option Header :=
  if index = 0 ∨ table.entries.length < index then none else table.entries[index - 1]?

end HpackDynamicTable

/-! ### The encoder -/

structure HpackEncoder where
  dynamicTable : HpackDynamicTable := { maxSize := 4096 }
  maxTableSize : Nat := 4096
  tableSizeUpdated : Bool := false

/-- `hpack_encoder::set_max_table_size`. -/
def HpackEncoder.setMaxTableSize (encoder : HpackEncoder) (size : Nat) : HpackEncoder :=
  { maxTableSize := size, dynamicTable := encoder.dynamicTable.resize size,
    tableSizeUpdated := true }

/-- The representation `hpack_encoder::encode` chooses for one header. -/
def encodeHeader (header : Header) : Bytes :=
  let (staticIdx, staticExact) := hpackFindStatic header.1 header.2
  if staticExact then hpackEncodeInt 16 staticIdx 7 0x80
  else hpackEncodeInt 16 0 4 0x00 ++ encodeString header.1 ++ encodeString header.2

/-- `hpack_encoder::encode`. -/
def HpackEncoder.encode (encoder : HpackEncoder) (headers : Headers) : Bytes × HpackEncoder :=
  let update :=
    if encoder.tableSizeUpdated then hpackEncodeInt 16 encoder.maxTableSize 5 0x20 else []
  (update ++ headers.flatMap encodeHeader, { encoder with tableSizeUpdated := false })

/-! ### The decoder -/

structure HpackDecoder where
  dynamicTable : HpackDynamicTable := { maxSize := 4096 }
  maxTableSize : Nat := 4096
  deriving DecidableEq

/-- What one pass of the decoding loop does: it rejects the block, emits a header that may be
due for insertion, or resizes the dynamic table. -/
inductive DecodePass where
  | reject
  | emit (header : Header) (indexed : Bool) (rest : Bytes)
  | resize (newSize : Nat) (rest : Bytes)

/-- The pass of a literal, which is due for insertion or not. -/
def DecodePass.ofLiteral (indexed : Bool) : Option (Header × Bytes) → DecodePass
  | none => .reject
  | some (header, rest) => .emit header indexed rest

/-- `pos += c` for the `int` that `decode_string` reported. -/
def advance (rest : Bytes) (consumed : Int) : Except Fault Bytes :=
  if consumed < 0 then .error .negativeAdvance else .ok (rest.drop consumed.toNat)

/-- A call of `decode_string` by the decoder: the string and what follows it, `none` if the call
reports `0`. -/
def readString (rest : Bytes) : Except Fault (Option (Bytes × Bytes)) := do
  let (text, consumed) ← decodeString rest
  if consumed = 0 then return none
  return some (text, ← advance rest consumed)

namespace HpackDecoder

/-- `hpack_decoder` constructed with a table size. -/
def create (maxTableSize : UInt64) : HpackDecoder :=
  { dynamicTable := { maxSize := maxTableSize.toNat }, maxTableSize := maxTableSize.toNat }

/-- `hpack_decoder::set_max_table_size`. -/
def setMaxTableSize (decoder : HpackDecoder) (size : Nat) : HpackDecoder :=
  { maxTableSize := size, dynamicTable := decoder.dynamicTable.resize size }

/-- `hpack_decoder::get_indexed`. -/
def getIndexed (decoder : HpackDecoder) (index : Nat) : Option Header :=
  if 0 < index ∧ index < hpackStaticTable.length then hpackStaticTable[index]?
  else decoder.dynamicTable.get ((index + 2 ^ 64 - hpackStaticTable.length) % 2 ^ 64)

/-- The name of a literal: a table reference, or a string if the index is 0. -/
def literalName (decoder : HpackDecoder) (nameIndex : Nat) (rest : Bytes) :
    Except Fault (Option (Bytes × Bytes)) :=
  if 0 < nameIndex then
    .ok ((decoder.getIndexed nameIndex).map fun entry => (entry.1, rest))
  else readString rest

/-- A literal representation, whose index has the given prefix. -/
def literal (decoder : HpackDecoder) (prefixBits : Nat) (rest : Bytes) :
    Except Fault (Option (Header × Bytes)) :=
  match hpackDecodeInt rest prefixBits with
  | none => .ok none
  | some (nameIndex, consumed) => do
      match ← decoder.literalName nameIndex (rest.drop consumed) with
      | none => return none
      | some (name, rest) =>
          match ← readString rest with
          | none => return none
          | some (value, rest) => return some ((name, value), rest)

/-- One pass of the loop of `hpack_decoder::decode`. -/
def decodePass (decoder : HpackDecoder) (rest : Bytes) : Except Fault DecodePass :=
  let byte := rest.getD 0 0
  if byte &&& 0x80 ≠ 0 then
    match hpackDecodeInt rest 7 with
    | none => .ok .reject
    | some (index, consumed) =>
        if index = 0 then .ok .reject
        else
          match decoder.getIndexed index with
          | none => .ok .reject
          | some header => .ok (.emit header false (rest.drop consumed))
  else if byte &&& 0x40 ≠ 0 then (decoder.literal 6 rest).map (DecodePass.ofLiteral true)
  else if byte &&& 0x20 ≠ 0 then
    match hpackDecodeInt rest 5 with
    | none => .ok .reject
    | some (newSize, consumed) => .ok (.resize newSize (rest.drop consumed))
  else (decoder.literal 4 rest).map (DecodePass.ofLiteral false)

/-- The loop of `hpack_decoder::decode`. Every pass takes at least one byte, so the number of
bytes bounds the passes. New entries are collected and added when the block is done; `none`
stands for the early returns. -/
def decodeLoop : Nat → HpackDecoder → Bytes → Headers → Headers →
    Except Fault (Option Headers × HpackDecoder)
  | 0, decoder, rest, result, newEntries =>
      if rest = [] then
        .ok (some result,
          { decoder with
            dynamicTable := newEntries.foldl HpackDynamicTable.add decoder.dynamicTable })
      else .ok (none, decoder)
  | passes + 1, decoder, rest, result, newEntries =>
      if rest = [] then
        .ok (some result,
          { decoder with
            dynamicTable := newEntries.foldl HpackDynamicTable.add decoder.dynamicTable })
      else do
        match ← decoder.decodePass rest with
        | .reject => return (none, decoder)
        | .emit header indexed rest =>
            decodeLoop passes decoder rest (result ++ [header])
              (if indexed then newEntries ++ [header] else newEntries)
        | .resize newSize rest =>
            decodeLoop passes { decoder with dynamicTable := decoder.dynamicTable.resize newSize }
              rest result newEntries

/-- `hpack_decoder::decode`, with `none` for a rejected block. -/
def decodeBlock (decoder : HpackDecoder) (data : Bytes) :
    Except Fault (Option Headers × HpackDecoder) :=
  decodeLoop data.length decoder data [] []

/-- `hpack_decoder::decode`: the empty list on any error. -/
def decode (decoder : HpackDecoder) (data : Bytes) : Except Fault (Headers × HpackDecoder) := do
  let (headers, decoder) ← decoder.decodeBlock data
  return (headers.getD [], decoder)

end HpackDecoder

end AsyncNet.Http.H2
