/-
This file states what QPACK means in the words of its standard, RFC 9204, and of RFC 7541,
whose integers, strings and Huffman code it uses. Nothing here is taken from
`src/http/qpack.cpp`, except two tables of constants: the static table, which is that of
RFC 9204 Appendix A, and the Huffman code, which is that of RFC 7541 Appendix B but for one
entry. What a peer that follows the standard reads and does is compared with the codec of the
source in `QpackInterop` and in `QpackEncoderStream`.
-/

import AsyncNet.Http.HuffmanRoundTrip
import AsyncNet.Http.Qpack

namespace AsyncNet.Http.H3.Reference

open AsyncNet.Http.H2 Library

/-! ### Integers (RFC 7541 section 5.1) -/

/-- The octets of an integer after the one that holds its prefix. -/
def continuation : Nat → Nat → Bytes → Option (Nat × Bytes)
  | _, _, [] => none
  | value, shift, octet :: rest =>
      let value := value + octet.toNat % 128 * 2 ^ shift
      if octet.toNat < 128 then some (value, rest) else continuation value (shift + 7) rest

/-- An integer with a prefix of some bits, and what follows it. -/
def integer (prefixBits : Nat) : Bytes → Option (Nat × Bytes)
  | [] => none
  | octet :: rest =>
      let value := octet.toNat % 2 ^ prefixBits
      if value < 2 ^ prefixBits - 1 then some (value, rest) else continuation value 0 rest

/-! ### Strings (RFC 7541 section 5.2 and Appendix B) -/

/-- The Huffman code. The table of the source has nineteen bits for `{`, where the standard has
fifteen. -/
def huffmanCode : List HuffSym := huff.set 123 ⟨0x7ffe, 15⟩

/-- The code words of the octets, without the one for the end of a string. -/
def codeWords : List (List Bool) := (huffmanCode.take 256).map fun sym => msbBits sym.bits sym.code

-- The code is complete: its words fill the binary tree, so no other table extends it.
example : (huffmanCode.map fun sym => 2 ^ (30 - sym.bits)).sum = 2 ^ 30 := by decide +kernel

/-- A Huffman coded string: code words, and then less than an octet of ones. The code word for the
end of a string has thirty ones, and is found nowhere. -/
def huffmanText (octets : Bytes) : Option Bytes :=
  match greedy (wordIndex codeWords) 30 [] (octets.flatMap bitsOf) with
  | none => none
  | some (symbols, padding) =>
      if padding.length < 8 ∧ ∀ bit ∈ padding, bit = true then some (symbols.map UInt8.ofNat)
      else none

/-- A string whose length has a prefix of some bits; the bit before it says whether the string is
Huffman coded. -/
def string (prefixBits : Nat) (bytes : Bytes) : Option (Bytes × Bytes) := do
  let (length, rest) ← integer prefixBits bytes
  if rest.length < length then none
  else
    let octets := rest.take length
    let text ← if (bytes.getD 0 0).toNat.testBit prefixBits then huffmanText octets else some octets
    return (text, rest.drop length)

/-! ### The dynamic table (RFC 9204 section 3.2) -/

/-- A dynamic table, newest entry first, and the capacity that the decoder allows at most. -/
structure Table where
  entries : List Header := []
  capacity : Nat := 0
  insertCount : Nat := 0
  maxCapacity : Nat := 0
  deriving DecidableEq

/-- The newest entries that fit. -/
def newest : Nat → List Header → List Header
  | _, [] => []
  | room, entry :: older =>
      if entrySize entry ≤ room then entry :: newest (room - entrySize entry) older else []

/-- What the index of a field line refers to: an entry of the static table, one before the base or
one from the base on. -/
inductive Referent where
  | static (index : Nat)
  | relative (index : Nat)
  | postBase (index : Nat)

namespace Table

/-- The entry with an absolute index: entries are numbered in the order of their insertion. -/
def absolute (table : Table) (index : Nat) : Option Header :=
  if index < table.insertCount then table.entries[table.insertCount - 1 - index]? else none

/-! ### Field sections (RFC 9204 section 4.5) -/

/-- The Required Insert Count of a field section (section 4.5.1.1). -/
def requiredInsertCount (table : Table) (encoded : Nat) : Option Nat :=
  if encoded = 0 then some 0
  else
    let maxEntries := table.maxCapacity / 32
    let fullRange := 2 * maxEntries
    let maxValue := table.insertCount + maxEntries
    let count := maxValue / fullRange * fullRange + encoded - 1
    if fullRange < encoded then none
    else if maxValue < count then
      if count ≤ fullRange then none else some (count - fullRange)
    else if count = 0 then none
    else some count

/-- The Base of a field section (section 4.5.1.2). -/
def base (required delta : Nat) (sign : Bool) : Option Nat :=
  if sign then if delta < required then some (required - delta - 1) else none
  else some (required + delta)

/-- The entry a field line refers to. An entry of the dynamic table is one of the insertions that
the section requires. -/
def refer (table : Table) (required base : Nat) : Referent → Option Header
  | .static index => qpackStaticTable[index]?
  | .relative index =>
      if index < base ∧ base - 1 - index < required then table.absolute (base - 1 - index) else none
  | .postBase index => if base + index < required then table.absolute (base + index) else none

/-- A field line, and what follows it (sections 4.5.2 to 4.5.6). -/
def fieldLine (table : Table) (required base : Nat) (bytes : Bytes) : Option (Header × Bytes) :=
  let octet := (bytes.getD 0 0).toNat
  if octet.testBit 7 then do
    -- 1 T, an indexed field line
    let (index, rest) ← integer 6 bytes
    let entry ← table.refer required base
      (if octet.testBit 6 then .static index else .relative index)
    return (entry, rest)
  else if octet.testBit 6 then do
    -- 0 1 N T, a literal field line with a name reference
    let (index, rest) ← integer 4 bytes
    let entry ← table.refer required base
      (if octet.testBit 4 then .static index else .relative index)
    let (value, rest) ← string 7 rest
    return ((entry.1, value), rest)
  else if octet.testBit 5 then do
    -- 0 0 1 N H, a literal field line with a literal name
    let (name, rest) ← string 3 bytes
    let (value, rest) ← string 7 rest
    return ((name, value), rest)
  else if octet.testBit 4 then do
    -- 0 0 0 1, an indexed field line with a post-base index
    let (index, rest) ← integer 4 bytes
    let entry ← table.refer required base (.postBase index)
    return (entry, rest)
  else do
    -- 0 0 0 0 N, a literal field line with a post-base name reference
    let (index, rest) ← integer 3 bytes
    let entry ← table.refer required base (.postBase index)
    let (value, rest) ← string 7 rest
    return ((entry.1, value), rest)

/-- The field lines up to the end of the section. Every line takes at least one octet, so the
number of octets bounds the lines. -/
def fieldLines (table : Table) (required base : Nat) : Nat → Bytes → Option Headers
  | _, [] => some []
  | 0, _ :: _ => none
  | lines + 1, bytes => do
      let (header, rest) ← table.fieldLine required base bytes
      let headers ← table.fieldLines required base lines rest
      return header :: headers

/-- A field section. A section that requires insertions that have not been received is not read
before they are. -/
def fieldSection (table : Table) (bytes : Bytes) : Option Headers := do
  let (encoded, rest) ← integer 8 bytes
  let required ← table.requiredInsertCount encoded
  if table.insertCount < required then none
  else
    let sign := (rest.getD 0 0).toNat.testBit 7
    let (delta, rest) ← integer 7 rest
    let base ← Table.base required delta sign
    table.fieldLines required base rest.length rest

end Table

/-! ### The encoder stream (RFC 9204 section 4.3) -/

/-- A string as it is sent, Huffman coded or not. -/
structure Literal where
  text : Bytes
  huffman : Bool := false
  deriving DecidableEq

inductive Instruction where
  | setCapacity (capacity : Nat)
  | insertNameReference (isStatic : Bool) (index : Nat) (value : Literal)
  | insertLiteralName (name value : Literal)
  | duplicate (index : Nat)
  deriving DecidableEq

/-- The octets of an integer after the one that holds its prefix. -/
def continuationOctets (value : Nat) : Bytes :=
  if value < 128 then [UInt8.ofNat value]
  else UInt8.ofNat (value % 128 + 128) :: continuationOctets (value / 128)

/-- An integer with a prefix of some bits, below the flags. -/
def encodeInteger (prefixBits flags value : Nat) : Bytes :=
  if value < 2 ^ prefixBits - 1 then [UInt8.ofNat (flags + value)]
  else
    UInt8.ofNat (flags + (2 ^ prefixBits - 1)) :: continuationOctets (value - (2 ^ prefixBits - 1))

/-- The octets of a bit string. -/
def packOctets : Nat → List Bool → Bytes
  | 0, _ => []
  | count + 1, bits => UInt8.ofNat (ofBits (bits.take 8)) :: packOctets count (bits.drop 8)

/-- The code words of a string, filled up with ones to an octet. -/
def huffmanOctets (text : Bytes) : Bytes :=
  let bits := text.flatMap fun ch => codeWords.getD ch.toNat []
  let count := (bits.length + 7) / 8
  packOctets count (bits ++ List.replicate (8 * count - bits.length) true)

/-- A string whose length has a prefix of some bits, below the bit for the Huffman code. -/
def encodeLiteral (prefixBits flags : Nat) (literal : Literal) : Bytes :=
  if literal.huffman then
    encodeInteger prefixBits (flags + 2 ^ prefixBits) (huffmanOctets literal.text).length ++
      huffmanOctets literal.text
  else encodeInteger prefixBits flags literal.text.length ++ literal.text

def Instruction.encode : Instruction → Bytes
  | .setCapacity capacity => encodeInteger 5 0x20 capacity
  | .insertNameReference isStatic index value =>
      encodeInteger 6 (if isStatic then 0xC0 else 0x80) index ++ encodeLiteral 7 0x00 value
  | .insertLiteralName name value => encodeLiteral 5 0x40 name ++ encodeLiteral 7 0x00 value
  | .duplicate index => encodeInteger 5 0x00 index

namespace Table

/-- The insertion of an entry, an error if the entry does not fit an empty table. -/
def insert (table : Table) (entry : Header) : Option Table :=
  if entrySize entry ≤ table.capacity then
    some { table with
      entries := entry :: newest (table.capacity - entrySize entry) table.entries
      insertCount := table.insertCount + 1 }
  else none

/-- What an instruction does, none for one that is an error. -/
def apply (table : Table) : Instruction → Option Table
  | .setCapacity capacity =>
      if capacity ≤ table.maxCapacity then
        some { table with capacity, entries := newest capacity table.entries }
      else none
  | .insertNameReference isStatic index value =>
      (if isStatic then qpackStaticTable[index]? else table.entries[index]?).bind fun entry =>
        table.insert (entry.1, value.text)
  | .insertLiteralName name value => table.insert (name.text, value.text)
  | .duplicate index => table.entries[index]?.bind table.insert

/-- What a sequence of instructions does, none if one of them is an error. -/
def run (table : Table) (instructions : List Instruction) : Option Table :=
  instructions.foldlM apply table

end Table

end AsyncNet.Http.H3.Reference
