/-
This file proves that a WebSocket connection puts the messages of its peer together again:
however they are split into frames, masked and interleaved with pings and pongs, and however
the socket cuts the bytes into reads, every call of `receive` returns the next message, and
every ping has been answered by one pong.
-/

import AsyncNet.Http.Http2Wire
import AsyncNet.Http.Websocket
import AsyncNet.Library.Framing
import Mathlib.Data.List.GetD

namespace AsyncNet.Http.Ws

open H2 Library

/-! ### What a peer sends -/

/-- Where the length of a payload stands: in the second byte of the frame, or in two or eight bytes
after it. -/
inductive LengthForm where
  | short | medium | long
  deriving DecidableEq, Repr

namespace LengthForm

def Fits : LengthForm → Nat → Prop
  | .short, length => length ≤ 125
  | .medium, length => length < 2 ^ 16
  | .long, length => length < 2 ^ 63

instance : (form : LengthForm) → (length : Nat) → Decidable (form.Fits length)
  | .short, length => inferInstanceAs (Decidable (length ≤ 125))
  | .medium, length => inferInstanceAs (Decidable (length < 2 ^ 16))
  | .long, length => inferInstanceAs (Decidable (length < 2 ^ 63))

/-- What stands in the second byte. -/
def code : LengthForm → Nat → Nat
  | .short, length => length
  | .medium, _ => 126
  | .long, _ => 127

/-- What follows the second byte. -/
def bytes : LengthForm → Nat → Bytes
  | .short, _ => []
  | .medium, length => [byteAt length 8, byteAt length 0]
  | .long, length => putUint64 length

end LengthForm

/-- The payload of a frame, with the key that it is masked with, if any. -/
structure Fragment where
  form : LengthForm
  maskKey : Option { key : Bytes // key.length = 4 }
  payload : Bytes
  fits : form.Fits payload.length

/-- A frame as a peer sends it. -/
structure SentFrame extends Fragment where
  fin : Bool
  op : Opcode
  known : op.toByte &&& 0x0F = op.toByte ∧ Opcode.ofByte op.toByte = op

/-- What a receiver sees of a frame. -/
def SentFrame.frame (sent : SentFrame) : Frame where
  fin := sent.fin
  op := sent.op
  masked := sent.maskKey.isSome
  payload := sent.payload

/-- The key of a fragment and its payload under the key. -/
def Fragment.tail (fragment : Fragment) : Bytes :=
  match fragment.maskKey with
  | none => fragment.payload
  | some key => key.val ++ applyMask key.val fragment.payload

/-- The bytes of the key. -/
def Fragment.keyLength (fragment : Fragment) : Nat := if fragment.maskKey.isSome then 4 else 0

/-- The bytes of a frame. -/
def SentFrame.bytes (sent : SentFrame) : Bytes :=
  let code := UInt8.ofNat (sent.form.code sent.payload.length)
  (if sent.fin then sent.op.toByte ||| 0x80 else sent.op.toByte) ::
    (if sent.maskKey.isSome then code ||| 0x80 else code) ::
      (sent.form.bytes sent.payload.length ++ sent.tail)

/-- The two kinds of messages. -/
inductive Kind where
  | text | binary
  deriving DecidableEq, Repr

def Kind.op : Kind → Opcode
  | .text => .text
  | .binary => .binary

/-- The two kinds of control frames that may stand between the frames of messages. -/
inductive ControlKind where
  | ping | pong
  deriving DecidableEq, Repr

def ControlKind.op : ControlKind → Opcode
  | .ping => .ping
  | .pong => .pong

/-- A ping or a pong. -/
structure Control extends Fragment where
  kind : ControlKind

def Control.sent (control : Control) : SentFrame where
  toFragment := control.toFragment
  fin := true
  op := control.kind.op
  known := by cases control.kind <;> decide

/-- A message: its first frame and its continuation frames, with the control frames that precede
each of them. -/
structure Message where
  kind : Kind
  before : List Control
  first : Fragment
  continuations : List (List Control × Fragment)

def Fragment.continuation (fragment : Fragment) (fin : Bool) : SentFrame where
  toFragment := fragment
  fin := fin
  op := .continuation
  known := by decide

/-- The continuation frames, the last of which ends the message. -/
def continuationFrames : List (List Control × Fragment) → List SentFrame
  | [] => []
  | (controls, fragment) :: later =>
      controls.map Control.sent ++ fragment.continuation later.isEmpty :: continuationFrames later

namespace Message

def firstFrame (message : Message) : SentFrame where
  toFragment := message.first
  fin := message.continuations.isEmpty
  op := message.kind.op
  known := by cases message.kind <;> decide

def frames (message : Message) : List SentFrame :=
  message.before.map Control.sent ++
    message.firstFrame :: continuationFrames message.continuations

def payload (message : Message) : Bytes :=
  message.first.payload ++ message.continuations.flatMap (·.2.payload)

def controls (message : Message) : List Control :=
  message.before ++ message.continuations.flatMap (·.1)

end Message

/-- The answers to the pings among control frames. -/
def pongs (controls : List Control) : Bytes :=
  controls.flatMap fun control =>
    match control.kind with
    | .ping => encodeFrame .pong control.payload true
    | .pong => []

/-! ### The codec -/

theorem applyMask_applyMask (key payload : Bytes) :
    applyMask key (applyMask key payload) = payload := by
  refine List.ext_getElem (by simp [applyMask]) fun index _ _ => ?_
  simp [applyMask, UInt8.xor_assoc]

theorem length_applyMask (key payload : Bytes) :
    (applyMask key payload).length = payload.length :=
  List.length_mapIdx

/-- The eight bytes are read back. -/
theorem foldl_putUint64 (value : Nat) (small : value < 2 ^ 64) :
    (putUint64 value).foldl (fun length byte => length * 2 ^ 8 + byte.toNat) 0 = value := by
  have step (shift : Nat) :
      value / 2 ^ (shift + 8) * 2 ^ 8 + (byteAt value shift).toNat = value / 2 ^ shift := by
    rw [toNat_byteAt, Nat.pow_add, ← Nat.div_div_eq_div_mul]
    exact Nat.div_add_mod' _ _
  have top : 0 * 2 ^ 8 + (byteAt value 56).toNat = value / 2 ^ 56 := by
    rw [toNat_byteAt]
    omega
  simp only [putUint64, List.foldl_cons, List.foldl_nil]
  rw [top, step 48, step 40, step 32, step 24, step 16, step 8, step 0, Nat.pow_zero, Nat.div_one]

theorem LengthForm.Fits.code_lt {form : LengthForm} {length : Nat} (fits : form.Fits length) :
    form.code length < 128 := by
  cases form with
  | short =>
    have small : length ≤ 125 := fits
    show length < 128
    omega
  | medium => exact show 126 < 128 by decide
  | long => exact show 127 < 128 by decide

theorem LengthForm.Fits.lt {form : LengthForm} {length : Nat} (fits : form.Fits length) :
    length < 2 ^ 63 := by
  cases form with
  | short => exact Nat.lt_of_le_of_lt fits (by omega)
  | medium => exact Nat.lt_of_lt_of_le fits (by omega)
  | long => exact fits

theorem form_bytes_le (form : LengthForm) (length : Nat) : (form.bytes length).length ≤ 8 := by
  cases form with
  | short => exact Nat.zero_le 8
  | medium => exact show 2 ≤ 8 by decide
  | long => exact Nat.le_refl 8

/-- The first byte of a frame: the bit of its end and the opcode. -/
theorem firstByte (op : UInt8) (nibble : op &&& 0x0F = op) (fin : Bool) :
    ((if fin then op ||| 0x80 else op) &&& 0x80 ≠ 0 ↔ fin = true) ∧
      (if fin then op ||| 0x80 else op) &&& 0x0F = op := by
  have all : ∀ code < 256, UInt8.ofNat code &&& 0x0F = UInt8.ofNat code → ∀ fin : Bool,
      ((if fin then UInt8.ofNat code ||| 0x80 else UInt8.ofNat code) &&& 0x80 ≠ 0 ↔ fin = true) ∧
        (if fin then UInt8.ofNat code ||| 0x80 else UInt8.ofNat code) &&& 0x0F =
          UInt8.ofNat code := by
    decide +kernel
  have found := all op.toNat op.toNat_lt
  rw [UInt8.ofNat_toNat] at found
  exact found nibble fin

/-- The second byte of a frame: the code of the length and the bit of the mask. -/
theorem secondByte (code : Nat) (small : code < 128) (masked : Bool) :
    ((if masked then UInt8.ofNat code ||| 0x80 else UInt8.ofNat code) &&& 0x7F) =
        UInt8.ofNat code ∧
      (((if masked then UInt8.ofNat code ||| 0x80 else UInt8.ofNat code) &&& 0x80) ≠ 0 ↔
        masked = true) := by
  have all : ∀ code < 128, ∀ masked : Bool,
      ((if masked then UInt8.ofNat code ||| 0x80 else UInt8.ofNat code) &&& 0x7F) =
          UInt8.ofNat code ∧
        (((if masked then UInt8.ofNat code ||| 0x80 else UInt8.ofNat code) &&& 0x80) ≠ 0 ↔
          masked = true) := by
    decide +kernel
  exact all code small masked

/-- The length of a frame that has been written in one of the three forms. -/
theorem payloadLength_form {form : LengthForm} {length : Nat} (fits : form.Fits length)
    (first second : UInt8) (tail : Bytes)
    (code : second &&& 0x7F = UInt8.ofNat (form.code length)) :
    payloadLength (first :: second :: (form.bytes length ++ tail)) =
      some (length, 2 + (form.bytes length).length) := by
  unfold payloadLength
  simp only [List.getD_cons_succ, List.getD_cons_zero, code]
  cases form with
  | short =>
    have small : length ≤ 125 := fits
    have value : (UInt8.ofNat length).toNat = length := by
      rw [UInt8.toNat_ofNat', Nat.mod_eq_of_lt (by omega)]
    have differs (other : UInt8) (large : 126 ≤ other.toNat) : UInt8.ofNat length ≠ other := by
      rintro rfl
      omega
    show (if UInt8.ofNat length = 126 then _ else if UInt8.ofNat length = 127 then _ else _) = _
    rw [if_neg (differs 126 (by decide)), if_neg (differs 127 (by decide))]
    show some ((UInt8.ofNat length).toNat, 2) = _
    rw [value]
    rfl
  | medium =>
    have small : length < 2 ^ 16 := fits
    have value : (byteAt length 8).toNat * 2 ^ 8 + (byteAt length 0).toNat = length := by
      simp only [toNat_byteAt]
      omega
    show some ((byteAt length 8).toNat * 2 ^ 8 + (byteAt length 0).toNat, 4) = _
    rw [value]
    rfl
  | long =>
    show some ((putUint64 length).foldl (fun length byte => length * 2 ^ 8 + byte.toNat) 0, 10) = _
    rw [foldl_putUint64 length (Nat.lt_trans fits (by omega))]
    rfl

/-- A length that has been read is not changed by what follows. -/
theorem payloadLength_append {front : Bytes} {found : Nat × Nat} (header : 2 ≤ front.length)
    (read : payloadLength front = some found) (more : Bytes) :
    payloadLength (front ++ more) = some found := by
  unfold payloadLength at read ⊢
  have second : (front ++ more).getD 1 0 = front.getD 1 0 := List.getD_append _ _ _ _ (by omega)
  simp only [second] at read ⊢
  split at read
  · split at read
    · cases read
    · rename_i long
      rw [if_pos ‹_›, if_neg (by rw [List.length_append]; omega),
        List.getD_append _ _ _ _ (by omega), List.getD_append _ _ _ _ (by omega)]
      exact read
  · split at read
    · split at read
      · cases read
      · rename_i long
        rw [if_neg ‹_›, if_pos ‹_›, if_neg (by rw [List.length_append]; omega),
          List.drop_append_of_le_length (by omega),
          List.take_append_of_le_length (by rw [List.length_drop]; omega)]
        exact read
    · rw [if_neg ‹_›, if_neg ‹_›]
      exact read

theorem maskKeyAt_append {front : Bytes} {pos : Nat} {found : Bytes × Nat}
    (header : 2 ≤ front.length) (read : maskKeyAt front pos = some found) (more : Bytes) :
    maskKeyAt (front ++ more) pos = some found := by
  unfold maskKeyAt at read ⊢
  rw [List.getD_append _ _ _ _ (by omega)]
  split at read
  · split at read
    · cases read
    · rw [if_pos ‹_›, if_neg (by rw [List.length_append]; omega),
        List.drop_append_of_le_length (by omega),
        List.take_append_of_le_length (by rw [List.length_drop]; omega)]
      exact read
  · rw [if_neg ‹_›]
    exact read

theorem Fragment.keyLength_le (fragment : Fragment) : fragment.keyLength ≤ 4 := by
  unfold keyLength
  split
  · exact Nat.le_refl 4
  · exact Nat.zero_le 4

namespace SentFrame

theorem bytes_eq (sent : SentFrame) :
    ∃ first second, sent.bytes =
        first :: second :: (sent.form.bytes sent.payload.length ++ sent.tail) ∧
      (first &&& 0x80 ≠ 0 ↔ sent.fin = true) ∧ Opcode.ofByte (first &&& 0x0F) = sent.op ∧
      second &&& 0x7F = UInt8.ofNat (sent.form.code sent.payload.length) ∧
      (second &&& 0x80 ≠ 0 ↔ sent.maskKey.isSome = true) := by
  obtain ⟨nibble, op⟩ := sent.known
  obtain ⟨fin, low⟩ := firstByte sent.op.toByte nibble sent.fin
  obtain ⟨code, mask⟩ := secondByte _ sent.fits.code_lt sent.maskKey.isSome
  exact ⟨_, _, rfl, fin, by rw [low, op], code, mask⟩

/-- What stands after the length, whatever follows the frame. -/
theorem drop_header (sent : SentFrame) (first second : UInt8) (rest : Bytes) :
    (first :: second :: (sent.form.bytes sent.payload.length ++ sent.tail) ++ rest).drop
      (2 + (sent.form.bytes sent.payload.length).length) = sent.tail ++ rest := by
  rw [Nat.add_comm, List.cons_append, List.cons_append, List.drop_succ_cons, List.drop_succ_cons,
    List.append_assoc, List.drop_left]

theorem length_tail (sent : SentFrame) :
    sent.tail.length = sent.keyLength + sent.payload.length := by
  unfold Fragment.tail Fragment.keyLength
  cases sent.maskKey with
  | none => simp
  | some key => simp [key.property, length_applyMask]

theorem length_bytes (sent : SentFrame) :
    sent.bytes.length =
      2 + (sent.form.bytes sent.payload.length).length + sent.keyLength + sent.payload.length := by
  obtain ⟨first, second, bytes, _⟩ := sent.bytes_eq
  rw [bytes, List.length_cons, List.length_cons, List.length_append, length_tail]
  omega

/-- The position of the payload and the key, whatever follows the frame. -/
theorem header_read (sent : SentFrame) (rest : Bytes) :
    ∃ key, payloadLength (sent.bytes ++ rest) =
        some (sent.payload.length, 2 + (sent.form.bytes sent.payload.length).length) ∧
      maskKeyAt (sent.bytes ++ rest) (2 + (sent.form.bytes sent.payload.length).length) =
        some (key, 2 + (sent.form.bytes sent.payload.length).length + sent.keyLength) ∧
      (∀ own ∈ sent.maskKey, key = own.val) := by
  obtain ⟨first, second, bytes, _, _, code, mask⟩ := sent.bytes_eq
  have length := sent.length_bytes
  have read := payloadLength_form sent.fits first second (sent.tail ++ rest) code
  have dropped := sent.drop_header first second rest
  unfold maskKeyAt
  rw [List.length_append, length, bytes, dropped]
  rw [List.cons_append, List.cons_append, List.append_assoc, List.getD_cons_succ,
    List.getD_cons_zero, read]
  unfold Fragment.tail Fragment.keyLength
  cases own : sent.maskKey with
  | none =>
    rw [own] at mask
    exact ⟨[0, 0, 0, 0], rfl, by rw [if_neg (by simpa using mask)]; rfl, nofun⟩
  | some key =>
    rw [own] at mask
    refine ⟨key.val, rfl, ?_, fun other same => by rw [Option.mem_some.mp same]⟩
    rw [if_pos (by simpa using mask), if_neg (by rw [Option.isSome_some, if_pos rfl]; omega),
      List.append_assoc, List.take_left' key.property]
    rfl

/-- The payload of a frame is found behind its key. -/
theorem payload_read (sent : SentFrame) (rest key : Bytes)
    (own : ∀ own ∈ sent.maskKey, key = own.val) :
    (if sent.maskKey.isSome then
      applyMask key (((sent.tail ++ rest).drop sent.keyLength).take sent.payload.length)
      else ((sent.tail ++ rest).drop sent.keyLength).take sent.payload.length) = sent.payload := by
  unfold Fragment.tail Fragment.keyLength
  cases masked : sent.maskKey with
  | none =>
    show (sent.payload ++ rest).take sent.payload.length = _
    rw [List.take_left]
  | some given =>
    rw [own given masked]
    show applyMask given.val (((given.val ++ applyMask given.val sent.payload ++ rest).drop 4).take
      sent.payload.length) = sent.payload
    rw [List.append_assoc, List.drop_left' given.property,
      List.take_left' (length_applyMask _ _), applyMask_applyMask]

/-- A frame is read when all of it has come, and waited for until then. -/
theorem frames (sent : SentFrame) : Frames parseFrame sent.frame sent.bytes where
  whole := fun rest => by
    obtain ⟨first, second, bytes, fin, op, code, mask⟩ := sent.bytes_eq
    obtain ⟨key, length, keyRead, own⟩ := sent.header_read rest
    have small := sent.fits.lt
    have total := sent.length_bytes
    have short := form_bytes_le sent.form sent.payload.length
    have keyShort := sent.keyLength_le
    have firstIs : (sent.bytes ++ rest).getD 0 0 = first := by rw [bytes]; rfl
    have secondIs : (sent.bytes ++ rest).getD 1 0 = second := by rw [bytes]; rfl
    have dropped := sent.drop_header first second rest
    rw [← bytes] at dropped
    have masked : decide (second &&& 0x80 ≠ 0) = sent.maskKey.isSome := by
      rw [Bool.eq_iff_iff, decide_eq_true_iff, mask]
    have finished : decide (first &&& 0x80 ≠ 0) = sent.fin := by
      rw [Bool.eq_iff_iff, decide_eq_true_iff, fin]
    unfold parseFrame
    rw [length, if_neg (by rw [List.length_append]; omega)]
    simp only [keyRead, firstIs, secondIs, List.length_append, masked, finished, op]
    rw [Nat.mod_eq_of_lt (by omega), if_neg (by omega), if_neg (by omega), ← List.drop_drop,
      dropped, sent.payload_read rest key own, ← total, List.drop_left]
    rfl
  incomplete := fun front more whole unfinished => by
    obtain ⟨key, length, keyRead, own⟩ := sent.header_read []
    have positive := List.length_pos_of_ne_nil unfinished
    have total := congrArg List.length whole
    rw [List.length_append, length_bytes] at total
    have small := sent.fits.lt
    have short := form_bytes_le sent.form sent.payload.length
    have keyShort := sent.keyLength_le
    rw [List.append_nil, ← whole] at length keyRead
    unfold parseFrame
    split
    · rfl
    · cases read : payloadLength front with
      | none => rfl
      | some found =>
        rw [payloadLength_append (by omega) read] at length
        cases length
        cases frontKey : maskKeyAt front (2 + (sent.form.bytes sent.payload.length).length) with
        | none => simp only [frontKey]
        | some found =>
          rw [maskKeyAt_append (by omega) frontKey] at keyRead
          cases keyRead
          simp only [frontKey]
          rw [Nat.mod_eq_of_lt (by omega), if_pos (by omega)]

end SentFrame

/-! ### The connection -/

namespace WebsocketConnection

/-- The loop pulls a frame out of the reads. -/
theorem readFrameLoop_eq (reads : List Bytes) (readBuffer : Bytes)
    (nonEmpty : ∀ read ∈ reads, read ≠ []) :
    readFrameLoop reads readBuffer =
      (pull parseFrame reads readBuffer).map fun found =>
        match found with
        | none => (none, readBuffer ++ reads.flatten, [])
        | some (frm, rest, left) => (some frm, rest, left) := by
  have empty : parseFrame [] = .ok none := rfl
  induction reads generalizing readBuffer with
  | nil =>
    rw [readFrameLoop, pull, List.flatten_nil, List.append_nil]
    by_cases buffered : readBuffer = []
    · subst buffered
      rfl
    · rw [if_pos buffered]
      cases parseFrame readBuffer with
      | error fault => rfl
      | ok found => cases found <;> rfl
  | cons read reads inductionHypothesis =>
    have more := inductionHypothesis (readBuffer ++ read)
      (fun other member => nonEmpty other (List.mem_cons_of_mem _ member))
    rw [readFrameLoop, pull, List.flatten_cons, ← List.append_assoc]
    rw [if_neg (nonEmpty read List.mem_cons_self)]
    by_cases buffered : readBuffer = []
    · subst buffered
      exact more
    · rw [if_pos buffered]
      cases parseFrame readBuffer with
      | error fault => rfl
      | ok found =>
        cases found with
        | none => exact more
        | some found => rfl

/-- Where a connection stands: what it has still to parse and what it has written. -/
structure At (connection : WebsocketConnection) (stream written : Bytes) : Prop where
  stream : connection.stream = stream
  written : connection.written = written
  nonEmpty : ∀ read ∈ connection.reads, read ≠ []

/-- The next frame is read. -/
theorem At.readFrame {connection : WebsocketConnection} {sent : SentFrame} {later written : Bytes}
    (here : connection.At (sent.bytes ++ later) written) :
    ∃ next, connection.readFrame = .ok (some sent.frame, next) ∧ next.At later written := by
  obtain ⟨readBuffer, reads, found, stream, isSuffix⟩ := pull_frame sent.frames connection.reads
    connection.readBuffer later here.stream
  refine ⟨{ connection with readBuffer, reads }, ?_, stream, here.written,
    fun read member => here.nonEmpty read (isSuffix.mem member)⟩
  rw [WebsocketConnection.readFrame, readFrameLoop_eq _ _ here.nonEmpty, found]
  rfl

/-- At the end of the stream the connection is found closed. -/
theorem At.readFrame_nil {connection : WebsocketConnection} {written : Bytes}
    (here : connection.At [] written) :
    ∃ next, connection.readFrame = .ok (none, next) ∧ next.At [] written := by
  have found : pull parseFrame connection.reads connection.readBuffer = .ok none :=
    pull_nil rfl connection.reads connection.readBuffer here.stream
  refine ⟨{ connection with readBuffer := connection.stream, reads := [] }, ?_, ?_, here.written,
    nofun⟩
  · rw [WebsocketConnection.readFrame, readFrameLoop_eq _ _ here.nonEmpty, found]
    rfl
  · rw [WebsocketConnection.stream, here.stream]
    rfl

/-- A socket that takes a byte or more of every write. -/
def Writable (accepts : Bytes → Bytes → Nat) : Prop :=
  ∀ written data, data ≠ [] → 0 < accepts written data

section Receiving

variable {accepts : Bytes → Bytes → Nat}

theorem writeRawLoop_eq (writable : Writable accepts) (passes : Nat) (written data : Bytes)
    (enough : data.length < passes) :
    writeRawLoop accepts passes written data = (true, written ++ data) := by
  induction passes generalizing written data with
  | zero => cases enough
  | succ passes inductionHypothesis =>
    rw [writeRawLoop]
    by_cases finished : data = []
    · rw [if_pos finished, finished, List.append_nil]
    · have takes := writable written data finished
      have positive := List.length_pos_of_ne_nil finished
      rw [if_neg finished]
      simp only
      rw [if_neg (by omega), inductionHypothesis _ _ (by rw [List.length_drop]; omega),
        List.append_assoc, List.take_append_drop]

theorem At.writeRaw {connection : WebsocketConnection} {stream written : Bytes}
    (here : connection.At stream written) (writable : Writable accepts) (data : Bytes) :
    (connection.writeRaw accepts data).2.At stream (written ++ data) := by
  refine ⟨here.stream, ?_, here.nonEmpty⟩
  rw [WebsocketConnection.writeRaw, writeRawLoop_eq writable _ _ _ (Nat.lt_succ_self _),
    here.written]

theorem receiveLoop_readFrame {connection next : WebsocketConnection} {sent : SentFrame}
    (read : connection.readFrame = .ok (some sent.frame, next)) (passes : Nat) (message : Bytes)
    (inFragment : Bool) :
    receiveLoop accepts (passes + 1) message inFragment connection =
      match sent.op with
      | .close => .ok ([], next.sendCloseFrame accepts)
      | .ping =>
          receiveLoop accepts passes message inFragment
            (next.writeRaw accepts (encodeFrame .pong sent.payload true)).2
      | .pong => receiveLoop accepts passes message inFragment next
      | .text | .binary =>
          if sent.fin then .ok (sent.payload, next)
          else receiveLoop accepts passes sent.payload true next
      | .continuation =>
          if inFragment then
            if sent.fin then .ok (message ++ sent.payload, next)
            else receiveLoop accepts passes (message ++ sent.payload) inFragment next
          else .ok ([], next)
      | .reserved _ => receiveLoop accepts passes message inFragment next := by
  rw [receiveLoop, read]
  rfl

/-- Control frames are passed over, and the pings among them are answered. -/
theorem receiveLoop_controls (writable : Writable accepts) (controls : List Control)
    {connection : WebsocketConnection} {later written : Bytes}
    (here : connection.At ((controls.map Control.sent).flatMap SentFrame.bytes ++ later) written) :
    ∃ next, next.At later (written ++ pongs controls) ∧
      ∀ passes message inFragment,
        receiveLoop accepts (controls.length + passes) message inFragment connection =
          receiveLoop accepts passes message inFragment next := by
  induction controls generalizing connection written with
  | nil =>
    refine ⟨connection, ?_, fun passes message inFragment => ?_⟩
    · rw [pongs, List.flatMap_nil, List.append_nil]
      exact here
    · rw [List.length_nil, Nat.zero_add]
  | cons control controls inductionHypothesis =>
    rw [List.map_cons, List.flatMap_cons, List.append_assoc] at here
    obtain ⟨middle, read, there⟩ := here.readFrame
    have count (passes : Nat) :
        (control :: controls).length + passes = controls.length + passes + 1 := by
      rw [List.length_cons]
      omega
    cases kind : control.kind with
    | ping =>
      obtain ⟨next, arrives, run⟩ :=
        inductionHypothesis (there.writeRaw writable (encodeFrame .pong control.payload true))
      refine ⟨next, ?_, fun passes message inFragment => ?_⟩
      · rw [pongs, List.flatMap_cons, kind, ← List.append_assoc]
        exact arrives
      · have op : control.sent.op = .ping := congrArg ControlKind.op kind
        rw [count, receiveLoop_readFrame read, op]
        exact run passes message inFragment
    | pong =>
      obtain ⟨next, arrives, run⟩ := inductionHypothesis there
      refine ⟨next, ?_, fun passes message inFragment => ?_⟩
      · rw [pongs, List.flatMap_cons, kind, List.nil_append]
        exact arrives
      · have op : control.sent.op = .pong := congrArg ControlKind.op kind
        rw [count, receiveLoop_readFrame read, op]
        exact run passes message inFragment

theorem pongs_append (controls more : List Control) :
    pongs (controls ++ more) = pongs controls ++ pongs more :=
  List.flatMap_append

/-- The continuation frames complete the message. -/
theorem receiveLoop_continuations (writable : Writable accepts)
    (parts : List (List Control × Fragment)) (continued : parts ≠ [])
    {connection : WebsocketConnection} {later written : Bytes}
    (here : connection.At ((continuationFrames parts).flatMap SentFrame.bytes ++ later) written) :
    ∃ next, next.At later (written ++ pongs (parts.flatMap (·.1))) ∧
      ∀ passes message,
        receiveLoop accepts ((continuationFrames parts).length + passes) message true connection =
          .ok (message ++ parts.flatMap (·.2.payload), next) := by
  induction parts generalizing connection written with
  | nil => exact absurd rfl continued
  | cons part parts inductionHypothesis =>
    obtain ⟨controls, fragment⟩ := part
    rw [continuationFrames, List.flatMap_append, List.flatMap_cons, List.append_assoc,
      List.append_assoc] at here
    obtain ⟨first, there, skip⟩ := receiveLoop_controls writable controls here
    obtain ⟨second, read, after⟩ := there.readFrame
    have count (passes : Nat) :
        (continuationFrames ((controls, fragment) :: parts)).length + passes =
          controls.length + ((continuationFrames parts).length + passes + 1) := by
      rw [continuationFrames, List.length_append, List.length_map, List.length_cons]
      omega
    cases parts with
    | nil =>
      refine ⟨second, ?_, fun passes message => ?_⟩
      · rw [List.flatMap_cons, List.flatMap_nil, List.append_nil]
        exact after
      · rw [count, skip, receiveLoop_readFrame read, List.flatMap_cons, List.flatMap_nil,
          List.append_nil]
        rfl
    | cons next parts =>
      obtain ⟨final, arrives, run⟩ := inductionHypothesis (List.cons_ne_nil _ _) after
      refine ⟨final, ?_, fun passes message => ?_⟩
      · rw [List.flatMap_cons, pongs_append, ← List.append_assoc]
        exact arrives
      · rw [count, skip, receiveLoop_readFrame read, List.flatMap_cons, ← List.append_assoc]
        exact run passes (message ++ fragment.payload)

theorem length_le_flatMap_bytes (frames : List SentFrame) :
    frames.length ≤ (frames.flatMap SentFrame.bytes).length := by
  induction frames with
  | nil => exact Nat.le_refl 0
  | cons sent frames inductionHypothesis =>
    rw [List.flatMap_cons, List.length_append, List.length_cons, SentFrame.length_bytes]
    omega

theorem receiveLoop_first {connection next : WebsocketConnection} {message : Message}
    (read : connection.readFrame = .ok (some message.firstFrame.frame, next)) (passes : Nat) :
    receiveLoop accepts (passes + 1) [] false connection =
      if message.continuations.isEmpty then .ok (message.first.payload, next)
      else receiveLoop accepts passes message.first.payload true next := by
  have op : message.firstFrame.op = message.kind.op := rfl
  rw [receiveLoop_readFrame read, op]
  cases message.kind <;> rfl

/-- The next message is received, and the pings before its end are answered. -/
theorem At.receive {connection : WebsocketConnection} {message : Message} {later written : Bytes}
    (here : connection.At (message.frames.flatMap SentFrame.bytes ++ later) written)
    (writable : Writable accepts) :
    ∃ next, connection.receive accepts = .ok (message.payload, next) ∧
      next.At later (written ++ pongs message.controls) := by
  have few := length_le_flatMap_bytes message.frames
  have length := congrArg List.length here.stream
  rw [Message.frames, List.length_append, List.length_map, List.length_cons,
    ← Message.frames] at few
  rw [List.length_append] at length
  obtain ⟨passes, fuel⟩ : ∃ passes, connection.stream.length + 1 = message.before.length +
      ((continuationFrames message.continuations).length + passes + 1) :=
    ⟨connection.stream.length - message.before.length -
      (continuationFrames message.continuations).length, by omega⟩
  rw [Message.frames, List.flatMap_append, List.flatMap_cons, List.append_assoc,
    List.append_assoc] at here
  obtain ⟨first, there, skip⟩ := receiveLoop_controls writable message.before here
  obtain ⟨second, read, after⟩ := there.readFrame
  rw [WebsocketConnection.receive, fuel, skip, receiveLoop_first read, Message.controls,
    Message.payload, pongs_append, ← List.append_assoc]
  by_cases single : message.continuations = []
  · rw [single] at after ⊢
    refine ⟨second, ?_, ?_⟩
    · rw [List.flatMap_nil, List.append_nil]
      rfl
    · rw [List.flatMap_nil, show pongs [] = [] from rfl, List.append_nil]
      exact after
  · obtain ⟨next, arrives, run⟩ := receiveLoop_continuations writable _ single after
    refine ⟨next, ?_, arrives⟩
    rw [if_neg (by rwa [List.isEmpty_iff]), run]

/-- Without another message the call finds the connection closed, when the last pings are
answered. -/
theorem At.receive_closed {connection : WebsocketConnection} {controls : List Control}
    {written : Bytes}
    (here : connection.At ((controls.map Control.sent).flatMap SentFrame.bytes) written)
    (writable : Writable accepts) :
    ∃ next, connection.receive accepts = .ok ([], next) ∧
      next.At [] (written ++ pongs controls) := by
  have few := length_le_flatMap_bytes (controls.map Control.sent)
  rw [← here.stream, List.length_map] at few
  obtain ⟨passes, fuel⟩ : ∃ passes, connection.stream.length + 1 = controls.length + (passes + 1) :=
    ⟨connection.stream.length - controls.length, by omega⟩
  rw [← List.append_nil ((controls.map Control.sent).flatMap SentFrame.bytes)] at here
  obtain ⟨middle, there, skip⟩ := receiveLoop_controls writable controls here
  obtain ⟨next, read, ending⟩ := there.readFrame_nil
  refine ⟨next, ?_, ending⟩
  rw [WebsocketConnection.receive, fuel, skip, receiveLoop, read]
  rfl

/-- The messages of a stream are received one after the other. -/
theorem At.receives (writable : Writable accepts) (messages : List Message)
    {connection : WebsocketConnection} {later written : Bytes}
    (here : connection.At
      ((messages.flatMap Message.frames).flatMap SentFrame.bytes ++ later) written) :
    ∃ next, connection.receives accepts messages.length = .ok (messages.map Message.payload, next) ∧
      next.At later (written ++ pongs (messages.flatMap Message.controls)) := by
  induction messages generalizing connection written with
  | nil =>
    refine ⟨connection, rfl, ?_⟩
    rw [List.flatMap_nil, pongs, List.flatMap_nil, List.append_nil]
    exact here
  | cons message messages inductionHypothesis =>
    rw [List.flatMap_cons, List.flatMap_append, List.append_assoc] at here
    obtain ⟨middle, received, there⟩ := here.receive writable
    obtain ⟨next, run, arrives⟩ := inductionHypothesis there
    refine ⟨next, ?_, ?_⟩
    · rw [List.length_cons, WebsocketConnection.receives, received]
      simp only [bind, Except.bind, run]
      rfl
    · rw [List.flatMap_cons, pongs_append, ← List.append_assoc]
      exact arrives

/-- A peer sends messages, each in any number of frames, with control frames between any of them,
and the socket brings the bytes in any pieces. The calls of `receive` return the messages, and when
one has returned the pings before the end of its message have been answered, each by one pong; the
call after the last message finds the connection closed and all pings answered. -/
theorem receives_messages (writable : Writable accepts) (messages : List Message)
    (last : List Control) (reads : List Bytes) (nonEmpty : ∀ read ∈ reads, read ≠ [])
    (cut : reads.flatten =
      (messages.flatMap Message.frames ++ last.map Control.sent).flatMap SentFrame.bytes) :
    (∀ front, front <+: messages →
      ∃ state, receives accepts front.length { reads } = .ok (front.map Message.payload, state) ∧
        state.written = pongs (front.flatMap Message.controls)) ∧
      ∃ state closed, receives accepts messages.length { reads } =
          .ok (messages.map Message.payload, state) ∧
        state.receive accepts = .ok ([], closed) ∧
        closed.written = pongs (messages.flatMap Message.controls ++ last) := by
  refine ⟨?_, ?_⟩
  · rintro front ⟨left, rfl⟩
    rw [List.flatMap_append, List.flatMap_append, List.flatMap_append, List.append_assoc] at cut
    have here : WebsocketConnection.At { reads } _ [] := ⟨cut, rfl, nonEmpty⟩
    obtain ⟨state, run, there⟩ := At.receives writable front here
    exact ⟨state, run, there.written⟩
  · rw [List.flatMap_append] at cut
    have here : WebsocketConnection.At { reads } _ [] := ⟨cut, rfl, nonEmpty⟩
    obtain ⟨state, run, there⟩ := At.receives writable messages here
    obtain ⟨closed, received, ending⟩ := there.receive_closed writable
    refine ⟨state, closed, run, received, ?_⟩
    rw [pongs_append]
    exact ending.written

/-- A text in two fragments, the first of them masked, with a ping between them. -/
def pinged : Message where
  kind := .text
  before := []
  first :=
    { form := .short
      maskKey := some ⟨[0x01, 0x02, 0x03, 0x04], rfl⟩
      payload := [0x61, 0x62]
      fits := by decide }
  continuations :=
    [([{ kind := .ping, form := .medium, maskKey := none, payload := [0x70], fits := by decide }],
      { form := .short, maskKey := none, payload := [0x63], fits := by decide })]

/-- The text comes in reads of two bytes and is answered through a socket that takes one byte of
every write. -/
theorem receives_messages_pinged :
    (∀ front, front <+: [pinged] →
      ∃ state, receives (fun _ _ => 1) front.length
          { reads := [[0x01, 0x82], [0x01, 0x02], [0x03, 0x04], [0x60, 0x60], [0x89, 0x7E],
            [0x00, 0x01], [0x70, 0x80], [0x01, 0x63]] } =
            .ok (front.map Message.payload, state) ∧
        state.written = pongs (front.flatMap Message.controls)) ∧
      ∃ state closed, receives (fun _ _ => 1) 1
          { reads := [[0x01, 0x82], [0x01, 0x02], [0x03, 0x04], [0x60, 0x60], [0x89, 0x7E],
            [0x00, 0x01], [0x70, 0x80], [0x01, 0x63]] } = .ok ([[0x61, 0x62, 0x63]], state) ∧
        state.receive (fun _ _ => 1) = .ok ([], closed) ∧
        closed.written = [0x8A, 0x01, 0x70] :=
  receives_messages (fun _ _ _ => Nat.one_pos) [pinged] [] _ (by decide) (by decide)

end Receiving

end WebsocketConnection

end AsyncNet.Http.Ws
