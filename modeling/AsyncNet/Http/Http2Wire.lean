/-
This file relates the bytes on the wire to the frames they are made of. A frame that is
written and read comes back as it was, and a reader that has taken some bytes of the
frames to come waits for the others. So a session whose unread bytes are the bytes of a
list of frames processes these frames one after another, however the bytes reach it.
-/

import AsyncNet.Http.Http2Segmentation

namespace AsyncNet.Http

open Library

namespace H2

/-! ### Frames that are written and read -/

/-- The bytes of a frame, as `build_frame` writes them. -/
def Frame.wire (f : Frame) : Bytes := buildFrame f.hdr.type f.hdr.flags f.hdr.streamId f.payload

/-- A frame whose fields fit into its header. -/
structure Frame.Proper (f : Frame) : Prop where
  length : f.hdr.length = f.payload.length
  short : f.payload.length < 2 ^ 24
  streamId : f.hdr.streamId < 2 ^ 31
  type : FrameType.ofByte f.hdr.type.toByte = f.hdr.type

theorem toNat_byteAt (value shift : Nat) :
    (byteAt value shift).toNat = value / 2 ^ shift % 256 := by
  rw [byteAt, UInt8.toNat_ofNat', Nat.shiftRight_eq_div_pow]

theorem getUint32_lt (buf : Bytes) (offset : Nat) : getUint32 buf offset < 2 ^ 32 := by
  have first := (buf.getD offset 0).toNat_lt
  have second := (buf.getD (offset + 1) 0).toNat_lt
  have third := (buf.getD (offset + 2) 0).toNat_lt
  have fourth := (buf.getD (offset + 3) 0).toNat_lt
  unfold getUint32
  omega

/-- A number is read where it was written, whatever stands around it. -/
theorem getUint32_append (before after : Bytes) (value : Nat) (small : value < 2 ^ 32) :
    getUint32 (before ++ (putUint32 value ++ after)) before.length = value := by
  unfold getUint32 putUint32
  simp only [List.getD_eq_getElem?_getD, List.getElem?_append_right, Nat.le_add_right, le_refl,
    Nat.add_sub_cancel_left, Nat.sub_self, List.cons_append, List.getElem?_cons_zero,
    List.getElem?_cons_succ, Option.getD_some, toNat_byteAt]
  omega

theorem getUint32_putUint32 (before : Bytes) (value : Nat) (small : value < 2 ^ 32) :
    getUint32 (before ++ putUint32 value) before.length = value := by
  have read := getUint32_append before [] value small
  rwa [List.append_nil] at read

theorem readFrom_writeTo (header : FrameHeader) (short : header.length < 2 ^ 24)
    (streamId : header.streamId < 2 ^ 31)
    (type : FrameType.ofByte header.type.toByte = header.type) :
    FrameHeader.readFrom header.writeTo = header := by
  have identifier := getUint32_putUint32 [byteAt header.length 16, byteAt header.length 8,
    byteAt header.length 0, header.type.toByte, header.flags] (header.streamId % 2 ^ 31) (by omega)
  have length : (byteAt header.length 16).toNat * 2 ^ 16 + (byteAt header.length 8).toNat * 2 ^ 8 +
      (byteAt header.length 0).toNat = header.length := by
    simp only [toNat_byteAt]
    omega
  have parsed : FrameHeader.readFrom header.writeTo =
      { length := (byteAt header.length 16).toNat * 2 ^ 16 +
        (byteAt header.length 8).toNat * 2 ^ 8 +
          (byteAt header.length 0).toNat
        type := FrameType.ofByte header.type.toByte
        flags := header.flags
        streamId := getUint32 header.writeTo 5 % 2 ^ 31 } := rfl
  rw [parsed, length, type]
  show { header with streamId := getUint32 header.writeTo 5 % 2 ^ 31 } = header
  rw [show getUint32 header.writeTo 5 = header.streamId % 2 ^ 31 from identifier,
    Nat.mod_mod, Nat.mod_eq_of_lt streamId]

theorem length_writeTo (header : FrameHeader) : header.writeTo.length = frameHeaderSize := rfl

theorem Frame.Proper.wire_eq {f : Frame} (proper : f.Proper) :
    f.wire = f.hdr.writeTo ++ f.payload := by
  have header : ({ f.hdr with length := f.payload.length } : FrameHeader) = f.hdr := by
    rw [← proper.length]
  exact congrArg (fun header : FrameHeader => header.writeTo ++ f.payload) header

theorem Frame.Proper.readFrom_eq {f : Frame} (proper : f.Proper) :
    FrameHeader.readFrom f.hdr.writeTo = f.hdr :=
  readFrom_writeTo f.hdr (proper.length ▸ proper.short) proper.streamId proper.type

/-- The frames of a byte stream, one after another as long as they are complete. Each takes the
bytes of its header, so the number of bytes bounds them. -/
def parseFrames : Nat → Bytes → List Frame
  | 0, _ => []
  | count + 1, bytes =>
      let hdr := FrameHeader.readFrom (bytes.take frameHeaderSize)
      let rest := bytes.drop frameHeaderSize
      if bytes.length < frameHeaderSize ∨ rest.length < hdr.length then []
      else ⟨hdr, rest.take hdr.length⟩ :: parseFrames count (rest.drop hdr.length)

theorem parseFrames_wire (count : Nat) (f : Frame) (proper : f.Proper) (more : Bytes) :
    parseFrames (count + 1) (f.wire ++ more) = f :: parseFrames count more := by
  have nine := length_writeTo f.hdr
  have taken : (f.wire ++ more).take frameHeaderSize = f.hdr.writeTo := by
    rw [proper.wire_eq, List.append_assoc, ← nine, List.take_left]
  have dropped : (f.wire ++ more).drop frameHeaderSize = f.payload ++ more := by
    rw [proper.wire_eq, List.append_assoc, ← nine, List.drop_left]
  have whole : ¬ ((f.wire ++ more).length < frameHeaderSize ∨
      (f.payload ++ more).length < f.hdr.length) := by
    rw [proper.wire_eq, proper.length]
    simp only [List.length_append, nine]
    omega
  rw [parseFrames, taken, dropped, proper.readFrom_eq, if_neg whole, proper.length, List.take_left,
    List.drop_left]

/-- Frames that are written one after another are read as they were. -/
theorem parseFrames_flatMap_wire (frames : List Frame) (proper : ∀ f ∈ frames, f.Proper)
    (count : Nat) (enough : frames.length ≤ count) :
    parseFrames count (frames.flatMap Frame.wire) = frames := by
  induction frames generalizing count with
  | nil => cases count <;> rfl
  | cons f frames inductionHypothesis =>
    obtain ⟨first, later⟩ := List.forall_mem_cons.mp proper
    obtain ⟨count, rfl⟩ := Nat.exists_eq_succ_of_ne_zero
      (Nat.ne_of_gt ((Nat.succ_pos frames.length).trans_le enough))
    rw [List.flatMap_cons, parseFrames_wire count f first,
      inductionHypothesis later count (Nat.le_of_succ_le_succ enough)]

namespace FrameReader

/-! ### A reader in the middle of a frame -/

/-- The bytes that a reader has taken of the frame it is in. -/
def held (reader : FrameReader) : Bytes := reader.headerBuf ++ reader.payloadBuf

/-- The reader has an incomplete header, or a complete one that it has parsed. -/
def Coherent (reader : FrameReader) : Prop :=
  reader.headerBuf.length < frameHeaderSize ∧ reader.currentLength = none ∧
      reader.payloadBuf = [] ∨
    reader.headerBuf.length = frameHeaderSize ∧
      reader.currentHeader = FrameHeader.readFrom reader.headerBuf ∧
      reader.currentLength = some reader.currentHeader.length ∧
      reader.payloadBuf.length < reader.currentHeader.length

theorem Coherent.awaitsBytes {reader : FrameReader} (coherent : reader.Coherent) :
    reader.AwaitsBytes := by
  obtain ⟨short, unknown, _⟩ | ⟨full, _, known, less⟩ := coherent
  · exact Or.inl ⟨short, unknown⟩
  · exact Or.inr ⟨full, _, known, less⟩

theorem coherent_new : Coherent {} := Or.inl ⟨by decide, rfl, rfl⟩

theorem coherent_takeFrame (reader : FrameReader) :
    reader.takeFrame.2.Coherent ∧ reader.takeFrame.2.held = [] :=
  ⟨Or.inl ⟨Nat.zero_lt_succ 8, rfl, rfl⟩, rfl⟩

/-- The next byte of a frame is held, or it completes the frame. -/
theorem push_cases (reader : FrameReader) (byte : UInt8) (rest more : Bytes) (f : Frame)
    (coherent : reader.Coherent) (proper : f.Proper)
    (unread : reader.held ++ byte :: rest = f.wire ++ more) :
    (reader.push byte).Coherent ∧ (reader.push byte).held = reader.held ++ [byte] ∨
      (reader.push byte).hasFrame = true ∧ (reader.push byte).takeFrame.1 = f ∧ rest = more := by
  have parsed := proper.readFrom_eq
  have nine := length_writeTo f.hdr
  rw [proper.wire_eq] at unread
  unfold push extend
  obtain ⟨short, unknown, vacant⟩ | ⟨full, current, known, less⟩ := coherent
  · rw [if_pos short]
    have heldIs : reader.held = reader.headerBuf := by rw [held, vacant, List.append_nil]
    rw [heldIs] at unread ⊢
    by_cases last : reader.headerBuf.length + 1 = frameHeaderSize
    · have joined : (reader.headerBuf ++ [byte]) ++ rest =
          f.hdr.writeTo ++ (f.payload ++ more) := by
        rw [List.append_assoc, ← List.append_assoc f.hdr.writeTo]
        exact unread
      obtain ⟨headerBuf, tail⟩ := List.append_inj joined (by
        rw [List.length_append, List.length_singleton, nine]
        exact last)
      rw [parseHeader, if_pos ⟨by
        rw [List.length_append, List.length_singleton]
        exact last, unknown⟩]
      dsimp only
      rw [headerBuf, parsed]
      by_cases empty : f.payload = []
      · refine Or.inr ⟨?_, ?_, ?_⟩
        · simp only [hasFrame, wantsPayload, nine, proper.length, empty]
          rfl
        · rw [takeFrame]
          exact congrArg (Frame.mk f.hdr) empty.symm
        · rw [tail, empty]
          rfl
      · refine Or.inl ⟨Or.inr ⟨nine, parsed.symm, rfl, ?_⟩, List.append_nil _⟩
        dsimp only
        rw [proper.length]
        exact List.length_pos_of_ne_nil empty
    · refine Or.inl ?_
      have still : (reader.headerBuf ++ [byte]).length < frameHeaderSize := by
        rw [List.length_append, List.length_singleton]
        omega
      rw [parseHeader_of_short _ still]
      refine ⟨Or.inl ⟨still, unknown, vacant⟩, ?_⟩
      rw [held]
      dsimp only
      rw [vacant, List.append_nil]
  · have notShort : ¬ reader.headerBuf.length < frameHeaderSize := by omega
    rw [if_neg notShort, parseHeader_of_known
      { reader with payloadBuf := reader.payloadBuf ++ [byte] } _ known]
    have joined : reader.headerBuf ++ (reader.payloadBuf ++ byte :: rest) =
        f.hdr.writeTo ++ (f.payload ++ more) := by
      rw [← List.append_assoc, ← List.append_assoc f.hdr.writeTo]
      exact unread
    obtain ⟨headerBuf, tail⟩ := List.append_inj joined (full.trans nine.symm)
    rw [headerBuf, parsed] at current
    rw [current, proper.length] at less
    have tail' : (reader.payloadBuf ++ [byte]) ++ rest = f.payload ++ more := by
      rw [List.append_assoc]
      exact tail
    by_cases last : (reader.payloadBuf ++ [byte]).length = f.payload.length
    · obtain ⟨payloadBuf, restEq⟩ := List.append_inj tail' last
      refine Or.inr ⟨?_, ?_, restEq⟩
      · simp only [hasFrame, wantsPayload, known, full, current, proper.length, last, lt_irrefl,
          decide_true, decide_false]
        rfl
      · rw [takeFrame]
        dsimp only
        rw [current, payloadBuf]
    · refine Or.inl ⟨Or.inr ⟨full, ?_, ?_, ?_⟩, ?_⟩
      · dsimp only
        rw [headerBuf, parsed, current]
      · exact known
      · dsimp only
        rw [List.length_append, List.length_singleton] at last ⊢
        rw [current, proper.length]
        omega
      · exact (List.append_assoc _ _ _).symm

/-- A reader in the middle of a frame does not hold all of it. -/
theorem held_length_lt (reader : FrameReader) (f : Frame) (more : Bytes)
    (coherent : reader.Coherent) (proper : f.Proper) (starts : reader.held = f.wire ++ more) :
    reader.held.length < f.wire.length := by
  have nine := length_writeTo f.hdr
  rw [proper.wire_eq] at starts ⊢
  rw [List.length_append, nine]
  obtain ⟨short, _, vacant⟩ | ⟨full, current, known, less⟩ := coherent
  · rw [held, vacant, List.append_nil]
    omega
  · have joined : reader.headerBuf ++ reader.payloadBuf =
        f.hdr.writeTo ++ (f.payload ++ more) := by
      rw [← List.append_assoc]
      exact starts
    obtain ⟨headerBuf, _⟩ := List.append_inj joined (full.trans nine.symm)
    rw [headerBuf, proper.readFrom_eq] at current
    rw [current, proper.length] at less
    rw [held, List.length_append, full]
    exact Nat.add_lt_add_left less _

end FrameReader

end H2

namespace Session

open H2

/-! ### A session and the frames it has not read -/

/-- The bytes to come, after those that the reader holds, are the bytes of a list of frames. -/
structure Unread (reader : FrameReader) (bytes : Bytes) (frames : List Frame) : Prop where
  coherent : reader.Coherent
  bytes : reader.held ++ bytes = frames.flatMap Frame.wire
  proper : ∀ f ∈ frames, f.Proper

theorem Unread.append {reader : FrameReader} {bytes : Bytes} {frames more : List Frame}
    (unread : Unread reader bytes frames) (proper : ∀ f ∈ more, f.Proper) :
    Unread reader (bytes ++ more.flatMap Frame.wire) (frames ++ more) where
  coherent := unread.coherent
  bytes := by rw [← List.append_assoc, unread.bytes, List.flatMap_append]
  proper := fun f member =>
    (List.mem_append.mp member).elim (unread.proper f) (proper f)

/-- With no bytes to come there is no frame to come. -/
theorem Unread.eq_nil {reader : FrameReader} {frames : List Frame}
    (unread : Unread reader [] frames) : frames = [] := by
  cases frames with
  | nil => rfl
  | cons f later =>
    have longer := FrameReader.held_length_lt reader f (later.flatMap Frame.wire) unread.coherent
      (unread.proper f List.mem_cons_self) ((List.append_nil _).symm.trans unread.bytes)
    have held := congrArg List.length ((List.append_nil _).symm.trans unread.bytes)
    rw [List.flatMap_cons, List.length_append] at held
    omega

/-- The next byte is held, or it completes the first of the unread frames, which is processed. -/
theorem feedByte_unread (session : Session) (byte : UInt8) (rest : Bytes) (frames : List Frame)
    (alive : session.connection.alive = true)
      (unread : Unread session.reader (byte :: rest) frames) :
    (∃ reader, session.feedByte byte = .ok { session with reader } ∧ Unread reader rest frames) ∨
      ∃ reader f later, frames = f :: later ∧
        session.feedByte byte = { session with reader }.process f ∧ Unread reader rest later := by
  cases frames with
  | nil => exact absurd (List.append_eq_nil_iff.mp unread.bytes).2 (List.cons_ne_nil _ _)
  | cons f later =>
    have first := unread.proper f List.mem_cons_self
    rw [feedByte, if_neg (by rw [alive]; decide)]
    rcases session.reader.push_cases byte rest (later.flatMap Frame.wire) f unread.coherent first
      unread.bytes with ⟨coherent, held⟩ | ⟨frame, taken, restEq⟩
    · refine Or.inl ⟨session.reader.push byte, ?_, coherent, ?_, unread.proper⟩
      · exact drain_of_awaits _ coherent.awaitsBytes
      · rw [held, List.append_assoc]
        exact unread.bytes
    · obtain ⟨coherent, held⟩ := FrameReader.coherent_takeFrame (session.reader.push byte)
      refine Or.inr ⟨(session.reader.push byte).takeFrame.2, f, later, rfl, ?_, coherent, ?_,
        fun other member => unread.proper other (List.mem_cons_of_mem f member)⟩
      · rw [drain_of_hasFrame { session with reader := session.reader.push byte } frame]
        dsimp only
        rw [taken]
      · rw [held, restEq]
        rfl

/-! ### Feeding the bytes of frames -/

section Feeding

variable {config : Config} {invariant : Connection → List Frame → List Frame → Prop}

/-- What holds while a session processes the unread frames and answers them holds while it is fed
their bytes. -/
theorem foldlM_feedByte_unread
    (alive : ∀ connection frames sent, invariant connection frames sent → connection.alive = true)
    (step : ∀ connection f frames sent, invariant connection (f :: frames) sent →
      ∃ after replies, connection.processFrame config f = .ok after ∧
        after.outputBuf = connection.outputBuf ++ replies.flatMap Frame.wire ∧
        (∀ reply ∈ replies, reply.Proper) ∧ invariant after frames (sent ++ replies))
    (data rest : Bytes) (session : Session) (frames sent : List Frame)
    (configured : session.config = config) (holds : invariant session.connection frames sent)
    (unread : Unread session.reader (data ++ rest) frames) :
    ∃ next frames' replies, data.foldlM feedByte session = .ok next ∧ next.config = config ∧
      next.connection.outputBuf = session.connection.outputBuf ++ replies.flatMap Frame.wire ∧
      (∀ reply ∈ replies, reply.Proper) ∧ invariant next.connection frames' (sent ++ replies) ∧
      Unread next.reader rest frames' := by
  induction data generalizing session frames sent with
  | nil =>
    refine ⟨session, frames, [], rfl, configured, (List.append_nil _).symm,
      fun reply member => absurd member List.not_mem_nil, ?_, unread⟩
    rw [List.append_nil]
    exact holds
  | cons byte data inductionHypothesis =>
    rw [List.foldlM_cons]
    rcases feedByte_unread session byte (data ++ rest) frames
      (alive session.connection frames sent holds) unread with
      ⟨reader, fed, unread'⟩ | ⟨reader, f, later, rfl, fed, unread'⟩
    · rw [fed]
      exact inductionHypothesis { session with reader := reader } frames sent configured
        holds unread'
    · obtain ⟨after, replies, run, output, proper, holds'⟩ :=
        step session.connection f later sent holds
      have processed : ({ session with reader := reader } : Session).process f =
          .ok { session with reader := reader, connection := after } := by
        rw [process]
        dsimp only
        rw [configured, run]
        rfl
      rw [fed, processed]
      obtain ⟨next, frames', more, run', config', output', proper', holds'', unread''⟩ :=
        inductionHypothesis { session with reader := reader, connection := after } later
          (sent ++ replies) configured holds' unread'
      refine ⟨next, frames', replies ++ more, run', config', ?_, fun reply member =>
        (List.mem_append.mp member).elim (proper reply) (proper' reply), ?_, unread''⟩
      · rw [output', List.flatMap_append, ← List.append_assoc, ← output]
      · rw [← List.append_assoc]
        exact holds''

theorem feed_unread
    (alive : ∀ connection frames sent, invariant connection frames sent → connection.alive = true)
    (step : ∀ connection f frames sent, invariant connection (f :: frames) sent →
      ∃ after replies, connection.processFrame config f = .ok after ∧
        after.outputBuf = connection.outputBuf ++ replies.flatMap Frame.wire ∧
        (∀ reply ∈ replies, reply.Proper) ∧ invariant after frames (sent ++ replies))
    (data rest : Bytes) (session : Session) (frames : List Frame)
    (configured : session.config = config) (holds : invariant session.connection frames [])
    (unread : Unread session.reader (data ++ rest) frames) :
    ∃ next frames' replies, session.feed data = .ok next ∧ next.config = config ∧
      next.connection.outputBuf = session.connection.outputBuf ++ replies.flatMap Frame.wire ∧
      (∀ reply ∈ replies, reply.Proper) ∧ invariant next.connection frames' replies ∧
      Unread next.reader rest frames' := by
  have lives := alive session.connection frames [] holds
  rw [feed_eq_foldlM session data fun _ => unread.coherent.awaitsBytes,
    if_neg (by rw [lives]; decide)]
  exact foldlM_feedByte_unread alive step data rest session.sawPreface frames [] configured holds
    unread

end Feeding

end Session

end AsyncNet.Http
