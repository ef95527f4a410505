/-
This file proves that frames survive the wire. However the bytes of a list of frames are cut, a
reader that is driven as the session drives it gives out exactly these frames, in order: a call
of `feed` stops at the end of a frame or for lack of bytes, and what it holds then is the beginning
of the frames to come. And the parsers of the payloads recover what the builders were given.
-/

import AsyncNet.Http.Http2Wire

namespace AsyncNet.Http.H2

open Library Session

/-! ### Driving the reader -/

namespace FrameReader

/-- The inner loop of the session's `feed`. A reader whose frame has been taken has no other one,
so it takes one frame at most. -/
def takeFrames (reader : FrameReader) : List Frame × FrameReader :=
  if reader.hasFrame then ([reader.takeFrame.1], reader.takeFrame.2) else ([], reader)

/-- The loop of the session's `feed`, with the frames that it takes out of the reader. It goes on
only after a pass that took a byte, so the number of bytes bounds the passes. -/
def readLoop : Nat → FrameReader → Bytes → List Frame × FrameReader
  | 0, reader, _ => ([], reader)
  | passes + 1, reader, data =>
      if data = [] then ([], reader)
      else
        let (fed, rest) := reader.feed data
        let (frames, next) := fed.takeFrames
        if rest.length = data.length ∧ next.hasFrame = false then (frames, next)
        else
          let (later, last) := readLoop passes next rest
          (frames ++ later, last)

/-- The frames that come out of a reader to which a buffer is fed in pieces. -/
def readPieces : FrameReader → List Bytes → List Frame × FrameReader
  | reader, [] => ([], reader)
  | reader, piece :: pieces =>
      let (frames, next) := readLoop piece.length reader piece
      let (later, last) := next.readPieces pieces
      (frames ++ later, last)

/-- A call of `feed` takes everything, or it stops at the end of the first of the frames to come. -/
theorem feed_unread_cases (reader : FrameReader) (data rest : Bytes) (frames : List Frame)
    (unread : Unread reader (data ++ rest) frames) :
    (∃ next, reader.feed data = (next, []) ∧ Unread next rest frames) ∨
      ∃ next more f later, reader.feed data = (next, more) ∧ next.hasFrame = true ∧
        frames = f :: later ∧ next.takeFrame.1 = f ∧ more.length < data.length ∧
        Unread next.takeFrame.2 (more ++ rest) later := by
  induction data generalizing reader with
  | nil => exact Or.inl ⟨reader, rfl, unread⟩
  | cons byte data inductionHypothesis =>
    cases frames with
    | nil => exact absurd (List.append_eq_nil_iff.mp unread.bytes).2 (List.cons_ne_nil _ _)
    | cons f later =>
      rw [feed_cons reader byte data unread.coherent.awaitsBytes]
      rcases reader.push_cases byte (data ++ rest) (later.flatMap Frame.wire) f unread.coherent
        (unread.proper f List.mem_cons_self) unread.bytes with
        ⟨coherent, held⟩ | ⟨frame, taken, restEq⟩
      · rw [hasFrame_of_awaits _ coherent.awaitsBytes, if_neg (by decide)]
        have bytes : (reader.push byte).held ++ (data ++ rest) = (f :: later).flatMap Frame.wire := by
          rw [held, List.append_assoc]
          exact unread.bytes
        rcases inductionHypothesis (reader.push byte) ⟨coherent, bytes, unread.proper⟩ with
          all | ⟨next, more, f', later', fed, frame, same, taken, shorter, unread'⟩
        · exact Or.inl all
        · exact Or.inr ⟨next, more, f', later', fed, frame, same, taken,
            Nat.lt_succ_of_lt shorter, unread'⟩
      · rw [if_pos frame]
        obtain ⟨coherent, held⟩ := coherent_takeFrame (reader.push byte)
        refine Or.inr ⟨reader.push byte, data, f, later, rfl, frame, rfl, taken,
          Nat.lt_succ_self _, coherent, ?_,
          fun other member => unread.proper other (List.mem_cons_of_mem f member)⟩
        rw [held, restEq]
        rfl

/-- A piece gives out the frames that it completes. -/
theorem readLoop_unread (passes : Nat) (reader : FrameReader) (data rest : Bytes)
    (frames : List Frame) (enough : data.length ≤ passes)
    (unread : Unread reader (data ++ rest) frames) :
    ∃ taken left next, frames = taken ++ left ∧ readLoop passes reader data = (taken, next) ∧
      Unread next rest left := by
  induction passes generalizing reader data frames with
  | zero =>
    obtain rfl := List.length_eq_zero_iff.mp (Nat.le_zero.mp enough)
    exact ⟨[], frames, reader, rfl, rfl, unread⟩
  | succ passes inductionHypothesis =>
    rw [readLoop]
    by_cases nonempty : data = []
    · subst nonempty
      exact ⟨[], frames, reader, rfl, rfl, unread⟩
    · rw [if_neg nonempty]
      have positive := List.length_pos_of_ne_nil nonempty
      rcases feed_unread_cases reader data rest frames unread with
        ⟨next, fed, unread'⟩ | ⟨next, more, f, later, fed, frame, rfl, taken, shorter, unread'⟩
      · have awaits := hasFrame_of_awaits next unread'.coherent.awaitsBytes
        obtain ⟨taken, left, last, split, run, unread''⟩ :=
          inductionHypothesis next [] frames (Nat.zero_le _) unread'
        refine ⟨taken, left, last, split, ?_, unread''⟩
        have vacant : next.takeFrames = ([], next) := by rw [takeFrames, awaits, if_neg (by decide)]
        rw [fed]
        dsimp only
        rw [vacant, if_neg (by rw [List.length_nil]; omega), run]
        rfl
      · obtain ⟨others, left, last, split, run, unread''⟩ :=
          inductionHypothesis next.takeFrame.2 more later (by omega) unread'
        refine ⟨f :: others, left, last, by rw [split, List.cons_append], ?_, unread''⟩
        have single : next.takeFrames = ([f], next.takeFrame.2) := by
          rw [takeFrames, if_pos frame, taken]
        rw [fed]
        dsimp only
        rw [single, if_neg (by omega), run]
        rfl

theorem readPieces_unread (pieces : List Bytes) (reader : FrameReader) (frames : List Frame)
    (unread : Unread reader pieces.flatten frames) :
    ∃ next, reader.readPieces pieces = (frames, next) ∧ Unread next [] [] := by
  induction pieces generalizing reader frames with
  | nil =>
    obtain rfl := unread.eq_nil
    exact ⟨reader, rfl, unread⟩
  | cons piece pieces inductionHypothesis =>
    rw [List.flatten_cons] at unread
    obtain ⟨taken, left, next, rfl, run, unread'⟩ :=
      readLoop_unread piece.length reader piece pieces.flatten frames le_rfl unread
    obtain ⟨last, later, unread''⟩ := inductionHypothesis next left unread'
    refine ⟨last, ?_, unread''⟩
    rw [readPieces, run]
    dsimp only
    rw [later]

end FrameReader

/-- A session processes the frame that it takes out of its reader. -/
theorem drain_takeFrames (session next : Session) (drained : session.drain = .ok next) :
    next.config = session.config ∧ next.reader = session.reader.takeFrames.2 ∧
      session.reader.takeFrames.1.foldlM (Connection.processFrame session.config)
        session.connection = .ok next.connection := by
  unfold Session.drain at drained
  unfold FrameReader.takeFrames
  split at drained
  · rename_i frame
    obtain ⟨connection, run, rfl⟩ := map_ok drained
    have processed : Connection.processFrame session.config session.connection
        session.reader.takeFrame.1 = .ok connection := run
    rw [if_pos frame]
    refine ⟨rfl, rfl, ?_⟩
    rw [List.foldlM_cons, processed]
    rfl
  · rename_i none
    cases drained
    rw [if_neg none]
    exact ⟨rfl, rfl, rfl⟩

/-- A session that is still alive after it was fed has processed the frames that its reader gives
out. -/
theorem feedLoop_readLoop (passes : Nat) (session next : Session) (data : Bytes)
    (fed : Session.feedLoop passes session data = .ok next)
    (alive : next.connection.alive = true) :
    next.reader = (FrameReader.readLoop passes session.reader data).2 ∧
      (FrameReader.readLoop passes session.reader data).1.foldlM
        (Connection.processFrame session.config) session.connection = .ok next.connection := by
  induction passes generalizing session data with
  | zero =>
    cases fed
    exact ⟨rfl, rfl⟩
  | succ passes inductionHypothesis =>
    rw [Session.feedLoop] at fed
    rw [FrameReader.readLoop]
    by_cases stops : data = [] ∨ session.connection.alive = false
    · rw [if_pos stops] at fed
      cases fed
      rw [if_pos (stops.resolve_right (by rw [alive]; decide))]
      exact ⟨rfl, rfl⟩
    · obtain ⟨nonempty, _⟩ := not_or.mp stops
      rw [if_neg stops] at fed
      rw [if_neg nonempty]
      rcases pass : session.reader.feed data with ⟨reader, rest⟩
      rw [pass] at fed
      obtain ⟨drained, taken, later⟩ := bind_ok fed
      obtain ⟨sameConfig, sameReader, frames⟩ := drain_takeFrames _ drained taken
      dsimp only at sameConfig sameReader frames ⊢
      rw [← sameReader]
      by_cases idle : rest.length = data.length ∧ drained.reader.hasFrame = false
      · rw [if_pos idle] at later
        rw [if_pos idle]
        cases later
        exact ⟨rfl, frames⟩
      · rw [if_neg idle] at later
        rw [if_neg idle]
        obtain ⟨lastReader, others⟩ := inductionHypothesis drained rest later
        rw [sameConfig] at others
        refine ⟨lastReader, ?_⟩
        rw [List.foldlM_append, frames]
        exact others

/-! ### What `build_frame` is given -/

/-- The arguments of `build_frame`: a type and flags of any value, a stream identifier of 31 bits
and a payload whose length has 24. -/
structure FrameArguments where
  type : UInt8
  flags : UInt8
  streamId : Nat
  payload : Bytes
  identifies : streamId < 2 ^ 31
  short : payload.length < 2 ^ 24

namespace FrameArguments

/-- The bytes that are written. -/
def bytes (arguments : FrameArguments) : Bytes :=
  buildFrame (.ofByte arguments.type) arguments.flags arguments.streamId arguments.payload

/-- The frame that is meant. -/
def frame (arguments : FrameArguments) : Frame :=
  .ofPayload (.ofByte arguments.type) arguments.flags arguments.streamId arguments.payload

end FrameArguments

theorem FrameType.toByte_ofByte (code : UInt8) : (FrameType.ofByte code).toByte = code := by
  have check : ∀ value < 256, (FrameType.ofByte (UInt8.ofNat value)).toByte = UInt8.ofNat value := by
    decide +kernel
  have same := check code.toNat code.toNat_lt
  rwa [UInt8.ofNat_toNat] at same

theorem FrameArguments.proper (arguments : FrameArguments) : arguments.frame.Proper where
  length := rfl
  short := arguments.short
  streamId := arguments.identifies
  type := congrArg FrameType.ofByte (FrameType.toByte_ofByte arguments.type)

/-! ### Payloads -/

theorem SettingId.toNat_ofNat (code : Nat) : (SettingId.ofNat code).toNat = code := by
  unfold ofNat
  split_ifs <;> first | rfl | exact Eq.symm (by assumption)

theorem ErrorCode.toNat_ofNat (code : Nat) : (ErrorCode.ofNat code).toNat = code := by
  unfold ofNat
  split <;> rfl

/-- A `setting_entry`: an identifier of 16 bits and a value of 32. -/
def SettingEntry.ofWords (id : UInt16) (value : UInt32) : SettingEntry where
  id := .ofNat id.toNat
  value := value.toNat

theorem putSetting_length (setting : SettingEntry) : (putSetting setting).length = 6 := rfl

theorem parseSettingsFrom_putSetting (count : Nat) (id : UInt16) (value : UInt32) (rest : Bytes) :
    parseSettingsFrom (count + 1) (putSetting (.ofWords id value) ++ rest) =
      .ofWords id value :: parseSettingsFrom count rest := by
  have number := getUint32_append
    [byteAt (SettingEntry.ofWords id value).id.toNat 8,
      byteAt (SettingEntry.ofWords id value).id.toNat 0] rest value.toNat value.toNat_lt
  have identifier : (byteAt (SettingEntry.ofWords id value).id.toNat 8).toNat * 2 ^ 8 +
      (byteAt (SettingEntry.ofWords id value).id.toNat 0).toNat = id.toNat := by
    have small := id.toNat_lt
    simp only [toNat_byteAt, SettingEntry.ofWords, SettingId.toNat_ofNat]
    omega
  rw [parseSettingsFrom]
  refine congrArg₂ List.cons ?_ rfl
  rw [SettingEntry.ofWords, SettingEntry.mk.injEq]
  exact ⟨congrArg SettingId.ofNat identifier, number⟩

theorem parseSettingsFrom_flatMap (settings : List (UInt16 × UInt32)) :
    parseSettingsFrom settings.length
        ((settings.map fun entry => SettingEntry.ofWords entry.1 entry.2).flatMap putSetting) =
      settings.map fun entry => SettingEntry.ofWords entry.1 entry.2 := by
  induction settings with
  | nil => rfl
  | cons entry settings inductionHypothesis =>
    rw [List.map_cons, List.flatMap_cons, List.length_cons, parseSettingsFrom_putSetting,
      inductionHypothesis]

theorem parseSettings_flatMap (settings : List (UInt16 × UInt32)) :
    parseSettings ((settings.map fun entry => SettingEntry.ofWords entry.1 entry.2).flatMap
      putSetting) = settings.map fun entry => SettingEntry.ofWords entry.1 entry.2 := by
  have length : ((settings.map fun entry => SettingEntry.ofWords entry.1 entry.2).flatMap
      putSetting).length = settings.length * settingsParamSize := by
    rw [List.length_flatMap, List.map_map]
    simp [Function.comp_def, putSetting_length, settingsParamSize]
  rw [parseSettings, length, if_neg (by simp), Nat.mul_div_cancel _ (by decide),
    parseSettingsFrom_flatMap]

theorem parseWindowUpdate_putUint32 (increment : Nat) (small : increment < 2 ^ 31) :
    parseWindowUpdate (putUint32 (increment % 2 ^ 31)) = increment := by
  have number : getUint32 (putUint32 (increment % 2 ^ 31)) 0 = increment % 2 ^ 31 :=
    getUint32_putUint32 [] (increment % 2 ^ 31) (by omega)
  rw [parseWindowUpdate, if_neg (by exact lt_irrefl 4), number, Nat.mod_mod,
    Nat.mod_eq_of_lt small]

theorem parsePushPromise_append (promisedStreamId : Nat) (headerBlock : Bytes)
    (small : promisedStreamId < 2 ^ 31) :
    parsePushPromise (putUint32 (promisedStreamId % 2 ^ 31) ++ headerBlock) =
      (promisedStreamId, headerBlock) := by
  have number : getUint32 (putUint32 (promisedStreamId % 2 ^ 31) ++ headerBlock) 0 =
      promisedStreamId % 2 ^ 31 :=
    getUint32_append [] headerBlock (promisedStreamId % 2 ^ 31) (by omega)
  have long : ¬ (putUint32 (promisedStreamId % 2 ^ 31) ++ headerBlock).length < 4 := by
    rw [List.length_append, putUint32]
    exact Nat.not_lt.mpr (Nat.le_add_right 4 _)
  rw [parsePushPromise, if_neg long, number, Nat.mod_mod, Nat.mod_eq_of_lt small]
  rfl

theorem parseGoaway_append (lastStreamId : Nat) (code : UInt32) (debugData : Bytes)
    (small : lastStreamId < 2 ^ 31) :
    parseGoaway (putUint32 (lastStreamId % 2 ^ 31) ++ putUint32 code.toNat ++ debugData) =
      { lastStreamId, ec := .ofNat code.toNat, debugData } := by
  rw [List.append_assoc]
  set payload := putUint32 (lastStreamId % 2 ^ 31) ++ (putUint32 code.toNat ++ debugData)
  have identifier : getUint32 payload 0 = lastStreamId % 2 ^ 31 :=
    getUint32_append [] (putUint32 code.toNat ++ debugData) (lastStreamId % 2 ^ 31) (by omega)
  have error : getUint32 payload 4 = code.toNat :=
    getUint32_append (putUint32 (lastStreamId % 2 ^ 31)) debugData code.toNat code.toNat_lt
  have long : ¬ payload.length < 8 := by
    simp only [payload, List.length_append, putUint32, List.length_cons, List.length_nil]
    omega
  rw [parseGoaway, if_neg long, identifier, error, Nat.mod_mod, Nat.mod_eq_of_lt small]
  rfl

/-! ### The wire format -/

/-- Frames come out of the reader as they were built, however their bytes are cut, and the payloads
that the builders write are parsed to what the builders were given. -/
theorem wireFormat_roundTrip :
    (∀ (frames : List FrameArguments) (pieces : List Bytes),
      pieces.flatten = frames.flatMap FrameArguments.bytes →
        (FrameReader.readPieces {} pieces).1 = frames.map FrameArguments.frame) ∧
    (∀ settings : List (UInt16 × UInt32),
      let entries := settings.map fun entry => SettingEntry.ofWords entry.1 entry.2
      ∃ payload, buildSettingsFrame entries false = buildFrame .settings Flag.none 0 payload ∧
        parseSettings payload = entries) ∧
    (∀ streamId increment : Nat, streamId < 2 ^ 31 → increment < 2 ^ 31 →
      ∃ payload, buildWindowUpdate streamId increment =
          buildFrame .windowUpdate 0 streamId payload ∧
        parseWindowUpdate payload = increment) ∧
    (∀ (lastStreamId : Nat) (code : UInt32) (debugData : Bytes), lastStreamId < 2 ^ 31 →
      ∃ payload, buildGoaway lastStreamId (.ofNat code.toNat) debugData =
          buildFrame .goaway 0 0 payload ∧
        parseGoaway payload = { lastStreamId, ec := .ofNat code.toNat, debugData }) ∧
    ∀ (streamId promisedStreamId : Nat) (headerBlock : Bytes),
      streamId < 2 ^ 31 → promisedStreamId < 2 ^ 31 →
      ∃ payload, buildPushPromise streamId promisedStreamId headerBlock =
          buildFrame .pushPromise Flag.endHeaders streamId payload ∧
        parsePushPromise payload = (promisedStreamId, headerBlock) := by
  refine ⟨fun frames pieces joined => ?_, fun settings => ?_, fun streamId increment _ small => ?_,
    fun lastStreamId code debugData small => ?_,
    fun streamId promisedStreamId headerBlock _ small => ?_⟩
  · have unread : Unread {} pieces.flatten (frames.map FrameArguments.frame) := by
      refine ⟨FrameReader.coherent_new, ?_, ?_⟩
      · rw [joined, List.flatMap_map]
        rfl
      · intro f member
        obtain ⟨arguments, _, rfl⟩ := List.mem_map.mp member
        exact arguments.proper
    obtain ⟨next, run, _⟩ := FrameReader.readPieces_unread pieces {} _ unread
    rw [run]
  · exact ⟨_, rfl, parseSettings_flatMap settings⟩
  · exact ⟨_, rfl, parseWindowUpdate_putUint32 increment small⟩
  · refine ⟨_, rfl, ?_⟩
    rw [ErrorCode.toNat_ofNat]
    exact parseGoaway_append lastStreamId code debugData small
  · exact ⟨_, rfl, parsePushPromise_append promisedStreamId headerBlock small⟩

/-- Two empty frames of unknown types, cut inside the second header, and a window update. -/
theorem wireFormat_roundTrip_two :
    (FrameReader.readPieces {}
        [[0, 0, 0, 0xAA, 0xFF, 0, 0, 0, 1, 0, 0, 0], [], [0x0B, 0, 0, 0, 0, 0]]).1 =
      [.ofPayload (.unknown 0xAA) 0xFF 1 [], .ofPayload (.unknown 0x0B) 0 0 []] ∧
    ∃ payload, buildWindowUpdate 1 65535 = buildFrame .windowUpdate 0 1 payload ∧
      parseWindowUpdate payload = 65535 :=
  ⟨wireFormat_roundTrip.1
      [{ type := 0xAA, flags := 0xFF, streamId := 1, payload := [], identifies := by decide,
         short := by decide },
        { type := 0x0B, flags := 0, streamId := 0, payload := [], identifies := by decide,
          short := by decide }]
      [[0, 0, 0, 0xAA, 0xFF, 0, 0, 0, 1, 0, 0, 0], [], [0x0B, 0, 0, 0, 0, 0]] (by decide),
    wireFormat_roundTrip.2.2.1 1 65535 (by decide) (by decide)⟩

end AsyncNet.Http.H2
