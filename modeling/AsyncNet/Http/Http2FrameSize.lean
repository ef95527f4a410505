/-
This file is about the size of the frames that a session sends. Headers and data are
split where the limit of the peer requires it, and the other frames are short. Only
PUSH_PROMISE is not split: it is within the limit if and only if the header block of the
promised request is.
-/

import AsyncNet.Http.Http2History
import AsyncNet.Http.HpackLongString

namespace AsyncNet.Http

open Library H2

/-! ### The sizes of frames -/

section Sizes

variable (type : FrameType) (flags : UInt8) (sid size : Nat)

theorem length_splitInto (count : Nat) (rest : Bytes) :
    ∀ f ∈ splitInto type flags sid size count rest, f.payload.length ≤ size := by
  intro f member
  obtain ⟨flags, piece, short, rfl⟩ := mem_splitInto _ _ _ _ _ _ member
  exact short

theorem length_headerFrames (block : Bytes) :
    ∀ f ∈ headerFrames sid flags size block, f.payload.length ≤ size := by
  intro f member
  obtain ⟨type, flags, piece, -, short, rfl⟩ := mem_headerFrames _ _ _ _ member
  exact short

theorem length_dataFrames (data : Bytes) (endStream : Bool) :
    ∀ f ∈ Account.dataFrames sid size data endStream, f.payload.length ≤ size := by
  unfold Account.dataFrames
  dsimp only
  split
  · intro f member
    rw [List.mem_singleton.mp member]
    exact Nat.zero_le size
  · exact length_splitInto _ _ sid size _ _

end Sizes

theorem Control.length_frame (control : Control) : control.frame.payload.length ≤ 72 := by
  cases control with
  | settingsAck => exact Nat.zero_le 72
  | ping payload =>
    have short := List.length_take_le 8 payload
    exact short.trans (by decide)
  | reset sid error => exact show 4 ≤ 72 by decide
  | windowUpdate sid increment => exact show 4 ≤ 72 by decide
  | goaway lastStreamId error debug short =>
    show (putUint32 _ ++ putUint32 _ ++ debug).length ≤ 72
    rw [List.length_append]
    exact Nat.add_le_add (show 8 ≤ 8 by decide) short

/-! ### The limit -/

namespace Account

/-- Every frame is within the limit that was in force when it was built. -/
def WithinLimits (account : Account) : Prop :=
  ∀ entry ∈ account.enqueued, entry.2.payload.length ≤ entry.1

/-- The header block of a promised request fits into one frame. -/
def PromiseFits (account : Account) : Deed → Prop
  | .call (.submitPush _ req _) =>
      account.enablePush = true →
        4 + (account.encoder.encode (Connection.requestHeaders req)).1.length ≤ account.maxFrameSize
  | _ => True

section Limits

variable (account : Account)

theorem withinLimits_enqueue (frames : List Frame) :
    (account.enqueue frames).WithinLimits ↔
      account.WithinLimits ∧ ∀ f ∈ frames, f.payload.length ≤ account.maxFrameSize := by
  constructor
  · intro within
    refine ⟨fun entry member => within entry (List.mem_append_left _ member), fun f member => ?_⟩
    exact within (account.maxFrameSize, f)
      (List.mem_append_right _ (List.mem_map_of_mem member))
  · rintro ⟨within, fits⟩ entry member
    rcases List.mem_append.mp member with before | new
    · exact within entry before
    · obtain ⟨f, is, rfl⟩ := List.mem_map.mp new
      exact fits f is

theorem withinLimits_sendHeaders (sid : Nat) (flags : UInt8) (headers : Headers) :
    (account.sendHeaders sid flags headers).WithinLimits ↔ account.WithinLimits :=
  (withinLimits_enqueue _ _).trans
    (and_iff_left (length_headerFrames flags sid account.maxFrameSize _))

theorem withinLimits_sendBody (sid : Nat) (body : Bytes) (noEndStream : Bool) :
    (account.sendBody sid body noEndStream).WithinLimits ↔ account.WithinLimits :=
  (withinLimits_enqueue _ _).trans
    (and_iff_left (length_splitInto .data _ sid account.maxFrameSize _ _))

theorem withinLimits_sendTrailers (sid : Nat) (trailers : Headers) :
    (account.sendTrailers sid trailers).WithinLimits ↔ account.WithinLimits := by
  unfold sendTrailers
  split
  · exact withinLimits_sendHeaders account sid _ _
  · rfl

theorem withinLimits_submitResponse (sid : Nat) (resp : Response) :
    (account.submitResponse sid resp).WithinLimits ↔ account.WithinLimits :=
  (withinLimits_sendTrailers _ sid _).trans
    ((withinLimits_sendBody _ sid _ _).trans (withinLimits_sendHeaders account sid _ _))

theorem withinLimits_submitPush (parent : Nat) (req : Request) (resp : Response) :
    (account.submitPush parent req resp).WithinLimits ↔
      account.WithinLimits ∧ account.PromiseFits (.call (.submitPush parent req resp)) := by
  unfold PromiseFits
  cases enabled : account.enablePush with
  | false =>
    rw [submitPush_of_disabled account parent req resp enabled]
    exact (and_iff_left fun wrong => absurd wrong Bool.false_ne_true).symm
  | true =>
    rw [submitPush_of_enabled account parent req resp enabled]
    refine (withinLimits_submitResponse _ _ resp).trans ((withinLimits_enqueue _ _).trans ?_)
    refine and_congr_right fun _ => ?_
    rw [List.forall_mem_singleton]
    show (putUint32 _ ++ (account.encoder.encode (Connection.requestHeaders req)).1).length ≤ _ ↔ _
    rw [List.length_append]
    exact ⟨fun fits _ => fits, fun fits => fits rfl⟩

theorem withinLimits_call (command : Command) :
    (account.call command).WithinLimits ↔
      account.WithinLimits ∧ account.PromiseFits (.call command) := by
  cases command with
  | submitResponse sid resp =>
    exact (withinLimits_submitResponse account sid resp).trans (and_iff_left trivial).symm
  | submitResponseHeaders sid resp =>
    exact (withinLimits_sendHeaders account sid 0 _).trans (and_iff_left trivial).symm
  | submitData sid data endStream =>
    refine ((withinLimits_enqueue _ _).trans (and_iff_left ?_)).trans (and_iff_left trivial).symm
    exact length_dataFrames sid account.maxFrameSize data endStream
  | submitTrailers sid trailers =>
    exact (withinLimits_sendHeaders account sid _ _).trans (and_iff_left trivial).symm
  | submitRequest req promise noEndStream =>
    exact ((withinLimits_sendBody _ _ _ _).trans (withinLimits_sendHeaders _ _ _ _)).trans
      (and_iff_left trivial).symm
  | submitPush parent req resp => exact withinLimits_submitPush account parent req resp
  | _ => exact (and_iff_left trivial).symm

theorem withinLimits_control (control : Control) (sound : account.Sound) :
    (account.control control).WithinLimits ↔ account.WithinLimits := by
  have short : ∀ f ∈ [control.frame], f.payload.length ≤ account.maxFrameSize := by
    rw [List.forall_mem_singleton]
    exact control.length_frame.trans ((show 72 ≤ 16384 by decide).trans sound.1)
  have sends := (withinLimits_enqueue account [control.frame]).trans (and_iff_left short)
  cases control with
  | _ => exact sends

/-- A deed keeps the frames within the limits if and only if the promise it makes fits. -/
theorem withinLimits_act (deed : Deed) (sound : account.Sound) :
    (account.act deed).WithinLimits ↔ account.WithinLimits ∧ account.PromiseFits deed := by
  cases deed with
  | call command => exact withinLimits_call account command
  | control control =>
    exact (withinLimits_control account control sound).trans (and_iff_left trivial).symm
  | credit sid increment =>
    refine Iff.trans ?_ (and_iff_left trivial).symm
    obtain ⟨_, replies, are, credited⟩ := addCredit_eq account sid increment
    have short : ∀ f ∈ replies, f.payload.length ≤ account.maxFrameSize := by
      intro f member
      rw [are f member]
      exact (show 4 ≤ 16384 by decide).trans sound.1
    rw [act, credited]
    exact (withinLimits_enqueue (account.recordCredit sid increment) replies).trans
      (and_iff_left short)
  | grant increment =>
    have short : ∀ f ∈ [windowUpdateFrame 0 increment], f.payload.length ≤
      account.maxFrameSize := by
      rw [List.forall_mem_singleton]
      exact (show 4 ≤ 16384 by decide).trans sound.1
    exact ((withinLimits_enqueue account _).trans (and_iff_left short)).trans
      (and_iff_left trivial).symm
  | setting entry =>
    refine Iff.trans (iff_of_eq ?_) (and_iff_left trivial).symm
    obtain ⟨_, _, _, _, _, changed⟩ := setting_eq account entry
    rewrite [act, changed]
    rfl
  | _ => exact (and_iff_left trivial).symm

end Limits

end Account

/-! ### Runs -/

namespace Session

/-- The frames of a session are within the limits that were in force when they were built if and
only if the header block of every promised request fits into one frame. -/
theorem withinLimits_iff (mode : Mode) (actions : List Action) (final : Session)
    (run : actions.foldlM act (create mode) = .ok final) :
    Refines (account mode actions) final.connection ∧
      ((account mode actions).WithinLimits ↔
        Throughout Account.act Account.PromiseFits (Account.create mode)
          ((create mode).history actions)) := by
  have first : (Account.create mode).WithinLimits := by
    intro entry member
    rw [List.mem_singleton.mp member]
    exact show 24 ≤ 16384 by decide
  refine ⟨refines_account mode actions final run, ?_⟩
  exact (foldl_iff_throughout (fun account deed => account.sound_act deed)
    (fun account deed => account.withinLimits_act deed) _ _ (Account.sound_create mode)).trans
    (and_iff_right first)

/-- A short promise keeps within the limits. -/
theorem withinLimits_short_promise :
    (account .server [.op (.call (.submitPush 1 { path := ascii "/a" } { bd := ascii "x" }))]
      ).WithinLimits :=
  (withinLimits_iff .server _ _ rfl).2.mpr ⟨fun _ => by decide, trivial⟩

/-! ### A promise that is too long -/

/-- A long value is in no entry of the static table, so it is spelled out. -/
theorem length_encodeHeader_letters (name : Bytes) (count : Nat) (long : 100 ≤ count) :
    count ≤ (encodeHeader (name, letters count)).length := by
  have short : ∀ entry ∈ hpackStaticTable, entry.2.length < 100 := by decide
  have inexact : (hpackFindStatic name (letters count)).2 = false := by
    by_contra found
    obtain ⟨_, _, entry⟩ := hpackFindStatic_exact name (letters count) _
      (Prod.ext rfl (Bool.eq_true_of_not_eq_false found))
    have bound := short _ (List.mem_of_getElem? entry)
    rw [length_letters] at bound
    exact absurd bound (not_lt.mpr long)
  unfold encodeHeader
  dsimp only
  have value : count ≤ (encodeString (letters count)).length := by
    rw [encodeString_letters, List.length_append, length_letters]
    exact Nat.le_add_left count _
  rw [if_neg (by rw [inexact]; decide), List.length_append]
  exact value.trans (Nat.le_add_left _ _)

/-- The header block of a request is at least as long as its path. -/
theorem length_encode_letters (encoder : HpackEncoder) (count : Nat) (long : 100 ≤ count) :
    count ≤ (encoder.encode (Connection.requestHeaders { path := letters count })).1.length := by
  have nonempty : letters count ≠ [] := by
    rw [← List.length_pos_iff, length_letters]
    omega
  have path := length_encodeHeader_letters (ascii ":path") count long
  unfold HpackEncoder.encode Connection.requestHeaders
  dsimp only
  rw [if_neg nonempty, List.length_append, List.flatMap_append, List.length_append,
    List.flatMap_cons, List.length_append, List.flatMap_cons, List.length_append]
  omega

/-- The promise of a request with a path of 16384 bytes is one frame beyond the limit. -/
theorem not_withinLimits_long_promise :
    ∃ final, [Action.op (.call (.submitPush 1 { path := letters 16384 } {}))].foldlM act
        (create .server) = .ok final ∧
      Refines (account .server [.op (.call (.submitPush 1 { path := letters 16384 } {}))])
        final.connection ∧
      ¬ (account .server [.op (.call (.submitPush 1 { path := letters 16384 } {}))]
        ).WithinLimits := by
  refine ⟨_, rfl, refines_account .server _ _ rfl, fun within => ?_⟩
  have fits := ((Account.withinLimits_submitPush (Account.create .server) 1
    { path := letters 16384 } {}).mp within).2 rfl
  have long := length_encode_letters (Account.create .server).encoder 16384 (by decide)
  have limit : (Account.create .server).maxFrameSize = 16384 := rfl
  omega

end Session

end AsyncNet.Http
