/-
This file is about the header list of a response over HTTP/3: what a client has of it after
`handle_response_headers` on the field section that `submit_response` encodes. The section gives
back every header, but the client puts each one into its `headers` container with `set`, which
drops the earlier entries of that name, and it puts none there whose name begins with a colon.

What the container holds in the end is described without the loop: the last entry of each name,
in the order in which these stand in the section.
-/

import AsyncNet.Http.Http2HeaderFields
import AsyncNet.Http.Http3Completion
import AsyncNet.Http.QpackRoundTrip
import AsyncNet.Http.QpackSections

namespace AsyncNet.Http.H3

open H2

/-! ### Replacement -/

/-- An entry with its name in lower case. -/
def lowered (entry : Header) : Header := (toLower entry.1, entry.2)

/-- Two header lists have the same entries in the same order. Names are compared in lower case. -/
def SameFields (fields others : Headers) : Prop := fields.map lowered = others.map lowered

/-- The last entry of each name. -/
def lastEntries : Headers → Headers
  | [] => []
  | entry :: entries =>
      if ∃ later ∈ entries, toLower later.1 = toLower entry.1 then lastEntries entries
      else entry :: lastEntries entries

/-- The name is not that of a pseudo-header. -/
def Ordinary (entry : Header) : Prop := entry.1.getD 0 0 ≠ 58

instance (entry : Header) : Decidable (Ordinary entry) := inferInstanceAs (Decidable (_ ≠ _))

theorem lastEntries_sublist (entries : Headers) : (lastEntries entries).Sublist entries := by
  induction entries with
  | nil => exact List.Sublist.slnil
  | cons entry entries inductionHypothesis =>
    rw [lastEntries]
    split
    · exact inductionHypothesis.cons entry
    · exact inductionHypothesis.cons_cons entry

theorem lastEntries_nodup (entries : Headers) :
    ((lastEntries entries).map fun entry => toLower entry.1).Nodup := by
  induction entries with
  | nil => exact List.nodup_nil
  | cons entry entries inductionHypothesis =>
    rw [lastEntries]
    split
    · exact inductionHypothesis
    · rename_i alone
      refine List.nodup_cons.mpr ⟨?_, inductionHypothesis⟩
      intro repeated
      obtain ⟨later, inside, same⟩ := List.mem_map.mp repeated
      exact alone ⟨later, (lastEntries_sublist entries).subset inside, same⟩

theorem lastEntries_eq_self {entries : Headers}
    (distinct : (entries.map fun entry => toLower entry.1).Nodup) :
    lastEntries entries = entries := by
  induction entries with
  | nil => rfl
  | cons entry entries inductionHypothesis =>
    obtain ⟨alone, others⟩ := List.nodup_cons.mp distinct
    rw [lastEntries, if_neg, inductionHypothesis others]
    rintro ⟨later, inside, same⟩
    exact alone (List.mem_map.mpr ⟨later, inside, same⟩)

/-- Entries that are set one after the other leave the old ones with other names, and the last of
the new ones of each name. -/
theorem foldl_set (entries held : Headers) :
    entries.foldl (fun held entry => Headers.set held entry.1 entry.2) held =
      held.filter (fun old => ∀ entry ∈ entries, toLower old.1 ≠ toLower entry.1) ++
        lastEntries entries := by
  induction entries generalizing held with
  | nil => simp [lastEntries]
  | cons entry entries inductionHypothesis =>
    rw [List.foldl_cons, inductionHypothesis, Headers.set, List.filter_append, List.filter_filter,
      List.append_assoc]
    congr 1
    · refine List.filter_congr fun old _ => ?_
      rw [Bool.eq_iff_iff, Bool.and_eq_true, decide_eq_true_iff, decide_eq_true_iff,
        decide_eq_true_iff, List.forall_mem_cons]
      exact and_comm
    · rw [lastEntries]
      by_cases replaced : ∃ later ∈ entries, toLower later.1 = toLower entry.1
      · obtain ⟨later, inside, same⟩ := replaced
        rw [if_pos ⟨later, inside, same⟩, List.filter_cons_of_neg, List.filter_nil, List.nil_append]
        simpa using ⟨later.1, ⟨later.2, inside⟩, same.symm⟩
      · rw [if_neg replaced, List.filter_cons_of_pos, List.filter_nil, List.singleton_append]
        push Not at replaced
        simpa using fun name value inside => (replaced (name, value) inside).symm

/-- The names differ in more than letter case, and none is that of a pseudo-header. -/
structure Plain (fields : Headers) : Prop where
  distinct : (fields.map fun field => toLower field.1).Nodup
  ordinary : ∀ field ∈ fields, Ordinary field

/-- The header list is what the client's container holds of it exactly when it is plain. -/
theorem sameFields_lastEntries_iff (fields : Headers) :
    SameFields (lastEntries (fields.filter fun field => Ordinary field)) fields ↔ Plain fields := by
  constructor
  · intro same
    have names : (lastEntries (fields.filter fun field => Ordinary field)).map
        (fun entry => toLower entry.1) = fields.map fun entry => toLower entry.1 := by
      have firsts := congrArg (List.map Prod.fst) same
      rw [List.map_map, List.map_map] at firsts
      exact firsts
    refine ⟨names ▸ lastEntries_nodup _, ?_⟩
    have length := congrArg List.length names
    rw [List.length_map, List.length_map] at length
    have fewer := (lastEntries_sublist (fields.filter fun field => Ordinary field)).length_le
    have kept := List.length_filter_le (fun field => decide (Ordinary field)) fields
    have all := List.length_filter_eq_length_iff.mp
      (show (fields.filter fun field => Ordinary field).length = fields.length by omega)
    exact fun field inside => of_decide_eq_true (all field inside)
  · intro plain
    rw [List.filter_eq_self.mpr fun field inside => decide_eq_true (plain.ordinary field inside),
      lastEntries_eq_self plain.distinct]
    rfl

/-! ### The client -/

namespace Session

theorem applyResponseHeader_pseudo {entry : Header} (pseudo : ¬ Ordinary entry)
    (resp : Response) : (applyResponseHeader resp entry).hdrs = resp.hdrs := by
  unfold applyResponseHeader
  dsimp only
  split
  · rfl
  · exact congrArg Response.hdrs (if_neg pseudo)

theorem applyResponseHeader_ordinary {entry : Header} (ordinary : Ordinary entry)
    (resp : Response) :
    (applyResponseHeader resp entry).hdrs = Headers.set resp.hdrs entry.1 entry.2 := by
  unfold applyResponseHeader
  dsimp only
  split
  · rename_i status
    rw [Ordinary, status] at ordinary
    exact absurd ordinary (by decide)
  · exact congrArg Response.hdrs (if_pos ordinary)

/-- The loop of `handle_response_headers` sets the entries that are not of pseudo-headers. -/
theorem hdrs_foldl_applyResponseHeader (entries : Headers) (resp : Response) :
    (entries.foldl applyResponseHeader resp).hdrs =
      (entries.filter fun entry => Ordinary entry).foldl
        (fun held entry => Headers.set held entry.1 entry.2) resp.hdrs := by
  induction entries generalizing resp with
  | nil => rfl
  | cons entry entries inductionHypothesis =>
    rw [List.foldl_cons, inductionHypothesis]
    by_cases ordinary : Ordinary entry
    · rw [List.filter_cons_of_pos (by simpa using ordinary), List.foldl_cons,
        applyResponseHeader_ordinary ordinary]
    · rw [List.filter_cons_of_neg (by simpa using ordinary), applyResponseHeader_pseudo ordinary]

/-- The field section of the `HEADERS` frame that `submit_response` begins with. -/
def fieldSection (resp : Response) : Bytes := encodeStatic (responseHeaders resp)

/-- A stream of a client on which no response headers have come, and whose promise is not complete.
-/
structure AwaitsHeaders (session : Session) (streamId : Nat) : Prop where
  client : session.mode = .client
  known : (session.streams streamId).isSome
  headers : (session.stream streamId).resp.hdrs = []
  pending : ∀ ref, (session.stream streamId).promise = some ref →
    (session.promises ref).complete = false

/-- The headers that the client has of the response on a stream. They are moved to the promise when
it is completed. -/
def obtainedHeaders (session : Session) (streamId : Nat) : Headers :=
  let ss := session.stream streamId
  match ss.promise with
  | none => ss.resp.hdrs
  | some ref =>
      if (session.promises ref).complete then (session.promises ref).resp.hdrs else ss.resp.hdrs

/-- The headers of a stream whose promise is not complete are the same when it has been completed.
-/
theorem obtainedHeaders_completePromise {session : Session} {streamId : Nat}
    (client : session.mode = .client) (known : (session.streams streamId).isSome)
    (pending : ∀ ref, (session.stream streamId).promise = some ref →
      (session.promises ref).complete = false) :
    (session.completePromise streamId).obtainedHeaders streamId =
      (session.stream streamId).resp.hdrs := by
  cases promise : (session.stream streamId).promise with
  | none =>
    have unchanged : session.completePromise streamId = session := by
      unfold completePromise
      dsimp only
      rw [promise]
    rw [unchanged, obtainedHeaders, promise]
  | some ref =>
    have owns : session.Owns streamId ref := ⟨client, known, promise⟩
    have given := promises_completePromise owns (pending ref promise)
    rw [obtainedHeaders, owns.completePromise.promise]
    dsimp only
    rw [given]
    rfl

theorem obtainedHeaders_handleResponseHeaders {session : Session} {streamId : Nat}
    (awaits : session.AwaitsHeaders streamId) {payload : Bytes} {read : Headers}
    (decoded : session.decoder.decode payload = .ok read) :
    ∃ after, session.handleResponseHeaders streamId payload = .ok after ∧
      after.obtainedHeaders streamId = lastEntries (read.filter fun entry => Ordinary entry) := by
  have same := stream_modifyStream session streamId (StreamState.takeHeaders read)
  have hdrs : ((session.stream streamId).takeHeaders read).resp.hdrs =
      lastEntries (read.filter fun entry => Ordinary entry) := by
    show (read.foldl applyResponseHeader (session.stream streamId).resp).hdrs = _
    rw [hdrs_foldl_applyResponseHeader, awaits.headers, foldl_set]
    rfl
  have pending : ∀ ref, ((session.modifyStream streamId (StreamState.takeHeaders read)).stream
      streamId).promise = some ref → (session.promises ref).complete = false := by
    rw [same]
    exact awaits.pending
  have taken : session.handleResponseHeaders streamId payload = .ok
      (if (session.stream streamId).endStream then
        (session.modifyStream streamId (StreamState.takeHeaders read)).completePromise streamId
      else session.modifyStream streamId (StreamState.takeHeaders read)) := by
    unfold handleResponseHeaders
    rw [decoded]
    rfl
  refine ⟨_, taken, ?_⟩
  rw [← hdrs]
  split
  · have known := isSome_modifyStream session streamId (StreamState.takeHeaders read)
    refine (obtainedHeaders_completePromise ?_ known pending).trans ?_
    · exact awaits.client
    · rw [same]
  · rw [obtainedHeaders, same]
    cases promise : ((session.stream streamId).takeHeaders read).promise with
    | none => rfl
    | some ref =>
      have open' : (session.promises ref).complete = false := awaits.pending ref promise
      show (if (session.promises ref).complete then _ else _) = _
      rw [open']
      rfl

/-- A client obtains the header list of the response from the field section. -/
def PreservesHeaders (session : Session) (streamId : Nat) (resp : Response) : Prop :=
  ∃ after, session.handleResponseHeaders streamId (fieldSection resp) = .ok after ∧
    SameFields (after.obtainedHeaders streamId) resp.hdrs

/-- The header list is plain. In a section of 2^31 bytes and more, where the length that the decoder
works with is not that of the section, the headers that it takes are looked at. -/
def KeepsHeaders (decoder : QpackDecoder) (resp : Response) : Prop :=
  if (fieldSection resp).length < 2 ^ 31 then Plain resp.hdrs
  else ∃ read, decoder.Reads (fieldSection resp) read ∧
    SameFields (lastEntries (read.filter fun entry => Ordinary entry)) resp.hdrs

theorem preservesHeaders_iff_read {session : Session} {streamId : Nat}
    (awaits : session.AwaitsHeaders streamId) (resp : Response) :
    session.PreservesHeaders streamId resp ↔
      ∃ read, session.decoder.decode (fieldSection resp) = .ok read ∧
        SameFields (lastEntries (read.filter fun entry => Ordinary entry)) resp.hdrs := by
  constructor
  · rintro ⟨after, handled, same⟩
    obtain ⟨read, decoded, -⟩ := Library.bind_ok handled
    obtain ⟨other, handledToo, obtained⟩ := obtainedHeaders_handleResponseHeaders awaits decoded
    rw [handledToo] at handled
    cases handled
    exact ⟨read, decoded, obtained ▸ same⟩
  · rintro ⟨read, decoded, same⟩
    obtain ⟨after, handled, obtained⟩ := obtainedHeaders_handleResponseHeaders awaits decoded
    exact ⟨after, handled, obtained ▸ same⟩

/-- The header list of a response arrives at the client, in order and with every entry, if and only
if its names differ in more than letter case and none begins with a colon. -/
theorem preservesHeaders_iff (session : Session) (streamId : Nat)
    (awaits : session.AwaitsHeaders streamId) (resp : Response)
    (isAscii : AsciiHeaders resp.hdrs) :
    session.PreservesHeaders streamId resp ↔ KeepsHeaders session.decoder resp := by
  rw [preservesHeaders_iff_read awaits, KeepsHeaders]
  split
  · rename_i small
    have ascii' : AsciiHeaders (responseHeaders resp) := by
      intro header member
      rcases List.mem_cons.mp member with rfl | later
      · exact ⟨show IsAscii (ascii ":status") by decide, isAscii_toString resp.status.code⟩
      · exact isAscii header later
    have decoded := decode_encodeStatic session.decoder (responseHeaders resp) ascii' small
    have pseudo : (responseHeaders resp).filter (fun entry => Ordinary entry) =
        resp.hdrs.filter fun entry => Ordinary entry :=
      List.filter_cons_of_neg (fun wrong => absurd (of_decide_eq_true wrong)
        (show ¬ Ordinary (ascii ":status", toString resp.status.code) by simp [Ordinary, ascii]))
    constructor
    · rintro ⟨read, other, same⟩
      rw [fieldSection, decoded] at other
      cases other
      rw [pseudo] at same
      exact (sameFields_lastEntries_iff resp.hdrs).mp same
    · intro plain
      refine ⟨responseHeaders resp, decoded, ?_⟩
      rw [pseudo]
      exact (sameFields_lastEntries_iff resp.hdrs).mpr plain
  · simp only [QpackDecoder.decode_ok_iff]

/-- A client whose stream 0 is open. -/
def listening : Session := ({ mode := .client } : Session).setStream 0 { state := .opened }

theorem awaitsHeaders_listening : listening.AwaitsHeaders 0 :=
  ⟨rfl, rfl, rfl, fun _ wrong => by cases wrong⟩

/-- Two headers with different names. -/
theorem preservesHeaders_two :
    listening.PreservesHeaders 0 { hdrs := [(ascii "Server", ascii "x"), (ascii "etag", [])] } :=
  (preservesHeaders_iff listening 0 awaitsHeaders_listening _ (by decide)).mpr (by
    rw [KeepsHeaders, if_pos (by decide +kernel)]
    exact ⟨by decide, by decide⟩)

/-- Of two cookies, the client only has the second one. -/
theorem not_preservesHeaders_cookies : ¬ ∀ (session : Session) (streamId : Nat),
    session.AwaitsHeaders streamId → ∀ resp : Response, AsciiHeaders resp.hdrs →
      session.PreservesHeaders streamId resp := by
  intro preserves
  obtain ⟨read, decoded, same⟩ := (preservesHeaders_iff_read awaitsHeaders_listening _).mp
    (preserves listening 0 awaitsHeaders_listening
      { hdrs := [(ascii "set-cookie", ascii "a=1"), (ascii "set-cookie", ascii "b=2")] }
      (by decide))
  have whole : listening.decoder.decode (fieldSection
      { hdrs := [(ascii "set-cookie", ascii "a=1"), (ascii "set-cookie", ascii "b=2")] }) =
      .ok [(ascii ":status", ascii "200"), (ascii "set-cookie", ascii "a=1"),
        (ascii "set-cookie", ascii "b=2")] :=
    decode_encodeStatic _ _ (by decide) ((length_encodeStatic_le _).trans_lt (by decide))
  rw [whole] at decoded
  cases decoded
  exact absurd (congrArg List.length same) (by decide)

end Session

end AsyncNet.Http.H3
