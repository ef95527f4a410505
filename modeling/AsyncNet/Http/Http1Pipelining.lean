/-
This file is about requests that a client sends one after another without waiting. The loop
of a connection starts every request with an empty buffer, so what a read has brought past
the end of a request is lost, and it gives a request up after a number of reads. The requests
are dispatched as they were sent, and a WebSocket connection gets what follows its request,
if and only if the reads end where the requests do and none takes too many.
-/

import AsyncNet.Http.Http1Requests
import AsyncNet.Http.Http1Server

namespace AsyncNet.Http

open Library

namespace Http1

/-! ### What is due -/

/-- What a connection hands over to a WebSocket handler. -/
def Ending.handedOver : Ending → Option (Nat × Request × Bytes)
  | .upgraded offset req handed => some (offset, req, handed)
  | _ => none

/-- The requests that a connection dispatches, with their positions, and what it hands over. -/
def Served.seen (served : Served) : List (Nat × Request) × Option (Nat × Request × Bytes) :=
  (served.dispatched, served.ending.handedOver)

/-- What is due to requests that are sent one after another, and some bytes after them: each is
dispatched as long as the connection is kept alive, and with one that upgrades it all that follows
is handed over. -/
def ServerContext.due (ctx : ServerContext) : Nat → List (Bytes × Request) → Bytes →
    List (Nat × Request) × Option (Nat × Request × Bytes)
  | _, [], _ => ([], none)
  | offset, (wire, req) :: more, tail =>
      if ctx.upgrades req then ([], some (offset, req, more.flatMap Prod.fst ++ tail))
      else if keepsAlive req then
        let later := ctx.due (offset + wire.length) more tail
        ((offset, req) :: later.1, later.2)
      else ([(offset, req)], none)

/-- Well-formed requests are sent one after another, and the reads bring their bytes. Other bytes
follow only where a request upgrades the connection. -/
structure Sent (ctx : ServerContext) (requests : List (Bytes × Request)) (tail : Bytes)
    (reads : List Bytes) : Prop where
  wellFormed : ∀ entry ∈ requests, WellFormed entry.1 entry.2
  bytes : reads.flatten = requests.flatMap Prod.fst ++ tail
  nonempty : ∀ read ∈ reads, read ≠ []
  tail : tail = [] ∨ ∃ entry ∈ requests, ctx.upgrades entry.2 = true

/-! ### Reads -/

/-- The number of reads that bring a number of bytes. -/
def needed : Nat → List Bytes → Nat
  | _, [] => 0
  | count, read :: reads => if count = 0 then 0 else needed (count - read.length) reads + 1

/-- The reads end where the requests end, as far as more is to come after them, and no request takes
more reads than there are attempts to parse it after one. -/
def ServerContext.Delivered (ctx : ServerContext) :
    List (Bytes × Request) → Bytes → List Bytes → Prop
  | [], _, _ => True
  | (wire, req) :: more, tail, reads =>
      needed wire.length reads ≤ 999 ∧
        if ctx.upgrades req then
          match ctx.transport with
          | .plain => (reads.take (needed wire.length reads)).flatten = wire
          | .tls => more.flatMap Prod.fst ++ tail = []
        else
          keepsAlive req = true → more ≠ [] →
            (reads.take (needed wire.length reads)).flatten = wire ∧
              ctx.Delivered more tail (reads.drop (needed wire.length reads))

section Reads

theorem needed_zero (reads : List Bytes) : needed 0 reads = 0 := by
  cases reads with
  | nil => rfl
  | cons read reads => exact if_pos rfl

/-- The reads that are needed bring the bytes. -/
theorem le_length_take_needed (count : Nat) (reads : List Bytes)
    (enough : count ≤ reads.flatten.length) :
    count ≤ (reads.take (needed count reads)).flatten.length := by
  induction reads generalizing count with
  | nil => exact enough
  | cons read reads inductionHypothesis =>
    rw [List.flatten_cons, List.length_append] at enough
    by_cases zero : count = 0
    · rw [zero]
      exact Nat.zero_le _
    · have later := inductionHypothesis (count - read.length) (by omega)
      rw [needed, if_neg zero, List.take_succ_cons, List.flatten_cons, List.length_append]
      omega

theorem flatten_take_append_drop (reads : List Bytes) (count : Nat) :
    (reads.take count).flatten ++ (reads.drop count).flatten = reads.flatten := by
  rw [← List.flatten_append, List.take_append_drop]

theorem eq_nil_of_flatten {reads : List Bytes} (nonempty : ∀ read ∈ reads, read ≠ [])
    (empty : reads.flatten = []) : reads = [] :=
  List.eq_nil_iff_forall_not_mem.mpr fun read member =>
    nonempty read member (List.flatten_eq_nil_iff.mp empty read member)

theorem needed_pos (count : Nat) (reads : List Bytes) (positive : 0 < count)
    (enough : count ≤ reads.flatten.length) : 0 < needed count reads := by
  cases reads with
  | nil => exact absurd enough (not_le.mpr positive)
  | cons read reads =>
    rw [needed, if_neg positive.ne']
    exact Nat.succ_pos _

/-- Fewer reads are left when the bytes that are needed have been taken from them. -/
theorem length_drop_needed (count : Nat) (reads : List Bytes) (positive : 0 < count)
    (enough : count ≤ reads.flatten.length) :
    (reads.drop (needed count reads)).length < reads.length := by
  have taken := needed_pos count reads positive enough
  rw [List.length_drop]
  cases reads with
  | nil => exact absurd taken (lt_irrefl 0)
  | cons read reads => exact Nat.sub_lt (Nat.succ_pos _) taken

end Reads

section Requests

variable {wire : Bytes} {req : Request}

/-- A request is read with the reads that bring its bytes, unless there are too many. -/
theorem readRequest_wellFormed (wellFormed : WellFormed wire req) (attempts : Nat)
    (buffer rest : Bytes) (reads : List Bytes) (bytes : buffer ++ reads.flatten = wire ++ rest) :
    readRequest attempts buffer reads =
      if needed (wire.length - buffer.length) reads < attempts then
        .ok (some req, reads.drop (needed (wire.length - buffer.length) reads))
      else .ok (none, reads.drop attempts) := by
  induction attempts generalizing buffer reads with
  | zero => rfl
  | succ attempts inductionHypothesis =>
    by_cases whole : wire.length ≤ buffer.length
    · obtain ⟨more, rfl⟩ := List.prefix_of_prefix_length_le (List.prefix_append wire rest)
        (bytes ▸ List.prefix_append buffer reads.flatten) whole
      unfold readRequest
      rw [wellFormed.parseRequest_append, Nat.sub_eq_zero_of_le whole, needed_zero,
        if_pos (Nat.succ_pos attempts)]
      rfl
    · have isPrefix : buffer <+: wire := List.prefix_of_prefix_length_le
        (bytes ▸ List.prefix_append buffer reads.flatten) (List.prefix_append wire rest)
        (Nat.le_of_not_le whole)
      have proper : buffer ≠ wire := fun same => whole (by rw [same])
      unfold readRequest
      rw [wellFormed.parseRequest_prefix isPrefix proper]
      cases reads with
      | nil =>
        have lengths := congrArg List.length bytes
        rw [List.flatten_nil, List.append_nil, List.length_append] at lengths
        omega
      | cons read reads =>
        have later := inductionHypothesis (buffer ++ read) reads
          (by rw [List.append_assoc]; exact bytes)
        have missing : ¬ wire.length - buffer.length = 0 := by omega
        show readRequest attempts (buffer ++ read) reads = _
        rw [later, needed, if_neg missing, List.length_append, Nat.sub_add_eq]
        simp only [Nat.add_lt_add_iff_right, List.drop_succ_cons]

end Requests

/-! ### Rounds -/

/-- The server keeps running and what it writes is taken. -/
structure Environment.Up (env : Environment) : Prop where
  running : ∀ round, env.running round = true
  accepts : ∀ round data, data.length ≤ env.accepts round data

section Rounds

variable {ctx : ServerContext} {env : Environment} (rounds round offset : Nat) {reads : List Bytes}
  {wire rest : Bytes} {req : Request}

/-- A round that reads a request. -/
theorem keepAliveLoop_read (up : env.Up) (wellFormed : WellFormed wire req)
    (bytes : reads.flatten = wire ++ rest) (few : needed wire.length reads ≤ 999) :
    (keepAliveLoop ctx env (rounds + 1) round offset reads).seen =
      if ctx.upgrades req then
        ([], some (offset, req, ctx.handOver (reads.drop (needed wire.length reads))))
      else if keepsAlive req then
        let later := (keepAliveLoop ctx env rounds (round + 1)
          (offset + (reads.take (needed wire.length reads)).flatten.length)
          (reads.drop (needed wire.length reads))).seen
        ((offset, req) :: later.1, later.2)
      else ([(offset, req)], none) := by
  have read := readRequest_wellFormed wellFormed 1000 [] rest reads bytes
  rw [List.length_nil, Nat.sub_zero, if_pos (Nat.lt_succ_of_le few)] at read
  have taken : reads.flatten.length - (reads.drop (needed wire.length reads)).flatten.length =
      (reads.take (needed wire.length reads)).flatten.length := by
    have lengths := congrArg List.length
      (flatten_take_append_drop reads (needed wire.length reads))
    rw [List.length_append] at lengths
    omega
  rw [keepAliveLoop, if_pos (up.running round), read]
  dsimp only
  split
  · rfl
  · cases alive : keepsAlive req with
    | false =>
      rw [if_neg (fun both => Bool.false_ne_true both.2)]
      rfl
    | true =>
      rw [if_pos ⟨up.accepts round _, rfl⟩, taken]
      rfl

/-- A round that gives a request up. -/
theorem keepAliveLoop_giveUp (up : env.Up) (wellFormed : WellFormed wire req)
    (bytes : reads.flatten = wire ++ rest) (many : ¬ needed wire.length reads ≤ 999) :
    (keepAliveLoop ctx env (rounds + 1) round offset reads).seen = ([], none) := by
  have read := readRequest_wellFormed wellFormed 1000 [] rest reads bytes
  rw [List.length_nil, Nat.sub_zero, if_neg (fun few => many (Nat.le_of_lt_succ few))] at read
  rw [keepAliveLoop, if_pos (up.running round), read]
  rfl

/-- A round in which nothing is left to be read. -/
theorem keepAliveLoop_nil (up : env.Up) :
    (keepAliveLoop ctx env (rounds + 1) round offset []).seen = ([], none) := by
  rw [keepAliveLoop, if_pos (up.running round)]
  rfl

/-- The position of the first request that is dispatched or handed over. -/
def firstOffset (seen : List (Nat × Request) × Option (Nat × Request × Bytes)) : Option Nat :=
  match seen.1 with
  | [] => seen.2.map Prod.fst
  | entry :: _ => some entry.1

/-- The first request that the loop finds begins where its buffer does. -/
theorem firstOffset_keepAliveLoop :
    ∀ position ∈ firstOffset (keepAliveLoop ctx env rounds round offset reads).seen,
      position = offset := by
  cases rounds with
  | zero => exact fun _ member => absurd member (Option.not_mem_none _)
  | succ rounds =>
    unfold keepAliveLoop
    split
    · split
      · exact fun _ member => absurd member (Option.not_mem_none _)
      · exact fun _ member => absurd member (Option.not_mem_none _)
      · split
        · exact fun position member => (Option.some_inj.mp member).symm
        · exact fun position member => (Option.some_inj.mp member).symm
    · exact fun _ member => absurd member (Option.not_mem_none _)

/-- The first request that is sent is the first that is due. -/
theorem firstOffset_due (ctx : ServerContext) (offset : Nat) (entry : Bytes × Request)
    (more : List (Bytes × Request)) (tail : Bytes) :
    firstOffset (ctx.due offset (entry :: more) tail) = some offset := by
  unfold ServerContext.due
  split
  · rfl
  · split
    · rfl
    · rfl

end Rounds

/-! ### Connections -/

section Connections

variable {ctx : ServerContext} {env : Environment} {tail : Bytes} {reads : List Bytes}

/-- The requests after the first one, when the reads end where it does. -/
theorem Sent.later {wire : Bytes} {req : Request} {more : List (Bytes × Request)}
    (sent : Sent ctx ((wire, req) :: more) tail reads) (stays : ctx.upgrades req = false)
    (count : Nat) (ends : (reads.take count).flatten = wire) :
    Sent ctx more tail (reads.drop count) where
  wellFormed := (List.forall_mem_cons.mp sent.wellFormed).2
  bytes := by
    have bytes := sent.bytes
    rw [← flatten_take_append_drop reads count, ends, List.flatMap_cons, List.append_assoc] at bytes
    exact List.append_cancel_left bytes
  nonempty := fun read member => sent.nonempty read (List.mem_of_mem_drop member)
  tail := by
    refine sent.tail.imp_right fun ⟨entry, member, upgrades⟩ => ⟨entry, ?_, upgrades⟩
    refine (List.mem_cons.mp member).resolve_left fun same => ?_
    rw [same, stays] at upgrades
    exact Bool.false_ne_true upgrades

/-- Nothing is left when the last request has been read. -/
theorem Sent.drop_eq_nil {wire : Bytes} {req : Request}
    (sent : Sent ctx [(wire, req)] tail reads) (stays : ctx.upgrades req = false) :
    reads.drop (needed wire.length reads) = [] := by
  have noTail : tail = [] := by
    refine sent.tail.resolve_right fun ⟨entry, member, upgrades⟩ => ?_
    rw [List.mem_singleton.mp member, stays] at upgrades
    exact Bool.false_ne_true upgrades
  have bytes : reads.flatten = wire := by
    have bytes := sent.bytes
    rw [noTail, List.append_nil] at bytes
    exact bytes.trans (List.append_nil wire)
  have covered := le_length_take_needed wire.length reads (by rw [bytes])
  have lengths := congrArg List.length
    (flatten_take_append_drop reads (needed wire.length reads))
  rw [List.length_append, bytes] at lengths
  refine eq_nil_of_flatten (fun read member => sent.nonempty read (List.mem_of_mem_drop member)) ?_
  exact List.eq_nil_of_length_eq_zero (by omega)

/-- A WebSocket connection gets all that follows its request if and only if the reads end where the
request does, or on a TLS stream if nothing follows. -/
theorem Sent.handOver_iff {wire : Bytes} {req : Request} {more : List (Bytes × Request)}
    (sent : Sent ctx ((wire, req) :: more) tail reads) (count : Nat) :
    ctx.handOver (reads.drop count) = more.flatMap Prod.fst ++ tail ↔
      match ctx.transport with
      | .plain => (reads.take count).flatten = wire
      | .tls => more.flatMap Prod.fst ++ tail = [] := by
  have bytes := sent.bytes
  rw [← flatten_take_append_drop reads count, List.flatMap_cons, List.append_assoc] at bytes
  unfold ServerContext.handOver
  cases ctx.transport with
  | plain =>
    constructor
    · intro same
      rw [show (reads.drop count).flatten = more.flatMap Prod.fst ++ tail from same] at bytes
      exact List.append_cancel_right bytes
    · intro same
      rw [same] at bytes
      exact List.append_cancel_left bytes
  | tls => exact eq_comm

/-- Reads that bring as many bytes as a request has end where it does. -/
theorem Sent.take_eq_of_length {wire : Bytes} {req : Request} {more : List (Bytes × Request)}
    (sent : Sent ctx ((wire, req) :: more) tail reads) (count : Nat)
    (length : (reads.take count).flatten.length = wire.length) :
    (reads.take count).flatten = wire := by
  have bytes := sent.bytes
  rw [← flatten_take_append_drop reads count, List.flatMap_cons, List.append_assoc] at bytes
  exact (List.append_inj bytes length).1

/-- What the loop does is what is due if and only if the requests are delivered. -/
theorem seen_keepAliveLoop_iff (up : env.Up) (requests : List (Bytes × Request))
    (rounds round offset : Nat) (sent : Sent ctx requests tail reads)
    (enough : reads.length < rounds) :
    (keepAliveLoop ctx env rounds round offset reads).seen = ctx.due offset requests tail ↔
      ctx.Delivered requests tail reads := by
  induction requests generalizing rounds round offset reads with
  | nil =>
    obtain ⟨rounds, rfl⟩ := Nat.exists_eq_succ_of_ne_zero (Nat.zero_lt_of_lt enough).ne'
    have noTail : tail = [] := sent.tail.resolve_right fun ⟨_, member, _⟩ => List.not_mem_nil member
    have noReads : reads = [] := by
      refine eq_nil_of_flatten sent.nonempty ?_
      rw [sent.bytes, noTail]
      rfl
    rw [noReads, keepAliveLoop_nil rounds round offset up]
    exact iff_of_true rfl trivial
  | cons entry more inductionHypothesis =>
    obtain ⟨wire, req⟩ := entry
    obtain ⟨rounds, rfl⟩ := Nat.exists_eq_succ_of_ne_zero (Nat.zero_lt_of_lt enough).ne'
    have wellFormed : WellFormed wire req := (List.forall_mem_cons.mp sent.wellFormed).1
    have bytes : reads.flatten = wire ++ (more.flatMap Prod.fst ++ tail) := by
      rw [sent.bytes, List.flatMap_cons, List.append_assoc]
    have arrives : wire.length ≤ reads.flatten.length := by
      rw [bytes, List.length_append]
      exact Nat.le_add_right _ _
    rw [ServerContext.Delivered]
    by_cases few : needed wire.length reads ≤ 999
    · rw [keepAliveLoop_read rounds round offset up wellFormed bytes few, and_iff_right few]
      have fewer : (reads.drop (needed wire.length reads)).length < rounds :=
        (length_drop_needed _ reads wellFormed.length_pos arrives).trans_le
          (Nat.le_of_lt_succ enough)
      cases upgrades : ctx.upgrades req with
      | true =>
        rw [ServerContext.due, if_pos upgrades]
        simp only [if_true, Prod.mk.injEq, true_and, Option.some_inj]
        exact sent.handOver_iff _
      | false =>
        rw [ServerContext.due, if_neg (Bool.eq_false_iff.mp upgrades)]
        simp only [Bool.false_eq_true, if_false]
        cases alive : keepsAlive req with
        | false => exact iff_of_true rfl fun wrong => absurd wrong Bool.false_ne_true
        | true =>
          simp only [if_true, Prod.mk.injEq, List.cons.injEq, true_and, true_imp_iff]
          rw [← Prod.ext_iff]
          cases more with
          | nil =>
            obtain ⟨rounds, rfl⟩ := Nat.exists_eq_succ_of_ne_zero (Nat.zero_lt_of_lt fewer).ne'
            rw [sent.drop_eq_nil upgrades, keepAliveLoop_nil rounds _ _ up]
            exact iff_of_true rfl fun wrong => absurd rfl wrong
          | cons second others =>
            rw [imp_iff_right (List.cons_ne_nil second others)]
            by_cases ends : (reads.take (needed wire.length reads)).flatten = wire
            · rw [and_iff_right ends, ends]
              exact inductionHypothesis rounds (round + 1) _ (sent.later upgrades _ ends) fewer
            · refine iff_of_false (fun same => ends ?_) fun both => ends both.1
              have begins := firstOffset_due ctx (offset + wire.length) second others tail
              rw [← same] at begins
              have position := firstOffset_keepAliveLoop _ _ _ _ begins
              exact sent.take_eq_of_length _ (by omega)
    · rw [keepAliveLoop_giveUp rounds round offset up wellFormed bytes few]
      refine iff_of_false (fun same => ?_) fun both => few both.1
      have begins := firstOffset_due ctx offset (wire, req) more tail
      rw [← same] at begins
      cases begins

/-- Requests that are sent one after another are dispatched as they were sent, once each and as long
as the connection is kept alive, and all that follows an upgrade is handed over, if and only if the
reads end where the requests end and no request takes more than 999 of them. -/
theorem seen_serve_iff (up : env.Up) (requests : List (Bytes × Request))
    (sent : Sent ctx requests tail reads) :
    (serve ctx env reads).seen = ctx.due 0 requests tail ↔ ctx.Delivered requests tail reads :=
  seen_keepAliveLoop_iff up requests _ 0 0 sent (Nat.lt_succ_self _)

end Connections

/-- A request for the root. -/
def getRoot : Bytes := ascii "GET / HTTP/1.1" ++ blankLine ++ []

theorem wellFormed_getRoot : WellFormed getRoot {} := by
  have head : parseHead (ascii "GET / HTTP/1.1" ++ blankLine) 14 18 = .ok {} := by decide +kernel
  exact .request (by decide +kernel) (by decide +kernel) head
    (.none (by decide +kernel) (by decide +kernel)) (by decide +kernel)

theorem up_default : Environment.Up {} := ⟨fun _ => rfl, fun _ _ => le_rfl⟩

/-- The same request twice, however the reads bring it. -/
theorem sent_getRoot {reads : List Bytes} (bytes : reads.flatten = getRoot ++ getRoot)
    (nonempty : ∀ read ∈ reads, read ≠ []) :
    Sent {} [(getRoot, {}), (getRoot, {})] [] reads where
  wellFormed := List.forall_mem_cons.mpr
    ⟨wellFormed_getRoot, List.forall_mem_singleton.mpr wellFormed_getRoot⟩
  bytes := bytes
  nonempty := nonempty
  tail := Or.inl rfl

/-- Each request comes in a read of its own. -/
theorem seen_serve_apart :
    (serve {} {} [getRoot, getRoot]).seen =
        ServerContext.due {} 0 [(getRoot, {}), (getRoot, {})] [] ∧
      (serve {} {} [getRoot, getRoot]).dispatched = [(0, {}), (18, {})] := by
  refine ⟨(seen_serve_iff up_default _ (sent_getRoot rfl (by decide +kernel))).mpr ?_,
    by decide +kernel⟩
  exact ⟨by decide +kernel, fun _ _ => ⟨by decide +kernel, by decide +kernel, fun _ wrong =>
    absurd rfl wrong⟩⟩

/-- One read brings both requests: the second is lost. -/
theorem seen_serve_together :
    Sent {} [(getRoot, {}), (getRoot, {})] [] [getRoot ++ getRoot] ∧
      (serve {} {} [getRoot ++ getRoot]).dispatched = [(0, {})] ∧
      (serve {} {} [getRoot ++ getRoot]).seen ≠
        ServerContext.due {} 0 [(getRoot, {}), (getRoot, {})] [] := by
  refine ⟨sent_getRoot (List.append_nil _) (by decide +kernel), by decide +kernel, ?_⟩
  decide +kernel

end Http1

end AsyncNet.Http
