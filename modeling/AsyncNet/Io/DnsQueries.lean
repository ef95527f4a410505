/-
This file models `build_dns_query` of `io/dns.cpp`. The labels of a host are written one after the
other, each behind the number of its bytes, and the packet is read by the grammar of RFC 1035, in
which such a number is at most 63.

The code does not test the length of a label. The number is the length modulo 256, so a label of 64
bytes or more is read as something else: as the end of the name, as a shorter label, or as no label
at all, where the two bits at the top of the number are the mark of a pointer.
-/

import AsyncNet.Http.Types
import AsyncNet.Library.Splitting

namespace AsyncNet.Io.Dns

open Http Library

/-! ### The packet -/

/-- `push16`: the bytes that it appends. -/
def push16 (value : UInt16) : Bytes := [(value >>> 8).toUInt8, (value &&& 0xFF).toUInt8]

/-- `kFlagRD` -/
def flagRd : UInt16 := 0x0100

/-- `kTypeA` -/
def typeA : UInt16 := 1

/-- `kClassIN` -/
def classIn : UInt16 := 1

/-- `'.'` -/
def dot : UInt8 := 46

/-- `std::getline(ss, label, '.')`: what is extracted and what is left, if anything was left. -/
def getline (text : Bytes) : Option (Bytes × Bytes) :=
  if text = [] then none else some (text.takeWhile (· ≠ dot), (text.dropWhile (· ≠ dot)).tail)

theorem length_of_getline {text label rest : Bytes}
    (extracted : getline text = some (label, rest)) :
    rest.length < text.length := by
  unfold getline at extracted
  split at extracted
  · cases extracted
  · rename_i some
    cases extracted
    have shorter := (List.dropWhile_suffix (l := text) (· ≠ dot)).length_le
    have positive := List.length_pos_of_ne_nil some
    rw [List.length_tail]
    omega

/-- The loop over the labels of the host. -/
def pushLabels (pkt text : Bytes) : Bytes :=
  match _extracted : getline text with
  | none => pkt
  | some (label, rest) =>
      if label = [] then pushLabels pkt rest
      else pushLabels (pkt ++ UInt8.ofNat label.length :: label) rest
termination_by text.length
decreasing_by
  · exact length_of_getline _extracted
  · exact length_of_getline _extracted

def buildDnsQuery (host : Bytes) (id : UInt16) : Bytes :=
  let pkt := push16 id ++ push16 flagRd ++ push16 1 ++ push16 0 ++ push16 0 ++ push16 0
  pushLabels pkt host ++ [0] ++ push16 typeA ++ push16 classIn

/-! ### The grammar -/

/-- A name by the grammar of RFC 1035: the labels, and what stands behind the zero. -/
def decodeName : Bytes → Option (List Bytes × Bytes)
  | [] => none
  | length :: rest =>
      if length = 0 then some ([], rest)
      else if 63 < length.toNat ∨ rest.length < length.toNat then none
      else
        (decodeName (rest.drop length.toNat)).map fun (labels, behind) =>
          (rest.take length.toNat :: labels, behind)
termination_by bytes => bytes.length
decreasing_by
  rw [List.length_drop, List.length_cons]
  omega

/-- The labels of a host. -/
def labels (host : Bytes) : List Bytes := (host.splitOn dot).filter (· ≠ [])

/-- The question of a packet is the name of the host, with the type A and the class IN. -/
def AsksFor (pkt host : Bytes) : Prop :=
  decodeName (pkt.drop 12) = some (labels host, push16 typeA ++ push16 classIn)

/-! ### The labels that are written -/

/-- A label behind the number of its bytes. -/
def labelBytes (label : Bytes) : Bytes := UInt8.ofNat label.length :: label

theorem getline_last {text : Bytes} (some : text ≠ []) (absent : dot ∉ text) :
    getline text = .some (text, []) := by
  unfold getline
  rw [if_neg some, takeWhile_ne_of_not_mem absent, dropWhile_ne_of_not_mem absent]
  rfl

theorem getline_cut {front : Bytes} (absent : dot ∉ front) (back : Bytes) :
    getline (front ++ dot :: back) = some (front, back) := by
  have nonempty : front ++ dot :: back ≠ [] :=
    List.append_ne_nil_of_right_ne_nil front (List.cons_ne_nil dot back)
  unfold getline
  rw [if_neg nonempty, takeWhile_ne_append absent, dropWhile_ne_append absent]
  rfl

/-- One label is written, if it is not empty. -/
theorem pushLabels_some {text label rest : Bytes} (extracted : getline text = some (label, rest))
    (pkt : Bytes) :
    pushLabels pkt text =
      pushLabels (if label = [] then pkt else pkt ++ labelBytes label) rest := by
  rw [pushLabels]
  split
  · rename_i none
    rw [extracted] at none
    cases none
  · rename_i extracted'
    rw [extracted] at extracted'
    cases extracted'
    split <;> rfl

theorem pushLabels_nil (pkt : Bytes) : pushLabels pkt [] = pkt := by
  rw [pushLabels]
  rfl

/-- The loop writes the labels of the host. -/
theorem pushLabels_eq (pkt host : Bytes) :
    pushLabels pkt host = pkt ++ (labels host).flatMap labelBytes := by
  induction host using separator_induction dot generalizing pkt with
  | last text absent =>
    rw [labels, List.splitOn_eq_singleton absent]
    by_cases empty : text = []
    · rw [empty, pushLabels_nil]
      exact (List.append_nil pkt).symm
    · have kept : [text].filter (· ≠ []) = [text] :=
        List.filter_cons_of_pos (decide_eq_true empty)
      rw [pushLabels_some (getline_last empty absent), pushLabels_nil, if_neg empty, kept]
      exact congrArg (pkt ++ ·) (List.append_nil _).symm
  | cut front back absent inductionHypothesis =>
    have first : labels (front ++ dot :: back) =
        if front = [] then labels back else front :: labels back := by
      rw [labels, List.splitOn_append_cons_self_of_not_mem absent]
      by_cases empty : front = []
      · rw [if_pos empty]
        exact List.filter_cons_of_neg fun wrong => of_decide_eq_true (p := front ≠ []) wrong empty
      · rw [if_neg empty]
        exact List.filter_cons_of_pos (decide_eq_true empty)
    rw [pushLabels_some (getline_cut absent back), inductionHypothesis, first]
    split
    · rfl
    · rw [List.append_assoc]
      rfl

/-! ### What is read -/

/-- Labels that are not empty are read as they were written if and only if none is too long. -/
theorem decodeName_iff (written : List Bytes) (nonempty : ∀ label ∈ written, label ≠ [])
    (behind : Bytes) :
    decodeName (written.flatMap labelBytes ++ 0 :: behind) = some (written, behind) ↔
      ∀ label ∈ written, label.length ≤ 63 := by
  induction written with
  | nil =>
    refine iff_of_true ?_ fun _ member => (List.not_mem_nil member).elim
    rw [List.flatMap_nil, List.nil_append, decodeName]
    rfl
  | cons label written inductionHypothesis =>
    have later := inductionHypothesis fun other member =>
      nonempty other (List.mem_cons_of_mem _ member)
    have some : label ≠ [] := nonempty label List.mem_cons_self
    have positive := List.length_pos_of_ne_nil some
    have count : (UInt8.ofNat label.length).toNat = label.length % 256 := UInt8.toNat_ofNat'
    have isZero : UInt8.ofNat label.length = 0 ↔ label.length % 256 = 0 := by
      rw [← UInt8.toNat_inj, count]
      rfl
    rw [List.forall_mem_cons, List.flatMap_cons, List.append_assoc, labelBytes, List.cons_append,
      decodeName, count]
    generalize written.flatMap labelBytes ++ 0 :: behind = rest at later ⊢
    split
    · rename_i zero
      have multiple := isZero.mp zero
      exact iff_of_false (fun wrong => by cases wrong) (by omega)
    · split
      · rename_i wide
        have length : (label ++ rest).length = label.length + rest.length := List.length_append
        exact iff_of_false (fun wrong => by cases wrong) (by omega)
      · rename_i fits
        obtain ⟨small, inside⟩ := not_or.mp fits
        constructor
        · intro decoded
          obtain ⟨⟨others, last⟩, front, same⟩ := Option.map_eq_some_iff.mp decoded
          obtain ⟨isLabel, isLast⟩ := Prod.mk.inj same
          obtain ⟨isFirst, isWritten⟩ := List.cons.inj isLabel
          have count' : label.length % 256 = label.length := by
            have taken := congrArg List.length isFirst
            rw [List.length_take] at taken
            omega
          rw [count'] at small front
          rw [List.drop_left, isWritten, isLast] at front
          exact ⟨Nat.le_of_not_lt small, later.mp front⟩
        · rintro ⟨short, others⟩
          rw [Nat.mod_eq_of_lt (by omega), List.take_left, List.drop_left, later.mpr others]
          rfl

/-- What stands behind the header of a packet. -/
theorem drop_buildDnsQuery (host : Bytes) (id : UInt16) :
    (buildDnsQuery host id).drop 12 =
      (labels host).flatMap labelBytes ++ 0 :: (push16 typeA ++ push16 classIn) := by
  unfold buildDnsQuery
  dsimp only
  rw [pushLabels_eq, List.append_assoc, List.append_assoc, List.append_assoc]
  exact List.drop_left' rfl

/-- The question of a packet is decoded to the labels of its host if and only if none of them is too
long. -/
theorem asksFor_iff (host : Bytes) (id : UInt16) :
    AsksFor (buildDnsQuery host id) host ↔ ∀ label ∈ host.splitOn dot, label.length ≤ 63 := by
  have nonempty : ∀ label ∈ labels host, label ≠ [] := fun label member =>
    of_decide_eq_true (List.mem_filter.mp member).2
  unfold AsksFor
  rw [drop_buildDnsQuery, decodeName_iff (labels host) nonempty]
  constructor
  · intro short label member
    by_cases empty : label = []
    · rw [empty]
      exact Nat.zero_le 63
    · exact short label (List.mem_filter.mpr ⟨member, decide_eq_true empty⟩)
  · exact fun short label member => short label (List.mem_filter.mp member).1

/-- A host of one label of 64 bytes. -/
def longLabel : Bytes := List.replicate 64 97

theorem not_asksFor_longLabel : ¬ AsksFor (buildDnsQuery longLabel 0) longLabel := by
  have one : labels longLabel = [longLabel] := by decide
  have nonempty : ∀ label ∈ [longLabel], label ≠ [] := by decide
  unfold AsksFor
  rw [drop_buildDnsQuery, one, decodeName_iff [longLabel] nonempty]
  exact fun short => absurd (short longLabel List.mem_cons_self) (by decide)

end AsyncNet.Io.Dns
