/-
This file models `uri::parse` of `include/async_net/http/types.hpp` and compares it with the
components that a text is built from. The parser looks for the slash of the path first, so a query
or a fragment right behind the authority is taken for a part of the authority. A component that is
absent leaves what the object has held before, and the number of a port is cut to 16 bits.
-/

import AsyncNet.Http.Decimal
import AsyncNet.Library.Splitting

namespace AsyncNet.Http

open Library

/-! ### The parser -/

/-- `uri`. -/
structure Uri where
  raw : Bytes := []
  scheme : Bytes := ascii "http"
  host : Bytes := []
  port : UInt16 := 80
  path : Bytes := ascii "/"
  query : Bytes := []
  fragment : Bytes := []
  deriving DecidableEq, Repr

namespace Uri

/-- The port of a scheme. -/
def defaultPort (scheme : Bytes) : UInt16 :=
  if scheme = ascii "https" ∨ scheme = ascii "h3" then 443 else 80

/-- The scheme and what follows it. -/
def splitScheme (url : Bytes) : Bytes × Bytes :=
  match indexOf (ascii "://") url with
  | some pos => (url.take pos, url.drop (pos + 3))
  | none => (ascii "http", url)

/-- The authority and what follows it. -/
def splitAuthority (rest : Bytes) : Bytes × Bytes :=
  match indexOf (ascii "/") rest with
  | some pos => (rest.take pos, rest.drop pos)
  | none => (rest, ascii "/")

/-- The host and the port of an authority. -/
def splitPort (scheme authority : Bytes) : Bytes × UInt16 :=
  match lastIndexOf 58 authority with
  | some colon =>
      (authority.take colon, UInt16.ofInt (fromChars (authority.drop (colon + 1))))
  | none => (authority, defaultPort scheme)

/-- What stands before a mark and behind it. Without the mark a member keeps what it holds. -/
def splitMark (mark : UInt8) (kept text : Bytes) : Bytes × Bytes :=
  match indexOf [mark] text with
  | some pos => (text.take pos, text.drop (pos + 1))
  | none => (text, kept)

/-- The path, the query and the fragment. -/
def splitTarget (previous : Uri) (rest : Bytes) : Bytes × Bytes × Bytes :=
  let (pathQuery, fragment) := splitMark 35 previous.fragment rest
  let (path, query) := splitMark 63 previous.query pathQuery
  (if path = [] then ascii "/" else path, query, fragment)

/-- `uri::parse` on an object that has held another URI. -/
def parse (previous : Uri) (url : Bytes) : Uri :=
  let (scheme, rest) := splitScheme url
  let (authority, rest) := splitAuthority rest
  let (host, port) := splitPort scheme authority
  let (path, query, fragment) := splitTarget previous rest
  { raw := url, scheme, host, port, path, query, fragment }

end Uri

/-! ### Components -/

/-- The components of a URI. -/
structure Components where
  scheme : Bytes
  host : Bytes
  port : Option Nat
  path : Option Bytes
  query : Option Bytes
  fragment : Option Bytes
  schemePlain : 58 ∉ scheme ∧ 47 ∉ scheme
  hostPlain : 58 ∉ host ∧ 47 ∉ host ∧ 63 ∉ host ∧ 35 ∉ host
  pathRooted : ∀ text ∈ path, text.head? = some 47
  queryPlain : ∀ text ∈ query, 35 ∉ text

/-- A component with the mark before it. -/
def marked (mark : UInt8) : Option Bytes → Bytes
  | none => []
  | some text => mark :: text

namespace Components

variable (components : Components)

/-- The query and the fragment. -/
def tail : Bytes := marked 63 components.query ++ marked 35 components.fragment

/-- The authority. -/
def authority : Bytes := components.host ++ marked 58 (components.port.map decimal)

/-- The text of the components. -/
def text : Bytes :=
  components.scheme ++ ascii "://" ++ components.authority ++ components.path.getD [] ++
    components.tail

/-- The port that is meant. -/
def expectedPort : Nat := components.port.getD (Uri.defaultPort components.scheme).toNat

/-- The object holds exactly the components. No object holds a port above 65535. -/
structure RecoveredBy (read : Uri) : Prop where
  scheme : read.scheme = components.scheme
  host : read.host = components.host
  port : read.port.toNat = components.expectedPort
  path : read.path = components.path.getD (ascii "/")
  query : read.query = components.query.getD []
  fragment : read.fragment = components.fragment.getD []

/-- What follows the authority is cut at the slash, and what the object has held before stands for
what is not found. -/
def LeftOver (previous : Uri) (back : Bytes) : Prop :=
  (back = [] ∨ back = ascii "/") ∧ previous.query = components.query.getD [] ∧
      previous.fragment = components.fragment.getD [] ∨
    back = ascii "/#" ++ components.fragment.getD [] ∧
      previous.query = components.query.getD [] ∨
    back = ascii "/?" ++ components.query.getD [] ∧
      previous.fragment = components.fragment.getD []

/-- The components that are read as they are over an object. With a path it must not hold a mark,
and what is absent must have been empty before. Without a path the query and the fragment are read
as a part of the authority, up to a slash in them. -/
def ReadOver (previous : Uri) : Prop :=
  (∀ port ∈ components.port, port ≤ 65535) ∧
    match components.path with
    | some path =>
        63 ∉ path ∧ 35 ∉ path ∧ (components.query = none → previous.query = []) ∧
          (components.fragment = none → previous.fragment = [])
    | none =>
        ∃ front back, components.tail = front ++ back ∧ 47 ∉ front ∧ 58 ∉ front ∧
          (front = [] ∨ components.port.isSome) ∧ components.LeftOver previous back

end Components

/-! ### Cutting -/

namespace Uri

theorem splitMark_append (mark : UInt8) (kept : Bytes) {front : Bytes} (absent : mark ∉ front)
    (part : Option Bytes) :
    splitMark mark kept (front ++ marked mark part) = (front, part.getD kept) := by
  unfold splitMark
  cases part with
  | none =>
    rw [marked, List.append_nil, indexOf_singleton_of_not_mem absent]
    rfl
  | some text =>
    rw [marked, indexOf_singleton_append absent]
    dsimp only
    rw [List.take_left, drop_append_cons]
    rfl

/-- A text is what is cut off, and the mark and what stands behind it, if it has been found. -/
theorem splitMark_eq_iff {mark : UInt8} {kept text front held : Bytes} :
    splitMark mark kept text = (front, held) ↔
      ∃ part, text = front ++ marked mark part ∧ mark ∉ front ∧ held = part.getD kept := by
  constructor
  · intro cut
    rcases eq_or_eq_append_cons mark text with absent | ⟨before, behind, rfl, absent⟩
    · have whole := splitMark_append mark kept absent none
      rw [marked, List.append_nil, cut, Prod.mk.injEq] at whole
      obtain ⟨rfl, value⟩ := whole
      exact ⟨none, (List.append_nil _).symm, absent, value⟩
    · have parts := splitMark_append mark kept absent (some behind)
      rw [marked, cut, Prod.mk.injEq] at parts
      obtain ⟨rfl, value⟩ := parts
      exact ⟨some behind, rfl, absent, value⟩
  · rintro ⟨part, rfl, absent, rfl⟩
    exact splitMark_append mark kept absent part

/-- A target that begins with a slash is its path with what has been found behind the marks. -/
theorem splitTarget_eq_iff {previous : Uri} {rest path query fragment : Bytes}
    (rooted : rest.head? = some 47) :
    splitTarget previous rest = (path, query, fragment) ↔
      ∃ foundQuery foundFragment,
        rest = path ++ marked 63 foundQuery ++ marked 35 foundFragment ∧ 63 ∉ path ∧
          35 ∉ path ++ marked 63 foundQuery ∧ query = foundQuery.getD previous.query ∧
          fragment = foundFragment.getD previous.fragment := by
  have some : ∀ {front : Bytes} {foundQuery foundFragment : Option Bytes},
      rest = front ++ marked 63 foundQuery ++ marked 35 foundFragment → front ≠ [] := by
    rintro front foundQuery foundFragment rfl rfl
    cases foundQuery with
    | some text => cases rooted
    | none =>
      cases foundFragment with
      | some text => cases rooted
      | none => cases rooted
  constructor
  · intro cut
    obtain ⟨foundFragment, outer, noFragment, fragmentIs⟩ :=
      splitMark_eq_iff.mp (Prod.eta (splitMark 35 previous.fragment rest)).symm
    obtain ⟨foundQuery, inner, noQuery, queryIs⟩ := splitMark_eq_iff.mp
      (Prod.eta (splitMark 63 previous.query (splitMark 35 previous.fragment rest).1)).symm
    rw [inner] at outer noFragment
    unfold splitTarget at cut
    simp only [Prod.mk.injEq, if_neg (some outer)] at cut
    obtain ⟨rfl, rfl, rfl⟩ := cut
    exact ⟨foundQuery, foundFragment, outer, noQuery, noFragment, queryIs, fragmentIs⟩
  · rintro ⟨foundQuery, foundFragment, whole, noQuery, noFragment, rfl, rfl⟩
    have path := some whole
    unfold splitTarget
    rw [whole, splitMark_append 35 _ noFragment]
    dsimp only
    rw [splitMark_append 63 _ noQuery]
    dsimp only
    rw [if_neg path]

theorem splitScheme_append {scheme : Bytes} (plain : 58 ∉ scheme) (rest : Bytes) :
    splitScheme (scheme ++ ascii "://" ++ rest) = (scheme, rest) := by
  have found : indexOf (ascii "://") (scheme ++ ascii "://" ++ rest) = some scheme.length := by
    rw [List.append_assoc]
    exact @indexOf_first _ _ 58 [47, 47] scheme plain rest
  have behind : (scheme ++ ascii "://" ++ rest).drop (scheme.length + 3) = rest :=
    List.drop_left' (List.length_append ..)
  unfold splitScheme
  rw [found]
  dsimp only
  rw [behind, List.append_assoc, List.take_left]

theorem splitAuthority_append {front back : Bytes} (noSlash : 47 ∉ front)
    (rooted : ∀ byte ∈ back.head?, byte = 47) :
    splitAuthority (front ++ back) = (front, if back = [] then ascii "/" else back) := by
  unfold splitAuthority
  cases back with
  | nil =>
    have absent : indexOf (ascii "/") front = none := indexOf_singleton_of_not_mem noSlash
    rw [List.append_nil, absent, if_pos rfl]
  | cons byte back =>
    obtain rfl := rooted byte rfl
    have found : indexOf (ascii "/") (front ++ 47 :: back) = some front.length :=
      indexOf_singleton_append noSlash back
    rw [found, if_neg (List.cons_ne_nil _ _)]
    dsimp only
    rw [List.take_left, List.drop_left]

theorem splitPort_of_not_mem (scheme : Bytes) {authority : Bytes} (absent : 58 ∉ authority) :
    splitPort scheme authority = (authority, defaultPort scheme) := by
  rw [splitPort, lastIndexOf_of_not_mem absent]

theorem splitPort_append (scheme host : Bytes) {digits : Bytes} (absent : 58 ∉ digits) :
    splitPort scheme (host ++ 58 :: digits) = (host, UInt16.ofInt (fromChars digits)) := by
  rw [splitPort, lastIndexOf_append host absent]
  dsimp only
  rw [drop_append_cons, List.take_left]

end Uri

/-! ### Authorities -/

namespace Components

section Authorities

variable {components : Components} {front : Bytes}

/-- A query or a fragment begins with a mark. -/
theorem head_tail {byte : UInt8} (first : byte ∈ components.tail.head?) :
    byte = 63 ∨ byte = 35 := by
  unfold tail at first
  cases query : components.query with
  | some text =>
    rw [query] at first
    exact Or.inl (Option.some_inj.mp first).symm
  | none =>
    cases fragment : components.fragment with
    | some text =>
      rw [query, fragment] at first
      exact Or.inr (Option.some_inj.mp first).symm
    | none =>
      rw [query, fragment] at first
      cases first

theorem toNat_ofInt_port {port : Nat} (small : port ≤ 65535) {rest : Bytes}
    (ends : ∀ byte ∈ rest.head?, isDigit byte = false) :
    (UInt16.ofInt (fromChars (decimal port ++ rest))).toNat = port := by
  rw [fromChars_decimal_append port (by omega) ends, UInt16.ofInt, UInt16.toNat_ofNat']
  omega

/-- The authority with what is taken for a part of it: when the host and the port come out. -/
theorem splitPort_iff (marks : ∀ byte ∈ front.head?, byte = 63 ∨ byte = 35) :
    ((Uri.splitPort components.scheme (components.authority ++ front)).1 = components.host ∧
      (Uri.splitPort components.scheme (components.authority ++ front)).2.toNat =
        components.expectedPort) ↔
      (∀ port ∈ components.port, port ≤ 65535) ∧ 58 ∉ front ∧
        (front = [] ∨ components.port.isSome) := by
  have noColon := components.hostPlain.1
  by_cases colon : 58 ∈ front
  · refine iff_of_false ?_ fun all => all.2.1 colon
    obtain ⟨before, digits, rfl, absent⟩ := exists_append_of_last colon
    have some : before ≠ [] := by
      rintro rfl
      rcases marks 58 rfl with mark | mark <;> cases mark
    rw [← List.append_assoc, Uri.splitPort_append _ _ absent]
    rintro ⟨host, -⟩
    have length := congrArg List.length host
    have positive := List.length_pos_of_ne_nil some
    rw [authority, List.length_append, List.length_append] at length
    omega
  · have digitless : ∀ byte ∈ front.head?, isDigit byte = false := by
      intro byte first
      rcases marks byte first with rfl | rfl <;> rfl
    unfold authority expectedPort
    cases port : components.port with
    | none =>
      have absent : 58 ∉ components.host ++ front :=
        List.mem_append.not.mpr (not_or.mpr ⟨noColon, colon⟩)
      rw [Option.map_none, marked, List.append_nil, Uri.splitPort_of_not_mem _ absent]
      simp [colon]
    | some number =>
      have absent : 58 ∉ decimal number ++ front := by
        refine List.mem_append.not.mpr (not_or.mpr ⟨fun digit => ?_, colon⟩)
        exact absurd (isDigit_of_mem_decimal digit) (by decide)
      rw [Option.map_some, marked, List.append_assoc, List.cons_append,
        Uri.splitPort_append _ _ absent]
      have range := (UInt16.ofInt (fromChars (decimal number ++ front))).toNat_lt
      constructor
      · rintro ⟨-, same⟩
        refine ⟨fun given member => ?_, colon, Or.inr rfl⟩
        cases member
        rw [same] at range
        exact Nat.le_of_lt_succ range
      · rintro ⟨small, -, -⟩
        exact ⟨rfl, toNat_ofInt_port (small number rfl) digitless⟩

end Authorities

/-! ### Recovery -/

section Recovery

variable {components : Components} {previous : Uri} {front back : Bytes}

theorem not_mem_authority : 47 ∉ components.authority := by
  refine List.mem_append.not.mpr (not_or.mpr ⟨components.hostPlain.2.1, fun member => ?_⟩)
  cases port : components.port with
  | none =>
    rw [port] at member
    cases member
  | some number =>
    rw [port] at member
    rcases List.mem_cons.mp member with colon | digit
    · cases colon
    · exact absurd (isDigit_of_mem_decimal digit) (by decide)

theorem length_marked_le (mark : UInt8) (part : Option Bytes) :
    (marked mark part).length ≤ (part.getD []).length + 1 := by
  cases part with
  | none => exact Nat.zero_le _
  | some text => exact le_rfl

theorem mem_marked_query : 35 ∉ marked 63 components.query := by
  cases query : components.query with
  | none => nofun
  | some text =>
    refine List.mem_cons.not.mpr (not_or.mpr ⟨by decide, ?_⟩)
    exact components.queryPlain text query

/-- What comes out, when the slash that the parser finds is between a front and a back. -/
theorem recoveredBy_iff (whole : components.path.getD [] ++ components.tail = front ++ back)
    (noSlash : 47 ∉ front) (rooted : ∀ byte ∈ back.head?, byte = 47) :
    components.RecoveredBy (previous.parse components.text) ↔
      ((Uri.splitPort components.scheme (components.authority ++ front)).1 = components.host ∧
        (Uri.splitPort components.scheme (components.authority ++ front)).2.toNat =
          components.expectedPort) ∧
        previous.splitTarget (if back = [] then ascii "/" else back) =
          (components.path.getD (ascii "/"), components.query.getD [],
            components.fragment.getD []) := by
  have text : components.text =
      components.scheme ++ ascii "://" ++ (components.authority ++ front ++ back) := by
    rw [Components.text, List.append_assoc, List.append_assoc, whole, List.append_assoc,
      List.append_assoc, List.append_assoc]
  have absent : 47 ∉ components.authority ++ front :=
    List.mem_append.not.mpr (not_or.mpr ⟨not_mem_authority, noSlash⟩)
  have parsed : previous.parse components.text =
      { raw := components.text
        scheme := components.scheme
        host := (Uri.splitPort components.scheme (components.authority ++ front)).1
        port := (Uri.splitPort components.scheme (components.authority ++ front)).2
        path := (previous.splitTarget (if back = [] then ascii "/" else back)).1
        query := (previous.splitTarget (if back = [] then ascii "/" else back)).2.1
        fragment := (previous.splitTarget (if back = [] then ascii "/" else back)).2.2 } := by
    rw [Uri.parse, text, Uri.splitScheme_append components.schemePlain.1]
    dsimp only
    rw [Uri.splitAuthority_append absent rooted]
  rw [parsed]
  constructor
  · rintro ⟨-, host, port, path, query, fragment⟩
    exact ⟨⟨host, port⟩, Prod.ext path (Prod.ext query fragment)⟩
  · rintro ⟨⟨host, port⟩, target⟩
    rw [target]
    exact ⟨rfl, host, port, rfl, rfl, rfl⟩

/-- A path is read with what follows it. -/
theorem splitTarget_path_iff {path : Bytes} (rooted : path.head? = some 47) :
    previous.splitTarget (path ++ components.tail) =
        (path, components.query.getD [], components.fragment.getD []) ↔
      63 ∉ path ∧ 35 ∉ path ∧ (components.query = none → previous.query = []) ∧
        (components.fragment = none → previous.fragment = []) := by
  have begins : (path ++ components.tail).head? = some 47 := by
    rw [List.head?_append, rooted]
    rfl
  by_cases plain : 63 ∉ path ∧ 35 ∉ path
  · have read : previous.splitTarget (path ++ components.tail) =
        (path, components.query.getD previous.query,
          components.fragment.getD previous.fragment) := by
      refine (Uri.splitTarget_eq_iff begins).mpr
        ⟨components.query, components.fragment, ?_, plain.1, ?_, rfl, rfl⟩
      · rw [tail, List.append_assoc]
      · exact List.mem_append.not.mpr (not_or.mpr ⟨plain.2, mem_marked_query⟩)
    rw [read]
    cases components.query <;> cases components.fragment <;> simp [plain]
  · refine iff_of_false (fun read => plain ?_) fun all => plain ⟨all.1, all.2.1⟩
    obtain ⟨foundQuery, foundFragment, -, noQuery, noFragment, -⟩ :=
      (Uri.splitTarget_eq_iff begins).mp read
    exact ⟨noQuery, fun mark => noFragment (List.mem_append_left _ mark)⟩

/-- What the parser takes for a part of the authority, and what begins with a slash behind it. -/
theorem exists_authority_end (rest : Bytes) :
    ∃ front back, rest = front ++ back ∧ 47 ∉ front ∧ ∀ byte ∈ back.head?, byte = 47 := by
  rcases eq_or_eq_append_cons 47 rest with absent | ⟨front, back, rfl, absent⟩
  · exact ⟨rest, [], (List.append_nil rest).symm, absent, nofun⟩
  · refine ⟨front, 47 :: back, rfl, absent, fun byte first => ?_⟩
    cases first
    rfl

theorem head_front (whole : components.tail = front ++ back) :
    ∀ byte ∈ front.head?, byte = 63 ∨ byte = 35 := by
  intro byte first
  refine @head_tail components byte ?_
  rw [whole, List.head?_append, Option.mem_def.mp first]
  rfl

theorem LeftOver.rooted (leftOver : components.LeftOver previous back) :
    ∀ byte ∈ back.head?, byte = 47 := by
  intro byte first
  rcases leftOver with ⟨rfl | rfl, -⟩ | ⟨rfl, -⟩ | ⟨rfl, -⟩ <;> cases first <;> rfl

theorem leftOver_of_found {foundQuery foundFragment : Option Bytes}
    (whole : components.tail = front ++ back)
    (backIs : back = [] ∧ foundQuery = none ∧ foundFragment = none ∨
      back = ascii "/" ++ marked 63 foundQuery ++ marked 35 foundFragment)
    (queryIs : components.query.getD [] = foundQuery.getD previous.query)
    (fragmentIs : components.fragment.getD [] = foundFragment.getD previous.fragment) :
    components.LeftOver previous back := by
  rcases backIs with ⟨empty, rfl, rfl⟩ | backIs
  · exact Or.inl ⟨Or.inl empty, queryIs.symm, fragmentIs.symm⟩
  · cases foundQuery with
    | none =>
      cases foundFragment with
      | none => exact Or.inl ⟨Or.inr backIs, queryIs.symm, fragmentIs.symm⟩
      | some text =>
        refine Or.inr (Or.inl ⟨?_, queryIs.symm⟩)
        rw [backIs, fragmentIs]
        rfl
    | some text =>
      cases foundFragment with
      | none =>
        refine Or.inr (Or.inr ⟨?_, fragmentIs.symm⟩)
        rw [backIs, queryIs]
        exact List.append_nil _
      | some text' =>
        -- Both marks and the slash would be longer than all that follows the authority.
        have query : (marked 63 components.query).length ≤ text.length + 1 := by
          have most := length_marked_le 63 components.query
          rwa [queryIs] at most
        have fragment : (marked 35 components.fragment).length ≤ text'.length + 1 := by
          have most := length_marked_le 35 components.fragment
          rwa [fragmentIs] at most
        have found : (ascii "/" ++ marked 63 (some text) ++ marked 35 (some text')).length =
            text.length + text'.length + 3 := by
          rw [List.length_append, List.length_append]
          show 1 + (text.length + 1) + (text'.length + 1) = _
          omega
        have length := congrArg List.length whole
        rw [backIs, tail, List.length_append, List.length_append, found] at length
        omega

/-- Without a path the slash may be one in the query or in the fragment. -/
theorem splitTarget_leftOver_iff (whole : components.tail = front ++ back)
    (rooted : ∀ byte ∈ back.head?, byte = 47) :
    previous.splitTarget (if back = [] then ascii "/" else back) =
        (ascii "/", components.query.getD [], components.fragment.getD []) ↔
      components.LeftOver previous back := by
  have begins : (if back = [] then ascii "/" else back).head? = some 47 := by
    cases back with
    | nil => rfl
    | cons byte back =>
      rw [if_neg (List.cons_ne_nil _ _), rooted byte rfl]
      rfl
  have slash : 63 ∉ ascii "/" ∧ 35 ∉ ascii "/" := by decide
  constructor
  · intro read
    obtain ⟨foundQuery, foundFragment, restIs, -, -, queryIs, fragmentIs⟩ :=
      (Uri.splitTarget_eq_iff begins).mp read
    refine leftOver_of_found whole ?_ queryIs fragmentIs
    by_cases empty : back = []
    · rw [if_pos empty] at restIs
      cases foundQuery with
      | some text => cases restIs
      | none =>
        cases foundFragment with
        | some text => cases restIs
        | none => exact Or.inl ⟨empty, rfl, rfl⟩
    · rw [if_neg empty] at restIs
      exact Or.inr restIs
  · have noMark : 35 ∉ components.query.getD [] := by
      cases query : components.query with
      | none => nofun
      | some text => exact components.queryPlain text query
    rintro (⟨backIs, query, fragment⟩ | ⟨rfl, query⟩ | ⟨rfl, fragment⟩)
    · refine (Uri.splitTarget_eq_iff begins).mpr
        ⟨none, none, ?_, slash.1, slash.2, query.symm, fragment.symm⟩
      rcases backIs with rfl | rfl <;> rfl
    · exact (Uri.splitTarget_eq_iff begins).mpr
        ⟨none, some (components.fragment.getD []), rfl, slash.1, slash.2, query.symm, rfl⟩
    · refine (Uri.splitTarget_eq_iff begins).mpr
        ⟨some (components.query.getD []), none, (List.append_nil _).symm, slash.1, ?_, rfl,
          fragment.symm⟩
      rw [marked]
      simp [noMark, slash.2]

end Recovery

/-- The components are recovered exactly from the texts that are read over the object. -/
theorem recoveredBy_parse_iff (components : Components) (previous : Uri) :
    components.RecoveredBy (previous.parse components.text) ↔ components.ReadOver previous := by
  unfold ReadOver
  cases path : components.path with
  | some path' =>
    have rooted := components.pathRooted path' path
    have whole : components.path.getD [] ++ components.tail = [] ++ (path' ++ components.tail) := by
      rw [path]
      rfl
    have begins : (path' ++ components.tail).head? = some 47 := by
      rw [List.head?_append, rooted]
      rfl
    have some : path' ++ components.tail ≠ [] := by
      intro empty
      rw [empty] at begins
      cases begins
    rw [recoveredBy_iff whole nofun (fun byte first => by rw [begins] at first; cases first; rfl),
      @splitPort_iff components [] nofun, if_neg some, path]
    dsimp only [Option.getD_some]
    rw [splitTarget_path_iff rooted]
    simp
  | none =>
    dsimp only
    constructor
    · intro recovered
      obtain ⟨front, back, whole, noSlash, rooted⟩ := exists_authority_end components.tail
      have all : components.path.getD [] ++ components.tail = front ++ back := by
        rw [path]
        exact whole
      rw [recoveredBy_iff all noSlash rooted, splitPort_iff (head_front whole), path,
        Option.getD_none, splitTarget_leftOver_iff whole rooted] at recovered
      obtain ⟨⟨small, noColon, port⟩, target⟩ := recovered
      exact ⟨small, front, back, whole, noSlash, noColon, port, target⟩
    · rintro ⟨small, front, back, whole, noSlash, noColon, port, target⟩
      have all : components.path.getD [] ++ components.tail = front ++ back := by
        rw [path]
        exact whole
      have rooted := target.rooted
      rw [recoveredBy_iff all noSlash rooted, splitPort_iff (head_front whole), path,
        Option.getD_none, splitTarget_leftOver_iff whole rooted]
      exact ⟨⟨small, noColon, port⟩, target⟩

/-- A query right behind the host. -/
def queryBehindHost : Components where
  scheme := ascii "http"
  host := ascii "a"
  port := none
  path := none
  query := some (ascii "k=1")
  fragment := none
  schemePlain := by decide
  hostPlain := by decide
  pathRooted := nofun
  queryPlain := by decide

/-- A port that does not exist, and no query. -/
def overlongPort : Components where
  scheme := ascii "http"
  host := ascii "a"
  port := some 70000
  path := some (ascii "/")
  query := none
  fragment := none
  schemePlain := by decide
  hostPlain := by decide
  pathRooted := by decide
  queryPlain := nofun

/-- The query is taken for a part of the host, the port for another one, and a query that is absent
for the one before it. -/
theorem not_recoveredBy_queryBehindHost :
    queryBehindHost.text = ascii "http://a?k=1" ∧
      (({} : Uri).parse (ascii "http://a?k=1")).host = ascii "a?k=1" ∧
      ¬ queryBehindHost.RecoveredBy (({} : Uri).parse queryBehindHost.text) ∧
      overlongPort.text = ascii "http://a:70000/" ∧
      (({ query := ascii "k=1" } : Uri).parse overlongPort.text).port = 4464 ∧
      (({ query := ascii "k=1" } : Uri).parse overlongPort.text).query = ascii "k=1" ∧
      ¬ overlongPort.RecoveredBy (({ query := ascii "k=1" } : Uri).parse overlongPort.text) := by
  refine ⟨by decide, by decide, fun recovered => ?_, by decide, by decide +kernel,
    by decide +kernel, fun recovered => ?_⟩
  · exact absurd recovered.host (by decide)
  · exact absurd recovered.query (by decide +kernel)

end Components

end AsyncNet.Http
