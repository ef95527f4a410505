/-
This file compares `request::query_param` with the parameters that a query consists of. The function
looks for the key and an equals sign anywhere in the query. As neither holds an ampersand, what it
finds is in one parameter, the first one that holds them, but that need not be the first one whose
name is the key: the name may end with the key, or the value may hold it.
-/

import AsyncNet.Http.Types
import AsyncNet.Library.Splitting
import Mathlib.Data.List.TakeWhile

namespace AsyncNet.Http

open Library

/-! ### The search -/

/-- `request::query_param`, which reads the query only. -/
def queryParam (query key : Bytes) : Bytes :=
  match indexOf (key ++ ascii "=") query with
  | none => []
  | some p =>
      let rest := query.drop (p + (key.length + 1))
      match indexOf (ascii "&") rest with
      | none => rest
      | some e => rest.take e

/-- `request::query_param`. -/
def Request.queryParam (req : Request) (key : Bytes) : Bytes := Http.queryParam req.query key

/-! ### Parameters -/

/-- The parameters of a query. -/
def parameters (query : Bytes) : List Bytes := query.splitOn 38

/-- The value of a parameter whose name is the key. A parameter without an equals sign is a name
with no value. -/
def valueFor (key parameter : Bytes) : Option Bytes :=
  if parameter.takeWhile (· ≠ 61) = key then some (parameter.dropWhile (· ≠ 61)).tail else none

/-- The value of the first parameter whose name is the key, or nothing. -/
def lookup (key : Bytes) (parameters : List Bytes) : Bytes :=
  (parameters.findSome? (valueFor key)).getD []

/-- What stands behind the key and an equals sign in a parameter. -/
def behind (key parameter : Bytes) : Option Bytes :=
  (indexOf (key ++ ascii "=") parameter).map fun p => parameter.drop (p + (key.length + 1))

section Parameters

variable {key : Bytes}

theorem pattern_ne_nil (key : Bytes) : key ++ ascii "=" ≠ [] :=
  List.append_ne_nil_of_right_ne_nil _ (by decide)

theorem not_mem_pattern (plain : 38 ∉ key) : 38 ∉ key ++ ascii "=" :=
  List.mem_append.not.mpr (not_or.mpr ⟨plain, by decide⟩)

theorem queryParam_of_not_mem {query : Bytes} (single : 38 ∉ query) :
    queryParam query key = (behind key query).getD [] := by
  unfold queryParam behind
  cases indexOf (key ++ ascii "=") query with
  | none => rfl
  | some p =>
    have absent : indexOf (ascii "&") (query.drop (p + (key.length + 1))) = none :=
      indexOf_singleton_of_not_mem fun member => single (List.mem_of_mem_drop member)
    dsimp only [Option.map_some, Option.getD_some]
    rw [absent]

theorem queryParam_append (plain : 38 ∉ key) {first : Bytes} (single : 38 ∉ first)
    (rest : Bytes) :
    queryParam (first ++ 38 :: rest) key = (behind key first).getD (queryParam rest key) := by
  cases found : indexOf (key ++ ascii "=") first with
  | some p =>
    have fits := indexOf_add_length_le found (pattern_ne_nil key)
    have cut : (first ++ 38 :: rest).drop (p + (key.length + 1)) =
        first.drop (p + (key.length + 1)) ++ 38 :: rest :=
      List.drop_append_of_le_length (by rwa [List.length_append] at fits)
    have ends : indexOf (ascii "&") (first.drop (p + (key.length + 1)) ++ 38 :: rest) =
        some (first.drop (p + (key.length + 1))).length :=
      indexOf_singleton_append (fun member => single (List.mem_of_mem_drop member)) rest
    rw [queryParam, behind, found, indexOf_append found (pattern_ne_nil key)]
    dsimp only [Option.map_some, Option.getD_some]
    rw [cut, ends]
    exact List.take_left
  | none =>
    rw [queryParam, behind, found, queryParam,
      indexOf_append_separator (not_mem_pattern plain) (pattern_ne_nil key) found]
    cases indexOf (key ++ ascii "=") rest with
    | none => rfl
    | some p =>
      have skipped : (first ++ 38 :: rest).drop (p + (first.length + 1) + (key.length + 1)) =
          rest.drop (p + (key.length + 1)) := by
        have shifted : p + (first.length + 1) + (key.length + 1) =
            first.length + (p + (key.length + 1) + 1) := by omega
        rw [shifted, List.drop_length_add_append]
        rfl
      dsimp only [Option.map_some, Option.map_none, Option.getD_none]
      rw [skipped]

/-- What the search returns stands in the first parameter that holds the key and an equals sign. -/
theorem queryParam_eq (plain : 38 ∉ key) (query : Bytes) :
    queryParam query key = ((parameters query).findSome? (behind key)).getD [] := by
  induction query using separator_induction (38 : UInt8) with
  | last query single =>
    rw [queryParam_of_not_mem single, parameters, List.splitOn_eq_singleton single]
    simp
  | cut first rest single inductionHypothesis =>
    rw [queryParam_append plain single, inductionHypothesis, parameters, parameters,
      List.splitOn_append_cons_self_of_not_mem single, List.findSome?_cons]
    cases behind key first <;> rfl

theorem valueFor_of_not_mem {parameter : Bytes} (bare : 61 ∉ parameter) :
    valueFor key parameter = if parameter = key then some [] else none := by
  rw [valueFor, takeWhile_ne_of_not_mem bare, dropWhile_ne_of_not_mem bare, List.tail_nil]

theorem valueFor_append {name : Bytes} (noEquals : 61 ∉ name) (value : Bytes) :
    valueFor key (name ++ 61 :: value) = if name = key then some value else none := by
  rw [valueFor, takeWhile_ne_append noEquals, dropWhile_ne_append noEquals, List.tail_cons]

/-- A parameter whose name is the key is the key alone, or the key with a value. -/
theorem eq_or_eq_of_valueFor {parameter value : Bytes}
    (named : valueFor key parameter = some value) :
    parameter = key ∧ value = [] ∨ parameter = key ++ (ascii "=" ++ value) := by
  rcases eq_or_eq_append_cons 61 parameter with bare | ⟨name, held, rfl, noEquals⟩
  · rw [valueFor_of_not_mem bare] at named
    split at named
    · rename_i same
      cases named
      exact Or.inl ⟨same, rfl⟩
    · cases named
  · rw [valueFor_append noEquals] at named
    split at named
    · rename_i same
      cases named
      rw [same]
      exact Or.inr rfl
    · cases named

/-- A parameter that does not hold the key and an equals sign can only be the key alone. -/
theorem valueFor_of_nothing (noEquals : 61 ∉ key) {parameter : Bytes}
    (nothing : indexOf (key ++ ascii "=") parameter = none) :
    valueFor key parameter = if parameter = key then some [] else none := by
  by_cases same : parameter = key
  · rw [same, valueFor_of_not_mem noEquals]
  · rw [if_neg same]
    by_contra some
    obtain ⟨value, named⟩ := Option.ne_none_iff_exists'.mp some
    rcases eq_or_eq_of_valueFor named with ⟨bare, -⟩ | rfl
    · exact same bare
    · obtain ⟨first, -, found⟩ := @exists_indexOf_le _ _ (key ++ ascii "=")
        (key ++ (ascii "=" ++ value)) 0 ⟨value, List.append_assoc _ _ _⟩ (pattern_ne_nil key)
      rw [nothing] at found
      cases found

theorem behind_eq_some_iff {parameter value : Bytes} :
    behind key parameter = some value ↔
      ∃ front, parameter = front ++ (key ++ ascii "=") ++ value ∧
        indexOf (key ++ ascii "=") parameter = some front.length := by
  have length : (key ++ ascii "=").length = key.length + 1 := List.length_append
  have cut : ∀ front rest : Bytes,
      (front ++ (key ++ ascii "=") ++ rest).drop (front.length + (key.length + 1)) = rest := by
    intro front rest
    exact List.drop_left' (by rw [List.length_append, length])
  constructor
  · intro hit
    obtain ⟨position, found, rfl⟩ := Option.map_eq_some_iff.mp hit
    obtain ⟨front, rest, rfl, rfl, -⟩ := exists_append_of_indexOf found (pattern_ne_nil key)
    rw [cut]
    exact ⟨front, rfl, found⟩
  · rintro ⟨front, rfl, found⟩
    rw [behind, found, Option.map_some, cut]

end Parameters

/-! ### Where both agree -/

/-- The first parameter that holds the key and an equals sign, and what stands before and behind
them in it. -/
structure FirstHit (key : Bytes) (parameters before : List Bytes) (front value : Bytes)
    (after : List Bytes) : Prop where
  split : parameters = before ++ (front ++ (key ++ ascii "=") ++ value) :: after
  first : indexOf (key ++ ascii "=") (front ++ (key ++ ascii "=") ++ value) = some front.length
  nothing : ∀ parameter ∈ before, indexOf (key ++ ascii "=") parameter = none

/-- The parameter that is found is named by the key and no parameter before it is the key alone, or
its value is that of the first parameter that is. -/
def NamedHit (key : Bytes) (before : List Bytes) (front value : Bytes) (after : List Bytes) :
    Prop :=
  if key ∈ before then value = [] else front = [] ∨ value = lookup key after

section Agreement

variable {key front value : Bytes} {parameters before after : List Bytes}

/-- Parameters that do not hold the key and an equals sign. -/
theorem findSome?_of_nothing (noEquals : 61 ∉ key)
    (nothing : ∀ parameter ∈ parameters, indexOf (key ++ ascii "=") parameter = none) :
    parameters.findSome? (valueFor key) = if key ∈ parameters then some [] else none := by
  induction parameters with
  | nil => rfl
  | cons parameter parameters inductionHypothesis =>
    obtain ⟨head, tail⟩ := List.forall_mem_cons.mp nothing
    rw [List.findSome?_cons, valueFor_of_nothing noEquals head, inductionHypothesis tail]
    by_cases same : parameter = key
    · simp [same]
    · simp [same, Ne.symm same]

namespace FirstHit

theorem findSome?_behind (hit : FirstHit key parameters before front value after) :
    parameters.findSome? (behind key) = some value := by
  have before' : before.findSome? (behind key) = none :=
    List.findSome?_eq_none_iff.mpr fun parameter member => by
      rw [behind, hit.nothing parameter member, Option.map_none]
  rw [hit.split, List.findSome?_append, before', List.findSome?_cons,
    behind_eq_some_iff.mpr ⟨front, rfl, hit.first⟩]
  rfl

/-- The parameter that is found has the key as its name if nothing stands before the key. -/
theorem valueFor_found (hit : FirstHit key parameters before front value after)
    (noEquals : 61 ∉ key) :
    valueFor key (front ++ (key ++ ascii "=") ++ value) =
      if front = [] then some value else none := by
  by_cases empty : front = []
  · rw [if_pos empty, empty, List.nil_append, List.append_assoc]
    exact (valueFor_append noEquals value).trans (if_pos rfl)
  · rw [if_neg empty]
    by_contra some
    obtain ⟨held, named⟩ := Option.ne_none_iff_exists'.mp some
    have positive := List.length_pos_of_ne_nil empty
    rcases eq_or_eq_of_valueFor named with ⟨bare, -⟩ | whole
    · have length := congrArg List.length bare
      simp only [List.length_append] at length
      omega
    · have begins : key ++ ascii "=" <+: (front ++ (key ++ ascii "=") ++ value).drop 0 :=
        ⟨held, by rw [List.drop_zero, whole, List.append_assoc]⟩
      obtain ⟨first, before, found⟩ := exists_indexOf_le begins (pattern_ne_nil key)
      rw [hit.first, Option.some_inj] at found
      omega

theorem lookup_eq (hit : FirstHit key parameters before front value after)
    (noEquals : 61 ∉ key) :
    lookup key parameters =
      if key ∈ before then [] else if front = [] then value else lookup key after := by
  rw [lookup, hit.split, List.findSome?_append, findSome?_of_nothing noEquals hit.nothing,
    List.findSome?_cons, hit.valueFor_found noEquals]
  by_cases earlier : key ∈ before
  · simp [earlier]
  · by_cases empty : front = []
    · simp [earlier, empty]
    · simp [earlier, empty, lookup]

theorem namedHit_iff (hit : FirstHit key parameters before front value after)
    (noEquals : 61 ∉ key) :
    value = lookup key parameters ↔ NamedHit key before front value after := by
  rw [hit.lookup_eq noEquals, NamedHit]
  by_cases earlier : key ∈ before
  · simp [earlier]
  · by_cases empty : front = []
    · simp [earlier, empty]
    · simp [earlier, empty]

end FirstHit

/-- The search returns the value of the first parameter whose name is the key, if and only if the
first parameter in which it finds the key and an equals sign is named by the key or has the same
value. -/
theorem queryParam_eq_lookup_iff (req : Request) (noEquals : 61 ∉ key) (noAmpersand : 38 ∉ key) :
    req.queryParam key = lookup key (Http.parameters req.query) ↔
      ∀ before front value after,
        FirstHit key (Http.parameters req.query) before front value after →
          NamedHit key before front value after := by
  rw [Request.queryParam, queryParam_eq noAmpersand]
  cases found : (Http.parameters req.query).findSome? (behind key) with
  | none =>
    have nothing : ∀ parameter ∈ Http.parameters req.query,
        indexOf (key ++ ascii "=") parameter = none := fun parameter member =>
      Option.map_eq_none_iff.mp (List.findSome?_eq_none_iff.mp found parameter member)
    rw [lookup, findSome?_of_nothing noEquals nothing]
    refine iff_of_true ?_ fun before front value after hit => ?_
    · split <;> rfl
    · rw [hit.findSome?_behind] at found
      cases found
  | some value =>
    constructor
    · intro same before front value' after hit
      rw [hit.findSome?_behind, Option.some_inj] at found
      refine (hit.namedHit_iff noEquals).mp ?_
      rw [found]
      exact same
    · intro named
      obtain ⟨before, parameter, after, split, holds, nothing⟩ :=
        List.findSome?_eq_some_iff.mp found
      obtain ⟨front, rfl, first⟩ := behind_eq_some_iff.mp holds
      have hit : FirstHit key (Http.parameters req.query) before front value after :=
        ⟨split, first, fun parameter member => Option.map_eq_none_iff.mp (nothing parameter member)⟩
      exact (hit.namedHit_iff noEquals).mpr (named _ _ _ _ hit)

end Agreement

/-- The parameter that is found is the one that the key names. -/
theorem queryParam_eq_lookup_second :
    ({ query := ascii "a=1&key=2" } : Request).queryParam (ascii "key") = ascii "2" ∧
      ∀ before front value after,
        FirstHit (ascii "key") (parameters (ascii "a=1&key=2")) before front value after →
          NamedHit (ascii "key") before front value after :=
  ⟨by decide, (@queryParam_eq_lookup_iff (ascii "key") { query := ascii "a=1&key=2" } (by decide)
    (by decide)).mp (by decide)⟩

/-- A name that ends with the key, and a value that holds it, are taken for the parameter. -/
theorem queryParam_ne_lookup_suffix :
    61 ∉ ascii "key" ∧ 38 ∉ ascii "key" ∧
      ({ query := ascii "xkey=1&key=2" } : Request).queryParam (ascii "key") = ascii "1" ∧
      lookup (ascii "key") (parameters (ascii "xkey=1&key=2")) = ascii "2" ∧
      ({ query := ascii "a=key=1" } : Request).queryParam (ascii "key") = ascii "1" ∧
      lookup (ascii "key") (parameters (ascii "a=key=1")) = [] := by
  decide

end AsyncNet.Http
