/-
This file is about numbers as text: what `std::to_string` writes is a run of digits, as long as the
number needs, whose value is the number.
-/

import AsyncNet.Http.Types

namespace AsyncNet.Http

/-- A digit, as the byte that is written for it. -/
theorem toNat_digit {value : Nat} {digit : Char} (member : digit ∈ Nat.toDigits 10 value) :
    (UInt8.ofNat digit.toNat).toNat = digit.toNat ∧ 48 ≤ digit.toNat ∧ digit.toNat ≤ 57 := by
  have isDigit := Nat.isDigit_of_mem_toDigits (by decide) (by decide) member
  rw [Char.isDigit, Bool.and_eq_true, decide_eq_true_eq, decide_eq_true_eq, ge_iff_le,
    UInt32.le_iff_toNat_le, UInt32.le_iff_toNat_le] at isDigit
  have low : 48 ≤ digit.toNat := isDigit.1
  have high : digit.toNat ≤ 57 := isDigit.2
  rw [UInt8.toNat_ofNat']
  omega

theorem isDigit_of_mem_decimal {value : Nat} {byte : UInt8} (member : byte ∈ decimal value) :
    isDigit byte = true := by
  obtain ⟨digit, written, rfl⟩ := List.mem_map.mp member
  obtain ⟨same, low, high⟩ := toNat_digit written
  rw [isDigit, Bool.and_eq_true, decide_eq_true_eq, decide_eq_true_eq, UInt8.le_iff_toNat_le,
    UInt8.le_iff_toNat_le, same]
  exact ⟨low, high⟩

theorem decimal_ne_nil (value : Nat) : decimal value ≠ [] := fun empty =>
  Nat.toDigits_ne_nil (List.map_eq_nil_iff.mp empty)

theorem length_decimal_le {value digits : Nat} (some : 0 < digits) (small : value < 10 ^ digits) :
    (decimal value).length ≤ digits := by
  rw [decimal, List.length_map]
  exact (Nat.length_toDigits_le_iff (by decide) some).mpr small

/-- The value of what is written is the number. -/
theorem digitsValue_decimal (value : Nat) : digitsValue (decimal value) = value := by
  have same : digitsValue (decimal value) = Nat.ofDigitChars 10 (Nat.toDigits 10 value) 0 := by
    rw [digitsValue, decimal, List.foldl_map, Nat.ofDigitChars_eq_foldl]
    refine List.foldl_ext _ _ _ fun sum digit member => ?_
    rw [(toNat_digit member).1]
    rfl
  rw [same, Nat.ofDigitChars_ten_toDigits]

/-- The run of digits at the front of what begins with a number. -/
theorem takeWhile_decimal_append (value : Nat) {rest : Bytes}
    (ends : ∀ byte ∈ rest.head?, isDigit byte = false) :
    (decimal value ++ rest).takeWhile isDigit = decimal value := by
  rw [List.takeWhile_append_of_pos fun byte member => isDigit_of_mem_decimal member]
  cases rest with
  | nil => rw [List.takeWhile_nil, List.append_nil]
  | cons byte rest =>
    rw [List.takeWhile_cons_of_neg (Bool.eq_false_iff.mp (ends byte rfl)), List.append_nil]

/-- A number that fits an `int` is read back from the front of a text. -/
theorem fromChars_decimal_append (value : Nat) (small : value ≤ 2147483647) {rest : Bytes}
    (ends : ∀ byte ∈ rest.head?, isDigit byte = false) :
    fromChars (decimal value ++ rest) = value := by
  have plain : (decimal value ++ rest).head? ≠ some 45 := by
    intro minus
    rw [List.head?_append_of_ne_nil _ (decimal_ne_nil value)] at minus
    have digit := isDigit_of_mem_decimal (List.mem_of_mem_head? minus)
    exact absurd digit (by decide)
  unfold fromChars
  simp only [plain, if_false, takeWhile_decimal_append value ends, decimal_ne_nil,
    digitsValue_decimal]
  rw [if_pos (by omega)]

theorem fromChars_decimal (value : Nat) (small : value ≤ 2147483647) :
    fromChars (decimal value) = value := by
  have read := @fromChars_decimal_append value small [] nofun
  rwa [List.append_nil] at read

end AsyncNet.Http
