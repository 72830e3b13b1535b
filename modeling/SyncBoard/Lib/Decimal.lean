import Mathlib.Data.List.Induction
import Mathlib.Algebra.Order.Ring.Nat

/-!
# Decimal numerals

Numerals as lists of character codes: with leading zeros up to a width, or without any.
The value of both is the number they were written for.
-/

namespace Decimal

def IsDigit (c : Nat) : Prop :=
  48 ≤ c ∧ c ≤ 57

instance (c : Nat) : Decidable (IsDigit c) :=
  inferInstanceAs (Decidable (48 ≤ c ∧ c ≤ 57))

/-- The number that a list of digits denotes. -/
def value (digits : List Nat) : Nat :=
  digits.foldl (fun n c => 10 * n + (c - 48)) 0

/-- The last digits of a number, in a given width. -/
def padded : Nat → Nat → List Nat
  | 0, _ => []
  | width + 1, n => padded width (n / 10) ++ [48 + n % 10]

/-- The digits of a number. -/
def decimal (n : Nat) : List Nat :=
  (Nat.toDigits 10 n).map Char.toNat

@[simp] theorem value_nil : value [] = 0 := rfl

theorem value_concat (digits : List Nat) (d : Nat) :
    value (digits ++ [48 + d]) = 10 * value digits + d := by
  simp only [value, List.foldl_append, List.foldl_cons, List.foldl_nil]
  omega

theorem value_padded {width n : Nat} (h : n < 10 ^ width) : value (padded width n) = n := by
  induction width generalizing n with
  | zero =>
      have hn : n = 0 := by simpa using h
      rw [hn, padded, value_nil]
  | succ width ih =>
      have hdiv : n / 10 < 10 ^ width := by
        rw [pow_succ] at h
        omega
      rw [padded, value_concat, ih hdiv]
      omega

theorem decimal_of_lt {n : Nat} (h : n < 10) : decimal n = [48 + n] := by
  have hchar := Nat.toNat_digitChar_of_lt_ten h
  simp [decimal, Nat.toDigits_of_lt_base h, hchar]

theorem decimal_of_le {n : Nat} (h : 10 ≤ n) : decimal n = decimal (n / 10) ++ [48 + n % 10] := by
  have hchar := Nat.toNat_digitChar_of_lt_ten (Nat.mod_lt n (by decide : 0 < 10))
  simp [decimal, Nat.toDigits_of_base_le (by decide : 1 < 10) h, hchar]

theorem value_append_digit (digits : List Nat) {c : Nat} (hc : IsDigit c) :
    value (digits ++ [c]) = 10 * value digits + (c - 48) := by
  have hc' : 48 + (c - 48) = c := by
    have := hc.1
    omega
  rw [← value_concat, hc']

theorem value_decimal (n : Nat) : value (decimal n) = n := by
  induction n using Nat.strong_induction_on with
  | _ n ih =>
      by_cases h : n < 10
      · rw [decimal_of_lt h, ← List.nil_append [48 + n], value_concat, value_nil,
          Nat.mul_zero, Nat.zero_add]
      · have h : 10 ≤ n := by omega
        rw [decimal_of_le h, value_concat, ih (n / 10) (by omega)]
        omega

theorem isDigit_of_mem_decimal (n : Nat) : ∀ c ∈ decimal n, IsDigit c := by
  induction n using Nat.strong_induction_on with
  | _ n ih =>
      intro c hc
      by_cases h : n < 10
      · rw [decimal_of_lt h, List.mem_singleton] at hc
        exact ⟨by omega, by omega⟩
      · rw [decimal_of_le (by omega), List.mem_append, List.mem_singleton] at hc
        rcases hc with hc | rfl
        · exact ih (n / 10) (by omega) c hc
        · exact ⟨by omega, by omega⟩

theorem length_decimal_le {width n : Nat} (h : n < 10 ^ (width + 1)) :
    (decimal n).length ≤ width + 1 := by
  induction width generalizing n with
  | zero =>
      rw [decimal_of_lt (by simpa using h)]
      exact Nat.le_refl _
  | succ width ih =>
      by_cases hn : n < 10
      · rw [decimal_of_lt hn, List.length_singleton]
        omega
      · have hdiv : n / 10 < 10 ^ (width + 1) := by
          rw [pow_succ] at h
          omega
        rw [decimal_of_le (by omega), List.length_append, List.length_singleton]
        exact Nat.add_le_add_right (ih hdiv) 1

/-- A positive number is written without a leading zero. -/
theorem exists_decimal_eq_cons {n : Nat} (h : 1 ≤ n) :
    ∃ c digits, decimal n = c :: digits ∧ c ≠ 48 := by
  induction n using Nat.strong_induction_on with
  | _ n ih =>
      by_cases hn : n < 10
      · exact ⟨48 + n, [], decimal_of_lt hn, by omega⟩
      · obtain ⟨c, digits, hdigits, hc⟩ := ih (n / 10) (by omega) (by omega)
        exact ⟨c, digits ++ [48 + n % 10], by rw [decimal_of_le (by omega), hdigits]; rfl, hc⟩

/-- Digits without a leading zero are those of the number they denote. -/
theorem decimal_value {c : Nat} {digits : List Nat} (hc : IsDigit c) (hzero : c ≠ 48)
    (hdigits : ∀ d ∈ digits, IsDigit d) :
    1 ≤ value (c :: digits) ∧ decimal (value (c :: digits)) = c :: digits := by
  obtain ⟨hlow, hhigh⟩ := hc
  -- from the last digit on, which is the remainder by ten
  induction digits using List.reverseRecOn with
  | nil =>
      have hvalue : value [c] = c - 48 := by simp [value]
      rw [hvalue, decimal_of_lt (by omega)]
      exact ⟨by omega, congrArg (fun d => [d]) (by omega)⟩
  | append_singleton digits d ih =>
      have hd : IsDigit d := hdigits d (by simp)
      obtain ⟨hpos, hdecimal⟩ := ih fun d hd => hdigits d (List.mem_append_left _ hd)
      obtain ⟨hlow', hhigh'⟩ := hd
      rw [← List.cons_append, value_append_digit _ ⟨hlow', hhigh'⟩]
      have hdiv : (10 * value (c :: digits) + (d - 48)) / 10 = value (c :: digits) := by omega
      have hmod : 48 + (10 * value (c :: digits) + (d - 48)) % 10 = d := by omega
      exact ⟨by omega, by rw [decimal_of_le (by omega), hdiv, hmod, hdecimal]⟩

end Decimal
