import Mathlib.Data.List.Basic
import Mathlib.Tactic.IntervalCases

/-!
# Numbers of a fixed width

Decimal digits padded with zeros to a width, as in the names that sort by time, and
the number that is read back from them.
-/

namespace Forail.FixedDigits

def digitOf (value : ℕ) : Char := Char.ofNat ('0'.toNat + value % 10)

def digitValue (char : Char) : ℕ := char.toNat - '0'.toNat

def isDigit (char : Char) : Bool := '0' ≤ char && char ≤ '9'

/-- The last `width` digits. -/
def digits : ℕ → ℕ → List Char
  | 0, _ => []
  | width + 1, value => digits width (value / 10) ++ [digitOf value]

def valueOf (chars : List Char) : ℕ :=
  chars.foldl (fun value char => 10 * value + digitValue char) 0

theorem digitValue_digitOf (value : ℕ) : digitValue (digitOf value) = value % 10 := by
  rw [digitOf]
  have hlt : value % 10 < 10 := Nat.mod_lt value (by decide)
  interval_cases value % 10 <;> decide

theorem isDigit_digitOf (value : ℕ) : isDigit (digitOf value) = true := by
  rw [digitOf]
  have hlt : value % 10 < 10 := Nat.mod_lt value (by decide)
  interval_cases value % 10 <;> decide

theorem length_digits (width value : ℕ) : (digits width value).length = width := by
  induction width generalizing value with
  | zero => rfl
  | succ width ih => rw [digits, List.length_append, ih, List.length_singleton]

theorem isDigit_of_mem {width value : ℕ} {char : Char} (hchar : char ∈ digits width value) :
    isDigit char = true := by
  induction width generalizing value with
  | zero => exact absurd hchar List.not_mem_nil
  | succ width ih =>
    rw [digits, List.mem_append, List.mem_singleton] at hchar
    cases hchar with
    | inl hfront => exact ih hfront
    | inr hlast =>
      rw [hlast]
      exact isDigit_digitOf value

theorem valueOf_digits {width value : ℕ} (hfits : value < 10 ^ width) :
    valueOf (digits width value) = value := by
  induction width generalizing value with
  | zero => exact (Nat.lt_one_iff.mp hfits).symm
  | succ width ih =>
    have hfront : value / 10 < 10 ^ width := by
      rw [Nat.div_lt_iff_lt_mul (by decide), ← Nat.pow_succ]
      exact hfits
    rw [digits, valueOf, List.foldl_append, List.foldl_cons, List.foldl_nil, digitValue_digitOf]
    calc 10 * valueOf (digits width (value / 10)) + value % 10
        = 10 * (value / 10) + value % 10 := by rw [ih hfront]
      _ = value := Nat.div_add_mod value 10

end Forail.FixedDigits
