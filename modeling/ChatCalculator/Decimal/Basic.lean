import ChatCalculator.Decimal.NearestEven

/-!
# Unsigned decimal fractions

A `Decimal` is a coefficient with a number of decimal places, so `⟨1250, 3⟩` is `1.250`. Exact
values of numbers are decimals, and so are the texts that show them; signs are kept elsewhere.

## Main definitions

* `Decimal.round`: the decimal rounded at a place before or after the point
* `Decimal.normalize`: the same value without trailing zeros after the point
* `Decimal.text`: the digits of a decimal, with a point if it has places
-/

namespace ChatCalculator

-- powers are those of the core library, whatever else is in scope
attribute [local instance (high)] instPowNat

/-- The number `coefficient / 10 ^ places`. -/
structure Decimal where
  /-- All digits, read as one natural number. -/
  coefficient : Nat
  /-- How many of the digits stand after the point. -/
  places : Nat
deriving DecidableEq

namespace Decimal

/-- Rounds to `precision` places, half to even. A negative precision rounds to a multiple of a
power of ten. A decimal that has no more places than asked for stays as it is. -/
def round (d : Decimal) : Int → Decimal
  | .ofNat p =>
    if d.places ≤ p then d else ⟨nearestEven d.coefficient (10 ^ (d.places - p)), p⟩
  | .negSucc k =>
    ⟨nearestEven d.coefficient (10 ^ (d.places + (k + 1))) * 10 ^ (k + 1), 0⟩

/-- Drops zeros from the end of `places` decimal places. -/
def dropZeros (coefficient : Nat) : (places : Nat) → Decimal
  | 0 => ⟨coefficient, 0⟩
  | p + 1 =>
    if coefficient % 10 = 0 then dropZeros (coefficient / 10) p else ⟨coefficient, p + 1⟩

/-- The same number without trailing zeros after the point. -/
def normalize (d : Decimal) : Decimal :=
  dropZeros d.coefficient d.places

/-- The last `width` decimal digits of a number, zeros in front included. -/
def fixedDigits (n : Nat) : (width : Nat) → List Char
  | 0 => []
  | w + 1 => fixedDigits (n / 10) w ++ [(n % 10).digitChar]

/-- The digits before the point, and the places, if any, after it. -/
def text (d : Decimal) : List Char :=
  Nat.toDigits 10 (d.coefficient / 10 ^ d.places) ++
    if d.places = 0 then [] else '.' :: fixedDigits d.coefficient d.places

/-! ### How many places are left -/

theorem round_ofNat_of_le {d : Decimal} {p : Nat} (h : d.places ≤ p) : d.round (.ofNat p) = d :=
  if_pos h

theorem places_round_ofNat_le (d : Decimal) (p : Nat) : (d.round (.ofNat p)).places ≤ p := by
  by_cases h : d.places ≤ p <;> simp [round, h]

theorem places_dropZeros_le (c p : Nat) : (dropZeros c p).places ≤ p := by
  fun_induction dropZeros c p with
  | case1 => exact Nat.le_refl 0
  | case2 c p _ ih => exact Nat.le_succ_of_le ih
  | case3 c p _ => exact Nat.le_refl (p + 1)

theorem places_normalize_le (d : Decimal) : d.normalize.places ≤ d.places :=
  places_dropZeros_le d.coefficient d.places

/-- Dropping zeros keeps the value: both coefficients agree over a common number of places. -/
theorem dropZeros_value (c p : Nat) :
    (dropZeros c p).coefficient * 10 ^ (p - (dropZeros c p).places) = c := by
  fun_induction dropZeros c p with
  | case1 => simp
  | case2 c p h ih =>
    have hle := places_dropZeros_le (c / 10) p
    rw [Nat.succ_sub hle, Nat.pow_succ, ← Nat.mul_assoc, ih]
    omega
  | case3 => simp

theorem normalize_value (d : Decimal) :
    d.normalize.coefficient * 10 ^ (d.places - d.normalize.places) = d.coefficient :=
  dropZeros_value d.coefficient d.places

@[simp] theorem length_fixedDigits (n w : Nat) : (fixedDigits n w).length = w := by
  induction w generalizing n with
  | zero => rfl
  | succ w ih => simp [fixedDigits, ih]

end Decimal

end ChatCalculator
