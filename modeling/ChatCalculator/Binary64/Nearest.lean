import ChatCalculator.Binary64.Basic
import ChatCalculator.Decimal.Basic

/-!
# The nearest double precision number

A quotient of natural numbers, in units of `2 ^ -1074`, is rounded to the nearest magnitude, ties
going to the even one. The quotient lies in a stretch of equally spaced magnitudes; dividing by
the spacing and rounding to the nearest integer gives the significand, and since magnitudes are
numbered without gaps, a significand that reaches the next stretch needs no extra case.

## Main definitions

* `Magnitude.nearestScale`, `Magnitude.nearestOrdinal`: spacing and place of the rounded quotient
* `Binary64.nearest`: the number nearest to a signed quotient, an infinity beyond the largest
* `Binary64.ofDecimal`: the number nearest to a decimal
* `Magnitude.toDecimal`: the exact value of a magnitude

## Main results

* `Magnitude.toDecimal_value`: the decimal of a magnitude has its value
-/

namespace ChatCalculator

-- powers are those of the core library, whatever else is in scope
attribute [local instance (high)] instPowNat

namespace Magnitude

/-- The spacing around `n / d` units is `2 ^ nearestScale n d` units. -/
def nearestScale (n d : Nat) : Nat :=
  (n / d).log2 - 52

/-- The place, among the magnitudes continued without end, of the one nearest to `n / d` units. -/
def nearestOrdinal (n d : Nat) : Nat :=
  nearestScale n d * 2 ^ (52 : Nat) + nearestEven n (d * 2 ^ nearestScale n d)

end Magnitude

namespace Binary64

/-- The number nearest to `n / d` units with the given sign. -/
def nearest (negative : Bool) (n d : Nat) : Binary64 :=
  if h : Magnitude.nearestOrdinal n d < 2047 * 2 ^ (52 : Nat) then .finite negative ⟨_, h⟩
  else .infinity negative

/-- The number nearest to a decimal with the given sign. -/
def ofDecimal (negative : Bool) (d : Decimal) : Binary64 :=
  nearest negative (d.coefficient * 2 ^ unitExponent) (10 ^ d.places)

end Binary64

/-! ### Exact decimals -/

/-- A multiple of a power of two is a decimal, whatever the sign of the exponent `s - u`. -/
theorem decimal_of_binary (c s u : Nat) :
    c * 2 ^ (s - u) * 5 ^ (u - s) * 2 ^ u = c * 2 ^ s * 10 ^ (u - s) := by
  have h10 : (10 : Nat) ^ (u - s) = 5 ^ (u - s) * 2 ^ (u - s) := by rw [← Nat.mul_pow]
  have h2 : 2 ^ (s - u) * 2 ^ u = 2 ^ s * 2 ^ (u - s) := by
    rw [← Nat.pow_add, ← Nat.pow_add]
    congr 1
    omega
  calc c * 2 ^ (s - u) * 5 ^ (u - s) * 2 ^ u
      = c * 5 ^ (u - s) * (2 ^ (s - u) * 2 ^ u) := by ac_rfl
    _ = c * 5 ^ (u - s) * (2 ^ s * 2 ^ (u - s)) := by rw [h2]
    _ = c * 2 ^ s * (5 ^ (u - s) * 2 ^ (u - s)) := by ac_rfl
    _ = c * 2 ^ s * 10 ^ (u - s) := by rw [h10]

namespace Magnitude

/-- The exact value of a magnitude as a decimal, with one place for each time that its spacing is
halved below one. -/
def toDecimal (m : Magnitude) : Decimal :=
  ⟨m.significand * 2 ^ (m.scale - unitExponent) * 5 ^ (unitExponent - m.scale),
    unitExponent - m.scale⟩

/-- The decimal of a magnitude is its value in units, divided by the units in one. -/
theorem toDecimal_value (m : Magnitude) :
    m.toDecimal.coefficient * 2 ^ unitExponent = m.units * 10 ^ m.toDecimal.places :=
  decimal_of_binary m.significand m.scale unitExponent

end Magnitude

end ChatCalculator
