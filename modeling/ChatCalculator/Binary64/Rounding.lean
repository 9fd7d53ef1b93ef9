import ChatCalculator.Binary64.Nearest

/-!
# Rounding to decimal places

A number is rounded to decimal places in two steps: its exact value is rounded to a decimal, half
to even, and the result is the number nearest to that decimal. More than `323` places leave every
number as it is, and a number rounded to a power of ten above `10 ^ 308` is zero.

## Main definitions

* `Binary64.round`: the number rounded to places after the point, or before it if the count is
  negative; the result is infinite if the rounded decimal is beyond the largest number
-/

namespace ChatCalculator

namespace Binary64

/-- The most places that a number is rounded to. -/
def mostPlaces : Int := 323

/-- The fewest places, all of them before the point, that leave any digit of a number. -/
def fewestPlaces : Int := -308

/-- Rounds to `precision` decimal places. -/
def round (x : Binary64) (precision : Int) : Binary64 :=
  match x with
  | .finite negative m =>
    if mostPlaces < precision then .finite negative m
    else if precision < fewestPlaces then .finite negative .zero
    else ofDecimal negative (m.toDecimal.round precision)
  | x => x

end Binary64

end ChatCalculator
