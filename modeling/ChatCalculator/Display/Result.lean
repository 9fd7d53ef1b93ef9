import ChatCalculator.Binary64.Rounding
import ChatCalculator.Binary64.Text

/-!
# Results

The result of an expression is rounded to the precision of the display, a number of decimal
places, and shown without trailing zeros. A negative precision rounds before the point, which can
leave the range of numbers, and has no fixed notation.

## Main definitions

* `ResultFault`: why a number cannot be rounded or shown at a precision
* `roundedResult`: a number rounded to a precision, without a negative zero
* `resultText`: the text of a number at a precision

## Main results

* `roundedResult_of_isFinite_eq_false`: numbers that are not finite stay, at every precision
-/

namespace ChatCalculator

-- powers are those of the core library, whatever else is in scope
attribute [local instance (high)] instPowNat

/-- Why a number cannot be rounded or shown at a precision. -/
inductive ResultFault
  /-- The rounded number is beyond the largest one. -/
  | overflow
  /-- A fixed number of places cannot be negative. -/
  | negativePrecision
  /-- The number of places does not fit into 32 bits. -/
  | largePrecision
  /-- The number of places does not fit into 64 bits. -/
  | hugePrecision
deriving DecidableEq

/-- A sentence about a fault. -/
def ResultFault.message : ResultFault → String
  | .overflow => "rounded value too large to represent"
  | .negativePrecision => "Format specifier missing precision"
  | .largePrecision => "precision too big"
  | .hugePrecision => "Too many decimal digits in format string"

/-- The precision of a display unless another one is chosen. -/
def defaultPrecision : Int := 8

/-- A number rounded to a precision. The result is never a negative zero. -/
def roundedResult (x : Binary64) (precision : Int) : Except ResultFault Binary64 :=
  if x.isFinite then
    let rounded := x.round precision
    if rounded.isFinite then .ok rounded.dropZeroSign else .error .overflow
  else .ok x

/-- The number of places of fixed notation, if a precision is one. -/
def fixedPlaces (precision : Int) : Except ResultFault Nat :=
  if precision < 0 then .error .negativePrecision
  else if precision < 2 ^ (31 : Nat) then .ok precision.toNat
  else if precision < 2 ^ (63 : Nat) then .error .largePrecision
  else .error .hugePrecision

/-- The magnitude rounded to a number of places, without trailing zeros. -/
def Magnitude.fixed (m : Magnitude) (places : Nat) : Decimal :=
  (m.toDecimal.round (.ofNat places)).normalize

/-- A number in fixed notation, without trailing zeros after the point. A zero has no sign. -/
def fixedText (places : Nat) : Binary64 → List Char :=
  Binary64.text fun negative m =>
    let d := m.fixed places
    Binary64.signed (negative && d.coefficient ≠ 0) d.text

/-- The text of a number at a precision, which matters for finite numbers only. -/
def resultText (x : Binary64) (precision : Int) : Except ResultFault (List Char) :=
  if x.isFinite then
    match roundedResult x precision with
    | .error fault => .error fault
    | .ok rounded => (fixedPlaces precision).map (fixedText · rounded)
  else .ok (fixedText 0 x)

theorem roundedResult_of_isFinite_eq_false {x : Binary64} (h : x.isFinite = false)
    (precision : Int) : roundedResult x precision = .ok x := by
  simp [roundedResult, h]

end ChatCalculator
