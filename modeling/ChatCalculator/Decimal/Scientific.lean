import ChatCalculator.Decimal.Basic

/-!
# Significant digits and their layout

A `Scientific` is a whole number of significant digits with a power of ten. How it is written is
a `Layout`: numbers of moderate size in plain decimal notation, all others as one digit, the
remaining digits after a point, and an exponent.

## Main definitions

* `Decimal.significant`: a decimal rounded to a number of significant digits
* `Layout`: up to which exponent a number is written plainly, and what marks it as whole
* `Layout.text`: the text of a number in a layout
-/

namespace ChatCalculator

-- powers are those of the core library, whatever else is in scope
attribute [local instance (high)] instPowNat

/-- The number `significand * 10 ^ power`. -/
structure Scientific where
  /-- The significant digits, read as one natural number. -/
  significand : Nat
  /-- The power of ten that the last of the digits stands at. -/
  power : Int
deriving DecidableEq

namespace Scientific

/-- How many digits the significand has. -/
def width (s : Scientific) : Nat :=
  (Nat.toDigits 10 s.significand).length

/-- The power of ten that the first digit stands at; that of zero counts as `0`. -/
def exponent (s : Scientific) : Int :=
  if s.significand = 0 then 0 else s.power + (s.width - 1 : Nat)

/-- The same number with a point. -/
def toDecimal (s : Scientific) : Decimal :=
  match s.power with
  | .ofNat k => ⟨s.significand * 10 ^ k, 0⟩
  | .negSucc k => ⟨s.significand, k + 1⟩

/-- The significand with a point behind its first digit. -/
def mantissa (s : Scientific) : Decimal :=
  ⟨s.significand, s.width - 1⟩

end Scientific

/-- The decimal rounded to `count` significant digits, half to even. One with fewer digits keeps
those that it has. -/
def Decimal.significant (d : Decimal) (count : Nat) : Scientific :=
  let dropped := (Nat.toDigits 10 d.coefficient).length - count
  ⟨nearestEven d.coefficient (10 ^ dropped), (dropped : Int) - d.places⟩

/-- A way to write numbers of any size. -/
structure Layout where
  /-- The least exponent of a number in plain notation. -/
  leastPlain : Int
  /-- The least exponent, above the plain ones, that is written out. -/
  leastLarge : Int
  /-- What follows a number in plain notation that has no places. -/
  wholeMark : List Char
  /-- The least number of digits of a written exponent. -/
  exponentWidth : Nat

namespace Layout

/-- An exponent with its sign, padded with zeros. -/
def exponentText (l : Layout) (e : Int) : List Char :=
  let digits := Nat.toDigits 10 e.natAbs
  (if e < 0 then '-' else '+') :: (List.replicate (l.exponentWidth - digits.length) '0' ++ digits)

/-- The text of a number; trailing zeros after the point are never written. -/
def text (l : Layout) (s : Scientific) : List Char :=
  if l.leastPlain ≤ s.exponent ∧ s.exponent < l.leastLarge then
    let d := s.toDecimal.normalize
    d.text ++ if d.places = 0 then l.wholeMark else []
  else
    s.mantissa.normalize.text ++ 'e' :: l.exponentText s.exponent

end Layout

end ChatCalculator
