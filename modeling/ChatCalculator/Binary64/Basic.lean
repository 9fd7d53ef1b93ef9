/-!
# Double precision numbers

The calculator computes with the 64-bit binary format: a sign and a magnitude, two infinities,
and a value that is not a number. The finite magnitudes are numbered in ascending order, and a
`Magnitude` is such a number: `0` is zero, then come the subnormal ones, and so on up to the
largest. This is also how the format lays out its bits, so a magnitude is its own encoding, and
the neighbour of a magnitude is its successor.

All finite magnitudes are multiples of one unit, `2 ^ -1074`. Up to `2 ^ 53` units every multiple
is a magnitude; above, the spacing doubles after every `2 ^ 52` magnitudes.

## Main definitions

* `unitExponent`: the number of times that a unit has to be doubled to give one
* `Magnitude`, `Magnitude.units`: a finite magnitude and its value in units
* `Binary64`: the numbers of the format; all values that are not a number count as one
* `Binary64.ofBits`, `Binary64.toBits`: the encoding in 64 bits

## Main results

* `Binary64.ofBits_toBits`: the encoding loses nothing
-/

namespace ChatCalculator

-- powers are those of the core library, whatever else is in scope
attribute [local instance (high)] instPowNat

/-- One is `2 ^ unitExponent` units. -/
def unitExponent : Nat := 1074

/-- A finite magnitude, given by how many smaller ones there are. -/
structure Magnitude where
  /-- The place of the magnitude in ascending order, from zero. -/
  ordinal : Nat
  /-- There are `2047` stretches of `2 ^ 52` magnitudes. -/
  ordinal_lt : ordinal < 2047 * 2 ^ (52 : Nat)
deriving DecidableEq

namespace Magnitude

/-- The spacing of the magnitudes from this one upwards is `2 ^ scale` units. -/
def scale (m : Magnitude) : Nat :=
  m.ordinal / 2 ^ (52 : Nat) - 1

/-- The value as a multiple of the spacing. -/
def significand (m : Magnitude) : Nat :=
  m.ordinal - m.scale * 2 ^ (52 : Nat)

/-- The value as a multiple of `2 ^ -1074`. -/
def units (m : Magnitude) : Nat :=
  m.significand * 2 ^ m.scale

/-- The magnitude zero. -/
def zero : Magnitude := ⟨0, by decide⟩

end Magnitude

/-- A number of the 64-bit binary format. -/
inductive Binary64
  /-- The value that is not a number. -/
  | nan
  /-- An infinity. -/
  | infinity (negative : Bool)
  /-- A finite number. Zero has both signs. -/
  | finite (negative : Bool) (magnitude : Magnitude)
deriving DecidableEq

namespace Binary64

/-- The positive zero. -/
def zero : Binary64 := .finite false .zero

/-- Whether a number is neither an infinity nor the value that is not a number. -/
def isFinite : Binary64 → Bool
  | .finite _ _ => true
  | _ => false

/-- Whether a number is a zero of either sign. -/
def isZero : Binary64 → Bool
  | .finite _ m => m.ordinal = 0
  | _ => false

/-- Whether a number is less than zero. -/
def isNegative : Binary64 → Bool
  | .finite negative m => negative && m.ordinal ≠ 0
  | .infinity negative => negative
  | .nan => false

/-- A zero loses its sign; every other number stays. -/
def dropZeroSign (x : Binary64) : Binary64 :=
  if x.isZero then zero else x

/-! ### Encoding -/

/-- The number that 64 bits stand for. -/
def ofBits (bits : UInt64) : Binary64 :=
  let ordinal := bits.toNat % 2 ^ (63 : Nat)
  let negative : Bool := 2 ^ (63 : Nat) ≤ bits.toNat
  if h : ordinal < 2047 * 2 ^ (52 : Nat) then .finite negative ⟨ordinal, h⟩
  else if ordinal = 2047 * 2 ^ (52 : Nat) then .infinity negative
  else .nan

/-- The bits of a number, the quiet value for the one that is not a number. -/
def toBits : Binary64 → UInt64
  | .finite negative m => .ofNat (m.ordinal + if negative then 2 ^ (63 : Nat) else 0)
  | .infinity negative => .ofNat (2047 * 2 ^ (52 : Nat) + if negative then 2 ^ (63 : Nat) else 0)
  | .nan => .ofNat (2047 * 2 ^ (52 : Nat) + 2 ^ (51 : Nat))

theorem ofBits_toBits (x : Binary64) : ofBits x.toBits = x := by
  cases x with
  | nan => decide
  | infinity negative => cases negative <;> decide
  | finite negative m =>
    have hm := m.ordinal_lt
    cases negative
    · have hb : (m.ordinal + 0) % 2 ^ 64 = m.ordinal := by omega
      have hr : m.ordinal % 2 ^ 63 = m.ordinal := by omega
      have hs : decide (2 ^ 63 ≤ m.ordinal) = false := decide_eq_false (by omega)
      simp only [ofBits, toBits, Bool.false_eq_true, if_false, UInt64.toNat_ofNat', hb, hr, hs,
        hm, dite_true]
    · have hb : (m.ordinal + 2 ^ 63) % 2 ^ 64 = m.ordinal + 2 ^ 63 := by omega
      have hr : (m.ordinal + 2 ^ 63) % 2 ^ 63 = m.ordinal := by omega
      have hs : decide (2 ^ 63 ≤ m.ordinal + 2 ^ 63) = true := decide_eq_true (by omega)
      simp only [ofBits, toBits, if_true, UInt64.toNat_ofNat', hb, hr, hs, hm, dite_true]

/-! ### The machine's own arithmetic type -/

/-- The number as a machine float. -/
def toFloat (x : Binary64) : Float :=
  .ofBits x.toBits

/-- The number that a machine float holds. -/
def ofFloat (f : Float) : Binary64 :=
  ofBits f.toBits

end Binary64

end ChatCalculator
