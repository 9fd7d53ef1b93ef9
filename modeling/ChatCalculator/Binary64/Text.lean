import ChatCalculator.Binary64.Nearest
import ChatCalculator.Decimal.Scientific

/-!
# Texts of double precision numbers

A number is written in one of two ways: with the fewest digits that are read back as the same
number, or with six significant digits. Both end in a `Layout`, which decides where exponents are
written out.

## Main definitions

* `Magnitude.shortest`: the fewest significant digits that read back, and of those the nearest
* `Binary64.text`: the text of a number, given how finite ones are written
* `Binary64.shortestText`, `Binary64.briefText`: the two ways to write a number
-/

namespace ChatCalculator

-- powers are those of the core library, whatever else is in scope
attribute [local instance (high)] instPowNat

namespace Magnitude

/-- Whether a number in significant digits is read as this magnitude. -/
def isReadFrom (m : Magnitude) (s : Scientific) : Bool :=
  Binary64.ofDecimal false s.toDecimal = .finite false m

/-- The nearest number with `count` significant digits that is read as this magnitude, if there is
one. Only the two neighbours of the exact value can be. -/
def withDigits? (m : Magnitude) (count : Nat) : Option Scientific :=
  let exact := m.toDecimal
  let dropped := (Nat.toDigits 10 exact.coefficient).length - count
  let power : Int := dropped - exact.places
  let below : Scientific := ⟨exact.coefficient / 10 ^ dropped, power⟩
  let above : Scientific := ⟨exact.coefficient / 10 ^ dropped + 1, power⟩
  match m.isReadFrom below, m.isReadFrom above with
  | true, true => some ⟨nearestEven exact.coefficient (10 ^ dropped), power⟩
  | true, false => some below
  | false, true => some above
  | false, false => none

/-- The fewest significant digits that are read as this magnitude; `17` always are. -/
def shortest (m : Magnitude) : Scientific :=
  ((List.range 17).findSome? fun n => m.withDigits? (n + 1)).getD (m.toDecimal.significant 17)

end Magnitude

namespace Binary64

/-- A text with a minus sign in front, if the number is negative. -/
def signed (negative : Bool) (text : List Char) : List Char :=
  if negative then '-' :: text else text

/-- The text of a number, where `write` says how sign and magnitude of a finite one are written. -/
def text (write : Bool → Magnitude → List Char) : Binary64 → List Char
  | .nan => ['n', 'a', 'n']
  | .infinity negative => signed negative ['i', 'n', 'f']
  | .finite negative m => write negative m

/-- Results in full: exponents below `-4` and from `16` on are written, and a whole number ends
in `.0`. -/
def fullLayout : Layout := ⟨-4, 16, ['.', '0'], 2⟩

/-- Numbers in six digits: exponents below `-4` and from `6` on are written, and a whole number
has no point. -/
def briefLayout : Layout := ⟨-4, 6, [], 2⟩

/-- A number in the fewest digits that are read back as the same number. -/
def shortestText : Binary64 → List Char :=
  text fun negative m => signed negative (fullLayout.text m.shortest)

/-- A number in six significant digits. -/
def briefText : Binary64 → List Char :=
  text fun negative m => signed negative (briefLayout.text (m.toDecimal.significant 6))

end Binary64

end ChatCalculator
