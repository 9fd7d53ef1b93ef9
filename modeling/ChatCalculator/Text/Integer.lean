import ChatCalculator.Text.Blank
import ChatCalculator.Text.DecimalDigit

/-!
# Reading integers

An integer may stand between blanks, may have a sign, may be written in the decimal digits of any
script, and may have single underscores between digits. Very long integers are refused, even if
something follows that is no part of an integer.

## Main definitions

* `separatesDigits`: whether the underscores of a run stand between digits
* `readInteger`: the integer that a text holds
-/

namespace ChatCalculator

/-- Why a text is not read as an integer. -/
inductive IntegerFault
  /-- The text is not an integer. -/
  | malformed
  /-- The text has more digits than are read. -/
  | tooLong (digits : Nat)
deriving DecidableEq

/-- The most digits of an integer that is read. -/
def mostDigits : Nat := 4300

/-- Blanks around an integer: those of ASCII and white space beyond it. -/
def isIntegerBlank (c : Char) : Bool :=
  isBlank c || isWideSpace c

/-- Whether every underscore in a run of digits and underscores is followed by a digit and, apart
from the first character, follows one. -/
def separatesDigits : List Char → Bool
  | [] => true
  | ['_'] => false
  | '_' :: '_' :: _ => false
  | _ :: cs => separatesDigits cs

/-- Splits a sign off a text. -/
def splitSign : List Char → Bool × List Char
  | '-' :: cs => (true, cs)
  | '+' :: cs => (false, cs)
  | cs => (false, cs)

/-- The integer that a text holds. -/
def readInteger (text : List Char) : Except IntegerFault Int :=
  let (negative, body) := splitSign (text.dropWhile isIntegerBlank)
  let inRun (c : Char) : Bool := c = '_' || (digitValue? c).isSome
  let run := body.takeWhile inRun
  let digits := run.filterMap digitValue?
  if run.head? = some '_' ∨ ¬ separatesDigits run then .error .malformed
  else if mostDigits < digits.length then .error (.tooLong digits.length)
  else if digits = [] ∨ ¬ (body.dropWhile inRun).all isIntegerBlank then .error .malformed
  else
    let magnitude : Nat := digits.foldl (fun n d => 10 * n + d) 0
    .ok (if negative then -magnitude else magnitude)

end ChatCalculator
