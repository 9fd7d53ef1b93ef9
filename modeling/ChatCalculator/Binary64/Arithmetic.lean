import ChatCalculator.Binary64.Basic

/-!
# Arithmetic on double precision numbers

The five operations of the calculator, each the machine's own: sum, difference, product and
quotient are the nearest number to the exact result, the power is as exact as the machine makes
it. None of them fails; where there is no result they give the value that is not a number.
-/

namespace ChatCalculator

namespace Binary64

/-- The sum of two numbers. -/
def add (a b : Binary64) : Binary64 :=
  ofFloat (a.toFloat + b.toFloat)

/-- The difference of two numbers. -/
def sub (a b : Binary64) : Binary64 :=
  ofFloat (a.toFloat - b.toFloat)

/-- The product of two numbers. -/
def mul (a b : Binary64) : Binary64 :=
  ofFloat (a.toFloat * b.toFloat)

/-- The quotient of two numbers. -/
def div (a b : Binary64) : Binary64 :=
  ofFloat (a.toFloat / b.toFloat)

/-- The first number to the power of the second. -/
def pow (a b : Binary64) : Binary64 :=
  ofFloat (a.toFloat.pow b.toFloat)

end Binary64

end ChatCalculator
