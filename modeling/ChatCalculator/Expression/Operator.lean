import ChatCalculator.Binary64.Arithmetic
import ChatCalculator.Expression.Fault
import ChatCalculator.Registry

/-!
# Operators

An operator has a precedence, a side to which it groups, and a function of two numbers, which may
refuse its operands. An expression is read with a table of operators; the order of the table
decides which of two symbols is read where both fit.

## Main definitions

* `Operator`, `OperatorTable`: an operator, and operators by their symbols
* `divide`, `power`: the operations that refuse a zero
* `standardOperators`: powers, quotients, products, sums and differences
-/

namespace ChatCalculator

namespace Expression

/-- The side to which a chain of operators of one precedence groups. -/
inductive Associativity
  /-- The first operation comes first. -/
  | left
  /-- The last operation comes first. -/
  | right
deriving DecidableEq

/-- What an operator symbol stands for. -/
structure Operator where
  /-- Operators of higher precedence bind tighter. -/
  precedence : Int
  /-- How equal precedences group. -/
  associativity : Associativity
  /-- The operation. If it fails, its error may be one in an expression of its own. -/
  apply : Binary64 → Binary64 → Except Error Binary64

/-- Operators by their symbols. -/
abbrev OperatorTable := Registry (List Char) Operator

/-- The quotient; nothing is divided by zero. -/
def divide (a b : Binary64) : Except Error Binary64 :=
  if b.isZero then .error (.of .divisionByZero) else .ok (a.div b)

/-- The power; zero has no negative power. -/
def power (a b : Binary64) : Except Error Binary64 :=
  if a.isZero && b.isNegative then .error (.of .divisionByZero) else .ok (a.pow b)

/-- The product. -/
def multiply (a b : Binary64) : Except Error Binary64 :=
  .ok (a.mul b)

/-- The sum. -/
def plus (a b : Binary64) : Except Error Binary64 :=
  .ok (a.add b)

/-- The difference. -/
def minus (a b : Binary64) : Except Error Binary64 :=
  .ok (a.sub b)

/-- The operators of the calculator. -/
def standardOperators : OperatorTable where
  toList := [
    (['^'], ⟨3, .right, power⟩),
    (['/'], ⟨2, .left, divide⟩),
    (['*'], ⟨2, .left, multiply⟩),
    (['+'], ⟨1, .left, plus⟩),
    (['-'], ⟨1, .left, minus⟩)]
  nodup := by decide

end Expression

end ChatCalculator
