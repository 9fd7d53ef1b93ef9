/-!
# What can be wrong with an expression

Each stage between an expression and its value has faults of its own: characters that belong to no
token, parentheses without partner, operators without operands, and operations without result.
An `Expression.Error` is a fault together with the expression that it was found in, once that is
known: an error is reported of the first expression in which it is found, and of no other one.

## Main definitions

* `Fault`, `Malformation`: the causes
* `Fault.description?`: what was found, for those faults that describe it
* `Error.of`, `Error.within`: a fault that is not in an expression yet, and an error as it is
  reported of one
* `Error.message`: the sentence for the author of the expression
-/

namespace ChatCalculator

namespace Expression

/-- Why a sequence of numbers and operators has no value. -/
inductive Malformation
  /-- An operator with fewer than two values before it. -/
  | missingOperands (symbol : List Char)
  /-- A token that is neither a number nor an operator. -/
  | unexpected (text : List Char)
  /-- A sequence that leaves no value, or several. -/
  | valueCount (count : Nat)
deriving DecidableEq

/-- What can be wrong with an expression. -/
inductive Fault
  /-- Text that starts no token, with its position. The tokens of an expression are read up to the
  first such character; a fault that is reported by others may name a longer text. -/
  | invalidCharacter (text : List Char) (position : Int)
  /-- An expression without tokens. -/
  | emptyExpression
  /-- A parenthesis without partner, with its place among the tokens. -/
  | unbalancedParentheses (position : Nat)
  /-- Numbers and operators that do not belong together. -/
  | malformed (cause : Malformation)
  /-- A division by zero, or a negative power of it. -/
  | divisionByZero
  /-- A token of no known kind. -/
  | unknownToken (text : List Char)
  /-- An operator that is not in the table. -/
  | unknownOperator (symbol : List Char)
deriving DecidableEq

/-- What was found in a malformed sequence. -/
def Malformation.description : Malformation → String
  | .missingOperands symbol => "Not enough operands for " ++ .ofList symbol
  | .unexpected text => "Unexpected " ++ .ofList text ++ " in postfix"
  | .valueCount count => "Expected one value, found " ++ count.repr

/-- What was found, for those faults that describe it. -/
def Fault.description? : Fault → Option String
  | .malformed cause => some cause.description
  | .unknownToken text => some ("Invalid token: " ++ .ofList text)
  | _ => none

/-- A sentence about a fault. Positions count from one. -/
def Fault.message : Fault → String
  | .invalidCharacter text position =>
    "Invalid character `" ++ .ofList text ++ "` at position " ++ (position + 1).repr
  | .emptyExpression => "There is nothing to evaluate"
  | .unbalancedParentheses _ => "Unbalanced parentheses"
  | .malformed _ => "Missing a number or an operator"
  | .divisionByZero => "Division by zero"
  | .unknownToken _ => "Could not evaluate"
  | .unknownOperator _ => "Could not evaluate"

/-- Whether a fault is one of an expression. An operator that is missing is one of the table. -/
def Fault.isOfExpression : Fault → Bool
  | .unknownOperator _ => false
  | _ => true

/-- A fault in an expression. -/
structure Error where
  /-- What is wrong. -/
  fault : Fault
  /-- The expression, where it is known. -/
  expression : Option (List Char)
deriving DecidableEq

namespace Error

/-- A fault, as long as it is not known in which expression it is. -/
def of (fault : Fault) : Error :=
  ⟨fault, none⟩

/-- The error as it is reported of an expression. What has been found in an expression before stays
with that one, and a fault of the table is in none. -/
def within (e : Error) (expression : List Char) : Error :=
  if e.fault.isOfExpression then { e with expression := e.expression.or (some expression) } else e

/-- An error is reported of one expression only. -/
theorem within_of_expression_ne_none {e : Error} (h : e.expression ≠ none)
    (expression : List Char) : e.within expression = e := by
  obtain ⟨fault, _ | known⟩ := e
  · exact absurd rfl h
  · rw [within]
    split <;> rfl

/-- A fault that is in no expression yet is found in the one that is solved. -/
theorem within_of_expression_eq_none {e : Error} (h : e.expression = none)
    (hfault : e.fault.isOfExpression = true) (expression : List Char) :
    e.within expression = ⟨e.fault, some expression⟩ := by
  rw [within, if_pos hfault, h]
  rfl

end Error

/-- A sentence about an error, which quotes the expression unless that is empty. -/
def Error.message (e : Error) : String :=
  match e.expression with
  | none | some [] => e.fault.message
  | some cs => e.fault.message ++ " in `" ++ .ofList cs ++ "`"

end Expression

end ChatCalculator
