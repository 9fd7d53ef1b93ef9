import ChatCalculator.Expression.Token

/-!
# Postfix order

In postfix order every operator follows its two operands, and there are no parentheses. Reading an
expression from left to right, numbers are passed on at once, while operators and opening
parentheses wait on a stack. An operator waits until one comes that binds no tighter, or until the
group that it stands in is closed.

## Main definitions

* `Pending`: an operator or an opening parenthesis that waits
* `Pending.precedes`: whether a waiting operator comes before a new one
* `toPostfix`: the numbers and operators of an expression in postfix order
-/

namespace ChatCalculator

namespace Expression

/-- What waits on the stack. -/
inductive Pending
  /-- An operator that waits for the end of its right operand. -/
  | operator (symbol : List Char) (entry : Operator)
  /-- A parenthesis, with its place among the tokens, that waits to be closed. -/
  | opening (position : Nat)

namespace Pending

/-- Whether this is an operator and not a parenthesis. -/
def isOperator : Pending → Bool
  | .operator _ _ => true
  | .opening _ => false

/-- Whether this is an operator that is applied before a new one: one that binds tighter, or
equally tight if the new one groups to the left. -/
def precedes (new : Operator) : Pending → Bool
  | .operator _ top =>
    new.precedence < top.precedence ||
      (top.precedence = new.precedence && new.associativity = .left)
  | .opening _ => false

/-- The token that leaves the stack. -/
def token : Pending → Token
  | .operator symbol _ => .operator symbol
  | .opening _ => .opening ['(']

end Pending

/-- What is passed on at the end of an expression: all waiting operators, the last one first. A
parenthesis that still waits has no partner. -/
def flush : List Pending → Except Fault (List Token)
  | [] => .ok []
  | .operator symbol _ :: stack => (.operator symbol :: ·) <$> flush stack
  | .opening position :: _ => .error (.unbalancedParentheses position)

/-- The postfix order of the tokens from a position on, given what waits, the last one first. -/
def toPostfixFrom (table : OperatorTable) (position : Nat) (stack : List Pending) :
    List Token → Except Fault (List Token)
  | [] => flush stack
  | .number value :: ts =>
    (.number value :: ·) <$> toPostfixFrom table (position + 1) stack ts
  | .opening _ :: ts => toPostfixFrom table (position + 1) (.opening position :: stack) ts
  | .closing _ :: ts =>
    match stack.dropWhile Pending.isOperator with
    | [] => .error (.unbalancedParentheses position)
    | _ :: below =>
      ((stack.takeWhile Pending.isOperator).map Pending.token ++ ·) <$>
        toPostfixFrom table (position + 1) below ts
  | .operator symbol :: ts =>
    match table.find? symbol with
    | none => .error (.unknownOperator symbol)
    | some entry =>
      ((stack.takeWhile (Pending.precedes entry)).map Pending.token ++ ·) <$>
        toPostfixFrom table (position + 1)
          (.operator symbol entry :: stack.dropWhile (Pending.precedes entry)) ts
  | .other text :: _ => .error (.unknownToken text)

/-- The numbers and operators of an expression in postfix order. -/
def toPostfix (table : OperatorTable) (tokens : List Token) : Except Fault (List Token) :=
  toPostfixFrom table 0 [] tokens

end Expression

end ChatCalculator
