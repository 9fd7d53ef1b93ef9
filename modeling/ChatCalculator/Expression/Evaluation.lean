import ChatCalculator.Expression.Postfix

/-!
# Values of expressions

Tokens in postfix order are evaluated on a stack of numbers: a number is put on top, and an
operator replaces the two topmost numbers, the second of which is its left operand, by its result.
An expression is solved by reading its tokens, putting them into postfix order and evaluating
them. Whatever goes wrong is reported together with the expression, unless it has been reported of
another one before.

## Main definitions

* `evaluate`: the value of tokens in postfix order
* `solve`: the value of an expression
* `LogEntry`, `solveLog`: what is noted while an expression is solved
-/

namespace ChatCalculator

namespace Expression

/-- The value of tokens in postfix order, given the numbers before them, the last one first. -/
def evaluateOn (table : OperatorTable) : List Binary64 → List Token → Except Error Binary64
  | [value], [] => .ok value
  | stack, [] => .error (.of (.malformed (.valueCount stack.length)))
  | stack, .number value :: ts => evaluateOn table (value :: stack) ts
  | b :: a :: stack, .operator symbol :: ts =>
    match table.find? symbol with
    | none => .error (.of (.unknownOperator symbol))
    | some entry =>
      match entry.apply a b with
      | .error e => .error e
      | .ok value => evaluateOn table (value :: stack) ts
  | _, .operator symbol :: _ => .error (.of (.malformed (.missingOperands symbol)))
  | _, t :: _ => .error (.of (.malformed (.unexpected t.text)))

/-- The value of tokens in postfix order. -/
def evaluate (table : OperatorTable) (tokens : List Token) : Except Error Binary64 :=
  evaluateOn table [] tokens

/-- The value of tokens as they stand in an expression. -/
def solveTokens (table : OperatorTable) (tokens : List Token) : Except Error Binary64 :=
  match toPostfix table tokens with
  | .error fault => .error (.of fault)
  | .ok reordered => evaluate table reordered

/-- The value of an expression. -/
def solve (table : OperatorTable) (expression : List Char) : Except Error Binary64 :=
  (tokenize table expression >>= solveTokens table).mapError (·.within expression)

/-! ### The log -/

/-- What is noted while an expression is solved. -/
inductive LogEntry
  /-- The tokens of the expression. -/
  | tokens (tokens : List Token)
  /-- The tokens in postfix order. -/
  | reordered (tokens : List Token)
  /-- The value. -/
  | result (value : Binary64)

/-- The texts of tokens with spaces between them. -/
def Token.join (tokens : List Token) : String :=
  .ofList (List.intercalate [' '] (tokens.map Token.text))

/-- A log entry as a line. -/
def LogEntry.line : LogEntry → String
  | .tokens ts => "DEBUG Infix: " ++ Token.join ts
  | .reordered ts => "DEBUG Postfix: " ++ Token.join ts
  | .result value => "DEBUG Result: " ++ .ofList value.shortestText

/-- What is noted while an expression is solved, up to the first stage that fails. -/
def solveLog (table : OperatorTable) (expression : List Char) : List LogEntry :=
  match tokenize table expression with
  | .error _ => []
  | .ok tokens =>
    .tokens tokens ::
      match toPostfix table tokens with
      | .error _ => []
      | .ok reordered =>
        .reordered reordered ::
          match evaluate table reordered with
          | .error _ => []
          | .ok value => [.result value]

end Expression

end ChatCalculator
