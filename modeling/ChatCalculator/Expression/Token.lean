import ChatCalculator.Binary64.Text
import ChatCalculator.Expression.Fault
import ChatCalculator.Expression.Lexeme
import ChatCalculator.Expression.Operator

/-!
# Tokens

An expression is read as a list of numbers, operators and parentheses. A minus sign in front of a
digit belongs to the number where an operand has to follow: at the start, after an operator and
after an opening parenthesis. Behind an operand it is the operator.

## Main definitions

* `Token`, `Token.text`: a token and its text
* `Token.ofLexemes`: the tokens of a cut expression
* `tokenize`: the tokens of an expression, or the first character that belongs to none
-/

namespace ChatCalculator

namespace Expression

/-- A part of an expression that has a meaning of its own. -/
inductive Token
  /-- A number. -/
  | number (value : Binary64)
  /-- An operator, by its symbol. -/
  | operator (symbol : List Char)
  /-- An opening parenthesis and how it is written. -/
  | opening (text : List Char)
  /-- A closing parenthesis and how it is written. -/
  | closing (text : List Char)
  /-- A token of some other kind, which no expression has. -/
  | other (text : List Char)
deriving DecidableEq

namespace Token

/-- The text of a token: numbers in six digits, all else as it is written. -/
def text : Token → List Char
  | .number value => value.briefText
  | .operator symbol => symbol
  | .opening cs => cs
  | .closing cs => cs
  | .other cs => cs

/-- The tokens of a cut expression. `afterOperand` says whether an operand has just ended. -/
def ofLexemes (afterOperand : Bool) : List Lexeme → List Token
  | [] => []
  | .blank _ :: ls => ofLexemes afterOperand ls
  | .numeral n :: ls =>
    if afterOperand && n.negative then
      .operator ['-'] :: .number n.unsigned.value :: ofLexemes true ls
    else
      .number n.value :: ofLexemes true ls
  | .operator symbol :: ls => .operator symbol :: ofLexemes false ls
  | .opening :: ls => .opening ['('] :: ofLexemes false ls
  | .closing :: ls => .closing [')'] :: ofLexemes true ls

/-- Only blanks have no token. -/
theorem ofLexemes_eq_nil_iff {afterOperand : Bool} {ls : List Lexeme} :
    ofLexemes afterOperand ls = [] ↔ ∀ l ∈ ls, ∃ cs, l = .blank cs := by
  fun_induction ofLexemes afterOperand ls <;> simp_all

end Token

/-- The tokens of an expression. A character that starts no token is refused before an expression
without tokens is. -/
def tokenize (table : OperatorTable) (expression : List Char) : Except Error (List Token) :=
  let (lexemes, rest) := Lexeme.scan table.keys expression
  match rest with
  | c :: _ =>
    let position := expression.length - rest.length
    .error ⟨.invalidCharacter [c] position, some expression⟩
  | [] =>
    match Token.ofLexemes false lexemes with
    | [] => .error ⟨.emptyExpression, some expression⟩
    | t :: ts => .ok (t :: ts)

end Expression

end ChatCalculator
