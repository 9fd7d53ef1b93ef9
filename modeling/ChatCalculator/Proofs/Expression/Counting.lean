import ChatCalculator.Proofs.Expression.Grammar
import Mathlib.Data.List.Chain

/-!
# Well-formed expressions, by counting

In a well-formed expression the parentheses are balanced, no operand directly follows another one,
and there is one more number than there are operators. These three facts are also enough: nothing
else has to be said about where operators and parentheses stand.

The reason is a bound. In tokens without two operands in a row there are never more numbers than
the operators allow, since every number but the first has an operator of its own in front. An
operator too many, or a group without operand, falls short of that bound, and nothing behind it
can make up for it.

## Main definitions

* `Token.Known`: a token of a known kind, and if it is an operator, one of the table
* `balanced`: whether every parenthesis has its partner
* `Separated`: no operand directly follows another one

## Main results

* `SeparatedFrom.count_le`: the bound
* `wellFormed_iff_separated`: well-formed expressions by counting
-/

namespace ChatCalculator

namespace Expression

namespace Token

/-- Whether this is a number. -/
@[simp] def isNumber : Token → Bool
  | .number _ => true
  | _ => false

/-- Whether this is an operator. -/
@[simp] def isOperator : Token → Bool
  | .operator _ => true
  | _ => false

/-- Whether an operand can start with this token. -/
@[simp] def startsOperand : Token → Bool
  | .number _ | .opening _ => true
  | _ => false

/-- Whether an operand can end with this token. -/
@[simp] def endsOperand : Token → Bool
  | .number _ | .closing _ => true
  | _ => false

/-- Whether this token is of a known kind and, if it is an operator, in the table. -/
def Known (table : OperatorTable) : Token → Prop
  | .operator symbol => symbol ∈ table.keys
  | .other _ => False
  | _ => True

section Known

variable {table : OperatorTable}

@[simp] theorem known_number (value : Binary64) : (number value).Known table := trivial

@[simp] theorem known_opening (text : List Char) : (opening text).Known table := trivial

@[simp] theorem known_closing (text : List Char) : (closing text).Known table := trivial

@[simp] theorem known_operator {symbol : List Char} :
    (operator symbol).Known table ↔ symbol ∈ table.keys := Iff.rfl

@[simp] theorem not_known_other (text : List Char) : ¬ (other text).Known table := id

end Known

end Token

/-- Whether every parenthesis has its partner, given how many are open. -/
def balanced : (depth : Nat) → List Token → Bool
  | depth, [] => depth = 0
  | depth, .opening _ :: ts => balanced (depth + 1) ts
  | 0, .closing _ :: _ => false
  | depth + 1, .closing _ :: ts => balanced depth ts
  | depth, _ :: ts => balanced depth ts

/-- No operand directly follows another one. -/
def Separated (ts : List Token) : Prop :=
  ts.IsChain fun t u => ¬ (t.endsOperand = true ∧ u.startsOperand = true)

instance (ts : List Token) : Decidable (Separated ts) :=
  inferInstanceAs (Decidable (ts.IsChain _))

/-- The same for the rest of an expression, given whether an operand has just ended. -/
def SeparatedFrom (afterOperand : Bool) (ts : List Token) : Prop :=
  (∀ t ∈ ts.head?, ¬ (afterOperand = true ∧ t.startsOperand = true)) ∧ Separated ts

variable {table : OperatorTable}

theorem separatedFrom_false {ts : List Token} : SeparatedFrom false ts ↔ Separated ts := by
  simp [SeparatedFrom]

theorem separatedFrom_nil (afterOperand : Bool) : SeparatedFrom afterOperand [] := by
  simp [SeparatedFrom, Separated]

theorem separatedFrom_cons {afterOperand : Bool} {t : Token} {ts : List Token} :
    SeparatedFrom afterOperand (t :: ts) ↔
      ¬ (afterOperand = true ∧ t.startsOperand = true) ∧ SeparatedFrom t.endsOperand ts := by
  simp [SeparatedFrom, Separated, List.isChain_cons]

/-! ### The bound -/

/-- **Every number but the first has an operator of its own**, and so does the first behind an
operand. -/
theorem SeparatedFrom.count_le {ts : List Token} : ∀ {afterOperand : Bool},
    SeparatedFrom afterOperand ts → (∀ t ∈ ts, t.Known table) →
      ts.countP Token.isNumber + afterOperand.toNat ≤ ts.countP Token.isOperator + 1 := by
  induction ts with
  | nil =>
    intro afterOperand _ _
    cases afterOperand <;> simp
  | cons t ts ih =>
    intro afterOperand h hknown
    obtain ⟨ht, hts⟩ := separatedFrom_cons.mp h
    obtain ⟨hk, hks⟩ := List.forall_mem_cons.mp hknown
    have hle := ih hts hks
    rw [List.countP_cons, List.countP_cons]
    generalize ts.countP Token.isNumber = numbers at hle ⊢
    generalize ts.countP Token.isOperator = operators at hle ⊢
    cases t <;> cases afterOperand <;> simp at ht hk hle ⊢ <;> omega

/-! ### Reading and counting -/

/-- What the pass over an expression accepts, said without the pass. Where the pass refuses an
operator or a closing parenthesis, the bound leaves one number too few. -/
theorem accepts_iff_separatedFrom {ts : List Token} : ∀ {afterOperand : Bool} {depth : Nat},
    accepts table afterOperand depth ts = true ↔
      SeparatedFrom afterOperand ts ∧ balanced depth ts = true ∧ (∀ t ∈ ts, t.Known table) ∧
        ts.countP Token.isNumber + afterOperand.toNat = ts.countP Token.isOperator + 1 := by
  induction ts with
  | nil =>
    intro afterOperand depth
    cases afterOperand <;> cases depth <;> simp [accepts, balanced, separatedFrom_nil]
  | cons t ts ih =>
    intro afterOperand depth
    rw [separatedFrom_cons, List.forall_mem_cons, List.countP_cons, List.countP_cons]
    cases t with
    | number value => cases afterOperand <;> simp [accepts, ih, balanced]
    | opening text => cases afterOperand <;> simp [accepts, ih, balanced]
    | operator symbol =>
      cases afterOperand with
      | true =>
        simp only [accepts, Bool.and_eq_true, decide_eq_true_eq, ih, balanced, Token.known_operator]
        simp
        tauto
      | false =>
        simp only [accepts, Bool.false_eq_true, false_iff]
        rintro ⟨⟨-, hs⟩, -, ⟨-, hk⟩, hcount⟩
        have hle := hs.count_le hk
        simp at hle hcount
        omega
    | closing text =>
      cases afterOperand with
      | true => cases depth <;> simp [accepts, ih, balanced]
      | false =>
        simp only [accepts, Bool.false_eq_true, false_iff]
        rintro ⟨⟨-, hs⟩, -, ⟨-, hk⟩, hcount⟩
        have hle := hs.count_le hk
        simp at hle hcount
        omega
    | other text => simp [accepts]

/-- **Well-formed expressions, by counting.** -/
theorem wellFormed_iff_separated {ts : List Token} :
    WellFormed table ts ↔
      Separated ts ∧ balanced 0 ts = true ∧ (∀ t ∈ ts, t.Known table) ∧
        ts.countP Token.isNumber = ts.countP Token.isOperator + 1 := by
  rw [wellFormed_iff_accepts, accepts_iff_separatedFrom, separatedFrom_false]
  rfl

end Expression

end ChatCalculator
