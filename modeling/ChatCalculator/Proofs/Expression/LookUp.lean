import ChatCalculator.Proofs.Expression.Acceptance
import ChatCalculator.Proofs.Expression.Numeral

/-!
# Operators that are looked up

The operators of an expression are looked up in the table that it was cut with, once when they are
put into postfix order and once when they are evaluated. Their symbols come from two places. Most
are cut out of the expression, and cutting tries the symbols of the table only. The others are
signs: a minus sign in front of a digit is always cut off as part of the numeral, and behind an
operand it is split off again, whether or not the table has such an operator.

So one symbol decides it. With the minus sign in the table no look-up ever fails. Without it the
difference of two numbers is cut into tokens like any other expression, and then it cannot be put
into postfix order.

## Main definitions

* `operandEnds`: whether an operand has ended behind some tokens
* `ListedOrSign`: every operator is in the table, or it was a sign
* `LooksUp`: no look-up fails for some tokens

## Main results

* `listedOrSign_of_tokenize`: where the operators of an expression come from
* `looksUp_of_known`: what is known is found
* `tokenize_difference`: a difference has tokens, whatever the table
* `looksUp_of_minus_mem`: with the minus sign in the table no look-up fails, and without it one does
-/

namespace ChatCalculator

namespace Expression

variable {table : OperatorTable}

/-! ### Where operators come from -/

/-- Whether an operand has ended behind some tokens, given whether one had ended before them. -/
def operandEnds (afterOperand : Bool) (ts : List Token) : Bool :=
  ts.foldl (fun _ t => t.endsOperand) afterOperand

theorem operandEnds_cons (afterOperand : Bool) (t : Token) (ts : List Token) :
    operandEnds afterOperand (t :: ts) = operandEnds t.endsOperand ts := rfl

/-- **Every operator is in the table, or it was a sign** that has been split off a numeral: it is
the minus sign, an operand ends in front of it, and it is followed by the number. -/
def ListedOrSign (table : OperatorTable) (afterOperand : Bool) (ts : List Token) : Prop :=
  ∀ before symbol after, ts = before ++ .operator symbol :: after →
    symbol ∈ table.keys ∨ symbol = ['-'] ∧ operandEnds afterOperand before = true ∧
      ∃ value, after.head? = some (.number value)

theorem listedOrSign_nil (afterOperand : Bool) : ListedOrSign table afterOperand [] := by
  intro before symbol after h
  simp at h

/-- One more token in front. -/
theorem ListedOrSign.cons {afterOperand : Bool} {t : Token} {ts : List Token}
    (h : ListedOrSign table t.endsOperand ts)
    (ht : ∀ symbol, t = .operator symbol → symbol ∈ table.keys ∨
      symbol = ['-'] ∧ afterOperand = true ∧ ∃ value, ts.head? = some (.number value)) :
    ListedOrSign table afterOperand (t :: ts) := by
  intro before symbol after hsplit
  rcases List.cons_eq_append_iff.mp hsplit with ⟨rfl, htail⟩ | ⟨behind, rfl, hbehind⟩
  · cases htail
    exact ht symbol rfl
  · rw [operandEnds_cons]
    exact h behind symbol after hbehind

/-- The operators among the tokens of pieces, if the symbols among the pieces are in the table. -/
theorem Token.listedOrSign_ofLexemes {ls : List Lexeme}
    (hls : ∀ symbol, Lexeme.operator symbol ∈ ls → symbol ∈ table.keys) (afterOperand : Bool) :
    ListedOrSign table afterOperand (Token.ofLexemes afterOperand ls) := by
  induction ls generalizing afterOperand with
  | nil => exact listedOrSign_nil afterOperand
  | cons l ls ih =>
    replace ih := ih fun symbol hs => hls symbol (List.mem_cons_of_mem l hs)
    cases l with
    | blank blanks => exact ih afterOperand
    | numeral n =>
      rw [Token.ofLexemes]
      split
      · rename_i hsplit
        refine .cons (.cons (ih true) nofun) fun symbol hsign => ?_
        cases hsign
        exact .inr ⟨rfl, (Bool.and_eq_true_iff.mp hsplit).1, _, rfl⟩
      · exact .cons (ih true) nofun
    | operator symbol =>
      refine .cons (ih false) fun symbol' hsymbol => ?_
      cases hsymbol
      exact .inl (hls symbol List.mem_cons_self)
    | opening => exact .cons (ih false) nofun
    | closing => exact .cons (ih true) nofun

/-- Where the operators of an expression come from. -/
theorem listedOrSign_of_tokenize {expression : List Char} {ts : List Token}
    (h : tokenize table expression = .ok ts) : ListedOrSign table false ts := by
  obtain ⟨ls, hscan, rfl⟩ := exists_scan_of_tokenize h
  refine Token.listedOrSign_ofLexemes (fun symbol hs => ?_) false
  exact @Lexeme.mem_of_operator_mem_scan _ expression _ (by rwa [hscan])

/-! ### Look-ups -/

/-- **No look-up fails**, neither while tokens are put into postfix order nor while they are
evaluated. -/
structure LooksUp (table : OperatorTable) (ts : List Token) : Prop where
  /-- Every operator has an entry. -/
  entry : ∀ symbol, .operator symbol ∈ ts → ∃ entry, table.find? symbol = some entry
  /-- No operator is missing when the tokens are put into postfix order. -/
  conversion : ∀ symbol, toPostfix table ts ≠ .error (.unknownOperator symbol)
  /-- What goes wrong when they are evaluated is the number of operands, or an operation that has
  been found. -/
  evaluation : ∀ out e, toPostfix table ts = .ok out → evaluate table out = .error e →
    (∃ cause, e = .of (.malformed cause)) ∨ FailsWith table e

theorem looksUp_of_known {ts : List Token} (hknown : ∀ t ∈ ts, t.Known table) :
    LooksUp table ts where
  entry symbol hmem := Registry.exists_find?_of_mem_keys (hknown _ hmem)
  conversion symbol h := by
    rcases toPostfixFrom_of_known 0 [] hknown with ⟨-, out, hout, -⟩ | ⟨-, position, hout⟩
    · rw [toPostfix, hout] at h
      cases h
    · rw [toPostfix, hout] at h
      cases h
  evaluation out e hout he := by
    obtain ⟨-, -, hperm⟩ := toPostfix_eq_ok hout
    cases error_of_evaluateOn he with
    | missingOperands | valueCount | unexpected => exact .inl ⟨_, rfl⟩
    | unknownOperator hmem hnone =>
      have hfilter := (List.mem_filter.mp (hperm.mem_iff.mp hmem)).1
      exact absurd (hknown _ hfilter) (Registry.find?_eq_none_iff.mp hnone)
    | operation hfails => exact .inr hfails

/-- **A numeral with a sign, behind another numeral, is read as a difference**, whatever the
table. -/
theorem tokenize_difference (table : OperatorTable) {n m : Numeral} (hn : n.Proper) (hm : m.Proper)
    (hsign : m.negative = true) :
    tokenize table (n.text ++ m.text) =
      .ok [.number n.value, .operator ['-'], .number m.unsigned.value] := by
  have hends : EndsNumeral m.text := by
    intro c hc
    rw [Numeral.text, hsign] at hc
    cases hc
    decide
  have hscan := Lexeme.scan_numeral_append table.keys hm endsNumeral_nil
  rw [List.append_nil, scan_nil] at hscan
  rw [tokenize_numeral_append table hn hends, hscan]
  simp [Token.ofLexemes, hsign]

/-- **All look-ups succeed, for every expression, if the table has the minus sign.** Without it they
fail for every difference of two numerals. Whatever the table, signs that have been split off
numerals are the only operators of an expression that may be missing. -/
theorem looksUp_of_minus_mem (table : OperatorTable) :
    (['-'] ∈ table.keys → ∀ expression ts, tokenize table expression = .ok ts →
      LooksUp table ts) ∧
    (['-'] ∉ table.keys → ∀ n m : Numeral, n.Proper → m.Proper → m.negative = true →
      ∃ ts, tokenize table (n.text ++ m.text) = .ok ts ∧ .operator ['-'] ∈ ts ∧
        toPostfix table ts = .error (.unknownOperator ['-'])) ∧
    ∀ expression ts, tokenize table expression = .ok ts → ListedOrSign table false ts := by
  refine ⟨fun hminus expression ts h => looksUp_of_known (known_of_tokenize hminus h),
    fun hminus n m hn hm hsign => ⟨_, tokenize_difference table hn hm hsign, by simp, ?_⟩,
    fun expression ts => listedOrSign_of_tokenize⟩
  rw [toPostfix, toPostfixFrom, toPostfixFrom, Registry.find?_eq_none_iff.mpr hminus]
  rfl

/-- A table without the minus sign. -/
def sums : OperatorTable where
  toList := [(['+'], ⟨1, .left, plus⟩)]
  nodup := by decide

/-- With a table of sums only, a difference has an operator that is not in the table, and the
look-up of it fails. -/
theorem solve_sums_difference :
    ∃ ts, tokenize sums ['1', '-', '2'] = .ok ts ∧ .operator ['-'] ∈ ts ∧ ['-'] ∉ sums.keys ∧
      solve sums ['1', '-', '2'] = .error (.of (.unknownOperator ['-'])) := by
  have ht : tokenize sums ['1', '-', '2'] = .ok [.number (.ofBits 0x3ff0000000000000),
      .operator ['-'], .number (.ofBits 0x4000000000000000)] := by decide +kernel
  refine ⟨_, ht, by simp, by decide, ?_⟩
  rw [solve, ht]
  rfl

end Expression

end ChatCalculator
