import ChatCalculator.Proofs.Expression.Conversion
import ChatCalculator.Proofs.Expression.PostfixOrder
import ChatCalculator.Proofs.Expression.Tokenization

/-!
# Which expressions have a value

An expression has a value exactly if its postfix order is the postorder of a tree that has one.
That is less than being well-formed. No stage looks at neighbouring tokens: the conversion moves
operators behind what follows them, and the evaluation only counts operands. So `1 2+` is read as
`1+2`, although an operator stands where none belongs.

What misleads it is one operand directly behind another, and nothing else. Where that does not
occur, whatever has a value is well-formed, because a value means that the parentheses are
balanced and that there is one more number than there are operators.

## Main definitions

* `applyToken`: what one token makes of the stack
* `FailsWith`: an error that an operation of a table fails with
* `EvaluationError`: what can go wrong while tokens are evaluated
* `Fault.Reported`: the faults of an expression

## Main results

* `evaluate_eq_ok_iff`: values are values of trees
* `solveTokens_eq_ok_iff`: the same before the conversion
* `error_of_solve`: what is reported of an expression that has no value
* `solve_eq_ok_iff_postorder`: which expressions have a value, and what is reported for the others
-/

namespace ChatCalculator

namespace Expression

variable {table : OperatorTable}

/-! ### One step of the evaluation -/

/-- What one token makes of the stack. -/
def applyToken (table : OperatorTable) : List Binary64 → Token → Except Error (List Binary64)
  | stack, .number value => .ok (value :: stack)
  | b :: a :: below, .operator symbol =>
    match table.find? symbol with
    | none => .error (.of (.unknownOperator symbol))
    | some entry => (· :: below) <$> entry.apply a b
  | _, .operator symbol => .error (.of (.malformed (.missingOperands symbol)))
  | _, t => .error (.of (.malformed (.unexpected t.text)))

theorem evaluateOn_cons (stack : List Binary64) (t : Token) (ts : List Token) :
    evaluateOn table stack (t :: ts) =
      applyToken table stack t >>= fun next => evaluateOn table next ts := by
  match t, stack with
  | .number value, stack =>
    rw [evaluateOn]
    rfl
  | .operator symbol, b :: a :: below =>
    rw [evaluateOn, applyToken]
    cases table.find? symbol with
    | none => rfl
    | some entry =>
      dsimp only
      cases entry.apply a b with
      | error e => rfl
      | ok value => rfl
  | .operator symbol, [_] => rfl
  | .operator symbol, [] => rfl
  | .opening text, stack => simp [evaluateOn, applyToken]
  | .closing text, stack => simp [evaluateOn, applyToken]
  | .other text, stack => simp [evaluateOn, applyToken]

/-- An operation of the table fails with an error. -/
def FailsWith (table : OperatorTable) (e : Error) : Prop :=
  ∃ symbol entry a b, table.find? symbol = some entry ∧ entry.apply a b = .error e

/-- What can go wrong while tokens are evaluated. -/
inductive EvaluationError (table : OperatorTable) (ts : List Token) : Error → Prop
  /-- An operator has fewer than two operands. -/
  | missingOperands (symbol) : EvaluationError table ts (.of (.malformed (.missingOperands symbol)))
  /-- No value is left, or several are. -/
  | valueCount (count) : EvaluationError table ts (.of (.malformed (.valueCount count)))
  /-- A token has no place in postfix order. -/
  | unexpected {t} (hmem : t ∈ ts) (hpassed : t.isPassedOn = false) :
      EvaluationError table ts (.of (.malformed (.unexpected t.text)))
  /-- A symbol is not in the table. -/
  | unknownOperator {symbol} (hmem : .operator symbol ∈ ts) (hnone : table.find? symbol = none) :
      EvaluationError table ts (.of (.unknownOperator symbol))
  /-- An operation fails. -/
  | operation {e} (hfails : FailsWith table e) : EvaluationError table ts e

theorem EvaluationError.mono {ts ts' : List Token} {e : Error} (h : EvaluationError table ts e)
    (hsub : ts ⊆ ts') : EvaluationError table ts' e := by
  cases h with
  | missingOperands symbol => exact .missingOperands symbol
  | valueCount count => exact .valueCount count
  | unexpected hmem hpassed => exact .unexpected (hsub hmem) hpassed
  | unknownOperator hmem hnone => exact .unknownOperator (hsub hmem) hnone
  | operation hfails => exact .operation hfails

/-- **What a step does to the stack**, and what can go wrong. -/
theorem applyToken_cases (table : OperatorTable) (stack : List Binary64) (t : Token) :
    (∃ value, t = .number value ∧ applyToken table stack t = .ok (value :: stack)) ∨
      (∃ symbol entry a b below value, t = .operator symbol ∧ stack = b :: a :: below ∧
        table.find? symbol = some entry ∧ entry.apply a b = .ok value ∧
          applyToken table stack t = .ok (value :: below)) ∨
      ∃ e, applyToken table stack t = .error e ∧ EvaluationError table [t] e := by
  cases t with
  | number value => exact .inl ⟨value, rfl, rfl⟩
  | operator symbol =>
    match stack with
    | b :: a :: below =>
      rw [applyToken]
      cases he : table.find? symbol with
      | none => exact .inr (.inr ⟨_, rfl, .unknownOperator (List.mem_singleton_self _) he⟩)
      | some entry =>
        cases hv : entry.apply a b with
        | error e =>
          exact .inr (.inr ⟨e, by simp [hv], .operation ⟨symbol, entry, a, b, he, hv⟩⟩)
        | ok value =>
          refine .inr (.inl ⟨symbol, entry, a, b, below, value, rfl, rfl, he, hv, ?_⟩)
          simp [hv]
    | [_] => exact .inr (.inr ⟨_, rfl, .missingOperands _⟩)
    | [] => exact .inr (.inr ⟨_, rfl, .missingOperands _⟩)
  | opening text => exact .inr (.inr ⟨_, rfl, .unexpected (List.mem_singleton_self _) rfl⟩)
  | closing text => exact .inr (.inr ⟨_, rfl, .unexpected (List.mem_singleton_self _) rfl⟩)
  | other text => exact .inr (.inr ⟨_, rfl, .unexpected (List.mem_singleton_self _) rfl⟩)

/-- At the end exactly one value is left, or the number of values is reported. -/
theorem evaluateOn_nil_cases (stack : List Binary64) :
    (∃ value, stack = [value] ∧ evaluateOn table stack [] = .ok value) ∨
      evaluateOn table stack [] = .error (.of (.malformed (.valueCount stack.length))) := by
  match stack with
  | [] => exact .inr rfl
  | [value] => exact .inl ⟨value, rfl, rfl⟩
  | _ :: _ :: _ => exact .inr rfl

/-! ### Values of trees -/

/-- A value that is left at the end is that of a tree, built from the trees of what is on the
stack and the tokens to come. -/
theorem exists_tree_of_evaluateOn {ts : List Token} {value : Binary64} :
    ∀ {stack : List Binary64} {forest : List Tree},
      evaluateOn table stack ts = .ok value →
      forest.map (Tree.eval table) = stack.map Except.ok →
        ∃ t : Tree, t.postorder = forest.reverse.flatMap Tree.postorder ++ ts ∧
          t.eval table = .ok value := by
  induction ts with
  | nil =>
    intro stack forest h hf
    rcases @evaluateOn_nil_cases table stack with ⟨v, rfl, hv⟩ | he
    · rw [h] at hv
      cases hv
      obtain ⟨t, rfl, ht⟩ := List.map_eq_singleton_iff.mp hf
      exact ⟨t, by simp, ht⟩
    · exact absurd he (ne_error_of_eq_ok h _)
  | cons token ts ih =>
    intro stack forest h hf
    rw [evaluateOn_cons] at h
    rcases applyToken_cases table stack token with ⟨v, rfl, hstep⟩ |
      ⟨symbol, entry, a, b, below, v, rfl, rfl, he, hv, hstep⟩ | ⟨e, hstep, -⟩
    · rw [hstep] at h
      obtain ⟨t, ht, hvalue⟩ := @ih (v :: stack) (.number v :: forest) h (by simp [Tree.eval, hf])
      exact ⟨t, by simp [ht, Tree.postorder], hvalue⟩
    · rw [hstep] at h
      obtain ⟨right, forest, rfl, hb, hf⟩ := List.map_eq_cons_iff.mp hf
      obtain ⟨left, forest, rfl, ha, hf⟩ := List.map_eq_cons_iff.mp hf
      have heval : (Tree.binary symbol left right).eval table = .ok v := by
        rw [Tree.eval, ha, hb, ok_bind, ok_bind, he]
        exact hv
      obtain ⟨t, ht, hvalue⟩ :=
        @ih (v :: below) (.binary symbol left right :: forest) h (by simp [heval, hf])
      exact ⟨t, by simp [ht, Tree.postorder], hvalue⟩
    · rw [hstep] at h
      cases h

/-- **Values are values of trees.** -/
theorem evaluate_eq_ok_iff {ts : List Token} {value : Binary64} :
    evaluate table ts = .ok value ↔
      ∃ t : Tree, t.postorder = ts ∧ t.eval table = .ok value := by
  constructor
  · intro h
    obtain ⟨t, ht, hv⟩ := @exists_tree_of_evaluateOn table ts value [] [] h rfl
    exact ⟨t, ht, hv⟩
  · rintro ⟨t, rfl, hv⟩
    rw [t.evaluate_postorder, hv]

theorem solveTokens_eq_ok_iff {ts : List Token} {value : Binary64} :
    solveTokens table ts = .ok value ↔
      ∃ t : Tree, toPostfix table ts = .ok t.postorder ∧ t.eval table = .ok value := by
  rw [solveTokens]
  cases hp : toPostfix table ts with
  | error fault => simp
  | ok reordered =>
    simp only [evaluate_eq_ok_iff, Except.ok.injEq]
    constructor
    · rintro ⟨t, rfl, hv⟩
      exact ⟨t, rfl, hv⟩
    · rintro ⟨t, rfl, hv⟩
      exact ⟨t, rfl, hv⟩

/-- Postorder has one more number than operators. -/
theorem Tree.count_postorder (t : Tree) :
    t.postorder.countP Token.isNumber = t.postorder.countP Token.isOperator + 1 := by
  induction t with
  | number value => rfl
  | group opening closing inner ih => exact ih
  | binary symbol left right ihl ihr =>
    simp only [postorder, List.countP_append, ihl, ihr, List.countP_cons, List.countP_nil,
      Token.isNumber, Token.isOperator]
    simp
    omega

/-- What has a value is balanced and has one more number than operators. -/
theorem balanced_and_count_of_solveTokens {ts : List Token} {value : Binary64}
    (h : solveTokens table ts = .ok value) :
    balanced 0 ts = true ∧ (∀ t ∈ ts, t.Known table) ∧
      ts.countP Token.isNumber = ts.countP Token.isOperator + 1 := by
  obtain ⟨t, hp, -⟩ := solveTokens_eq_ok_iff.mp h
  obtain ⟨hb, hk, hperm⟩ := toPostfix_eq_ok hp
  refine ⟨hb, hk, ?_⟩
  have hcount := t.count_postorder
  rw [hperm.countP_eq, hperm.countP_eq, List.countP_filter, List.countP_filter] at hcount
  have hnumber : (fun t => Token.isNumber t && Token.isPassedOn t) = Token.isNumber := by
    funext t
    cases t <;> rfl
  have hoperator : (fun t => Token.isOperator t && Token.isPassedOn t) = Token.isOperator := by
    funext t
    cases t <;> rfl
  rwa [hnumber, hoperator] at hcount

/-! ### What can go wrong -/

theorem error_of_evaluateOn {ts : List Token} {e : Error} : ∀ {stack : List Binary64},
    evaluateOn table stack ts = .error e → EvaluationError table ts e := by
  induction ts with
  | nil =>
    intro stack h
    rcases @evaluateOn_nil_cases table stack with ⟨v, -, hv⟩ | he
    · exact absurd h (ne_error_of_eq_ok hv _)
    · rw [h] at he
      cases he
      exact .valueCount _
  | cons t ts ih =>
    intro stack h
    rw [evaluateOn_cons] at h
    rcases bind_eq_error_iff.mp h with hstep | ⟨next, -, hnext⟩
    · rcases applyToken_cases table stack t with ⟨v, -, hok⟩ | ⟨_, _, _, _, _, _, -, -, -, -, hok⟩ |
        ⟨reported, herror, hcause⟩
      · exact absurd hstep (ne_error_of_eq_ok hok _)
      · exact absurd hstep (ne_error_of_eq_ok hok _)
      · rw [hstep] at herror
        cases herror
        exact hcause.mono (List.cons_subset_cons t (List.nil_subset ts))
    · exact (ih hnext).mono (List.subset_cons_self t ts)

/-- The operations of the calculator divide by zero themselves. -/
theorem eq_of_failsWith_standardOperators {e : Error} (h : FailsWith standardOperators e) :
    e = .of .divisionByZero := by
  obtain ⟨symbol, entry, a, b, he, h⟩ := h
  obtain ⟨p, hp, rfl⟩ := Option.map_eq_some_iff.mp he
  have hmem := List.mem_of_find?_eq_some hp
  simp only [standardOperators, List.mem_cons, List.not_mem_nil, or_false] at hmem
  rcases hmem with rfl | rfl | rfl | rfl | rfl
  · replace h : power a b = .error e := h
    rw [power] at h
    split at h <;> cases h
    rfl
  · replace h : divide a b = .error e := h
    rw [divide] at h
    split at h <;> cases h
    rfl
  · cases h
  · cases h
  · cases h

/-- The faults of an expression. Of malformed ones, operands are missing or values are left. -/
inductive Fault.Reported : Fault → Prop
  /-- A character that starts no token. -/
  | invalidCharacter (c : Char) (position : ℕ) : Reported (.invalidCharacter [c] position)
  /-- No tokens at all. -/
  | emptyExpression : Reported .emptyExpression
  /-- A parenthesis without partner. -/
  | unbalancedParentheses (position : ℕ) : Reported (.unbalancedParentheses position)
  /-- An operator with fewer than two operands. -/
  | missingOperands (symbol : List Char) : Reported (.malformed (.missingOperands symbol))
  /-- No value at the end, or several. -/
  | valueCount (count : ℕ) : Reported (.malformed (.valueCount count))
  /-- An operation that fails. -/
  | divisionByZero : Reported .divisionByZero

theorem Fault.Reported.isOfExpression {fault : Fault} (h : fault.Reported) :
    fault.isOfExpression = true := by
  cases h <;> rfl

/-- **What goes wrong with known tokens that have no value.** None of them has no place in postfix
order, since only numbers and operators are passed on, and all operators are in the table. -/
theorem error_of_solveTokens {ts : List Token} (hknown : ∀ t ∈ ts, t.Known table) {e : Error}
    (h : solveTokens table ts = .error e) :
    (∃ fault : Fault, fault.Reported ∧ e = .of fault) ∨ FailsWith table e := by
  rw [solveTokens] at h
  rcases toPostfixFrom_of_known 0 [] hknown with ⟨-, out, hout, hperm⟩ | ⟨-, position, hout⟩
  · rw [toPostfix, hout] at h
    have hpassed : ∀ t ∈ out, t ∈ ts ∧ t.isPassedOn = true :=
      fun t ht => List.mem_filter.mp (hperm.mem_iff.mp ht)
    cases error_of_evaluateOn h with
    | missingOperands symbol => exact .inl ⟨_, .missingOperands symbol, rfl⟩
    | valueCount count => exact .inl ⟨_, .valueCount count, rfl⟩
    | unexpected hmem hnot => exact absurd (hpassed _ hmem).2 (Bool.eq_false_iff.mp hnot)
    | unknownOperator hmem hnone =>
      exact absurd (hknown _ (hpassed _ hmem).1) (Registry.find?_eq_none_iff.mp hnone)
    | operation hfails => exact .inr hfails
  · rw [toPostfix, hout] at h
    cases h
    exact .inl ⟨_, .unbalancedParentheses position, rfl⟩

/-- Once an expression is cut, what becomes of it is decided by its tokens. -/
theorem solve_of_tokenize {expression : List Char} {ts : List Token}
    (ht : tokenize table expression = .ok ts) :
    solve table expression = (solveTokens table ts).mapError (·.within expression) := by
  rw [solve, ht, ok_bind]

/-- What cannot be cut is reported of the expression. -/
theorem solve_of_tokenize_eq_error {expression : List Char} {fault : Fault}
    (ht : tokenize table expression = .error ⟨fault, some expression⟩) :
    solve table expression = .error ⟨fault, some expression⟩ := by
  rw [solve, ht, error_bind]
  exact congrArg Except.error (Error.within_of_expression_ne_none (Option.some_ne_none _) _)

/-- **What is reported of an expression that has no value**, if the table has the minus sign: a
fault of the expression, or what an operation has failed with. -/
theorem error_of_solve (hminus : ['-'] ∈ table.keys) {expression : List Char} {e : Error}
    (h : solve table expression = .error e) :
    (e.fault.Reported ∧ e.expression = some expression) ∨
      ∃ cause, FailsWith table cause ∧ e = cause.within expression := by
  rcases tokenize_cases table expression with ⟨ls, -, -, ht⟩ | ⟨ls, -, -, ht⟩ | ⟨ls, c, rest, -, ht⟩
  · rw [solve_of_tokenize ht] at h
    obtain ⟨cause, hs, rfl⟩ := mapError_eq_error_iff.mp h
    rcases error_of_solveTokens (known_of_tokenize hminus ht) hs with
      ⟨fault, hreported, rfl⟩ | hfails
    · rw [Error.within_of_expression_eq_none rfl hreported.isOfExpression]
      exact .inl ⟨hreported, rfl⟩
    · exact .inr ⟨cause, hfails, rfl⟩
  · rw [solve_of_tokenize_eq_error ht] at h
    cases h
    exact .inl ⟨.emptyExpression, rfl⟩
  · rw [solve_of_tokenize_eq_error ht] at h
    cases h
    exact .inl ⟨.invalidCharacter c _, rfl⟩

theorem solve_eq_ok_iff {expression : List Char} {value : Binary64} :
    solve table expression = .ok value ↔
      ∃ ts, tokenize table expression = .ok ts ∧ solveTokens table ts = .ok value := by
  rw [solve, mapError_eq_ok_iff, bind_eq_ok_iff]

/-- A tree that respects the table evaluates to a value, or an operation fails. -/
theorem Tree.Respects.failsWith_of_eval {t : Tree} (h : t.Respects table) {e : Error}
    (hf : t.eval table = .error e) : FailsWith table e := by
  induction t with
  | number value => cases hf
  | group opening closing inner ih => exact ih h hf
  | binary symbol left right ihl ihr =>
    obtain ⟨hl, hr, entry, he, -⟩ := h
    rw [eval] at hf
    rcases bind_eq_error_iff.mp hf with ha | ⟨a, -, hf⟩
    · exact ihl hl ha
    · rcases bind_eq_error_iff.mp hf with hb | ⟨b, -, hf⟩
      · exact ihr hr hb
      · rw [he] at hf
        exact ⟨symbol, entry, a, b, he, hf⟩

/-! ### Acceptance -/

/-- Well-formed tokens have a value, or an operation fails. -/
theorem solveTokens_of_wellFormed {ts : List Token} (h : WellFormed table ts) :
    (∃ value, solveTokens table ts = .ok value) ∨
      ∃ e, solveTokens table ts = .error e ∧ FailsWith table e := by
  obtain ⟨t, rfl, ht⟩ := Tree.exists_respects_of_wellFormed h
  have hs : solveTokens table t.tokens = t.eval table := by
    rw [solveTokens, ht.toPostfix_tokens]
    exact t.evaluate_postorder
  rw [hs]
  cases he : t.eval table with
  | ok value => exact .inl ⟨value, rfl⟩
  | error e => exact .inr ⟨e, rfl, ht.failsWith_of_eval he⟩

/-- Tokens without two operands in a row have a value only if they are well-formed. -/
theorem wellFormed_of_solveTokens {ts : List Token} (hs : Separated ts) {value : Binary64}
    (h : solveTokens table ts = .ok value) : WellFormed table ts := by
  obtain ⟨hb, hk, hcount⟩ := balanced_and_count_of_solveTokens h
  exact wellFormed_iff_separated.mpr ⟨hs, hb, hk, hcount⟩

/-- The operations of the calculator are in no expression of their own, so the one that is solved is
named in every error. -/
theorem error_of_solve_standardOperators {expression : List Char} {e : Error}
    (h : solve standardOperators expression = .error e) :
    e.expression = some expression ∧ ∀ symbol, e.fault ≠ .unknownOperator symbol := by
  have hfound : e.fault.Reported ∧ e.expression = some expression := by
    rcases error_of_solve (by decide) h with hfound | ⟨cause, hfails, rfl⟩
    · exact hfound
    · obtain rfl := eq_of_failsWith_standardOperators hfails
      exact ⟨.divisionByZero, rfl⟩
  refine ⟨hfound.2, fun symbol hsymbol => ?_⟩
  rw [hsymbol] at hfound
  cases hfound.1

/-- **Which expressions have a value.** They are those whose postfix order is the postorder of a
tree that has one. Their tokens are balanced, with one more number than operators, and if no
operand directly follows another one, they are well-formed. Well-formed ones have a value, or a
division by zero is reported. All other expressions are refused with a fault of their own, which
is never an operator that is missing from the table. -/
theorem solve_eq_ok_iff_postorder (expression : List Char) :
    (∀ value, solve standardOperators expression = .ok value ↔
      ∃ ts, tokenize standardOperators expression = .ok ts ∧
        ∃ t : Tree, toPostfix standardOperators ts = .ok t.postorder ∧
          t.eval standardOperators = .ok value) ∧
    (∀ ts, tokenize standardOperators expression = .ok ts →
      (∀ value, solve standardOperators expression = .ok value →
        balanced 0 ts = true ∧
          ts.countP Token.isNumber = ts.countP Token.isOperator + 1 ∧
            (Separated ts → WellFormed standardOperators ts)) ∧
      (Separated ts → ¬ WellFormed standardOperators ts →
        ∃ e, solve standardOperators expression = .error e) ∧
      (WellFormed standardOperators ts →
        (∃ value, solve standardOperators expression = .ok value) ∨
          solve standardOperators expression = .error ⟨.divisionByZero, some expression⟩)) ∧
    ∀ e, solve standardOperators expression = .error e →
      e.expression = some expression ∧ ∀ symbol, e.fault ≠ .unknownOperator symbol := by
  refine ⟨fun value => ?_, fun ts ht => ⟨fun value hv => ?_, fun hsep hwell => ?_, fun hwell => ?_⟩,
    fun e he => ?_⟩
  · rw [solve_eq_ok_iff]
    simp only [solveTokens_eq_ok_iff]
  · obtain ⟨ts', ht', hs⟩ := solve_eq_ok_iff.mp hv
    rw [ht] at ht'
    cases ht'
    obtain ⟨hb, -, hcount⟩ := balanced_and_count_of_solveTokens hs
    exact ⟨hb, hcount, fun hsep => wellFormed_of_solveTokens hsep hs⟩
  · cases hv : solve standardOperators expression with
    | error e => exact ⟨e, rfl⟩
    | ok value =>
      obtain ⟨ts', ht', hs⟩ := solve_eq_ok_iff.mp hv
      rw [ht] at ht'
      cases ht'
      exact absurd (wellFormed_of_solveTokens hsep hs) hwell
  · rw [solve_of_tokenize ht]
    rcases solveTokens_of_wellFormed hwell with ⟨value, hv⟩ | ⟨e, hv, hfails⟩
    · exact .inl ⟨value, mapError_eq_ok_iff.mpr hv⟩
    · obtain rfl := eq_of_failsWith_standardOperators hfails
      exact .inr (mapError_eq_error_iff.mpr ⟨_, hv, rfl⟩)
  · exact error_of_solve_standardOperators he

/-- A well-formed expression, and one that ends in an operator. -/
theorem solve_eq_ok_iff_postorder_examples :
    (∃ ts, tokenize standardOperators ['2', '*', '(', '3', ')'] = .ok ts ∧
      WellFormed standardOperators ts ∧
        ((∃ value, solve standardOperators ['2', '*', '(', '3', ')'] = .ok value) ∨
          solve standardOperators ['2', '*', '(', '3', ')'] =
            .error ⟨.divisionByZero, some ['2', '*', '(', '3', ')']⟩)) ∧
    ∃ ts, tokenize standardOperators ['2', '*'] = .ok ts ∧ Separated ts ∧
      ¬ WellFormed standardOperators ts ∧
        ∃ e, solve standardOperators ['2', '*'] = .error e ∧
          e.expression = some ['2', '*'] ∧ ∀ symbol, e.fault ≠ .unknownOperator symbol := by
  constructor
  · have ht : tokenize standardOperators ['2', '*', '(', '3', ')'] =
        .ok [.number (.ofBits 0x4000000000000000), .operator ['*'], .opening ['('],
          .number (.ofBits 0x4008000000000000), .closing [')']] := by decide +kernel
    have hwell : WellFormed standardOperators
        [.number (.ofBits 0x4000000000000000), .operator ['*'], .opening ['('],
          .number (.ofBits 0x4008000000000000), .closing [')']] := by decide
    exact ⟨_, ht, hwell, ((solve_eq_ok_iff_postorder _).2.1 _ ht).2.2 hwell⟩
  · have ht : tokenize standardOperators ['2', '*'] =
        .ok [.number (.ofBits 0x4000000000000000), .operator ['*']] := by decide +kernel
    have hsep : Separated [.number (.ofBits 0x4000000000000000), .operator ['*']] := by decide
    have hwell : ¬ WellFormed standardOperators
        [.number (.ofBits 0x4000000000000000), .operator ['*']] := by decide
    obtain ⟨e, he⟩ := ((solve_eq_ok_iff_postorder _).2.1 _ ht).2.1 hsep hwell
    exact ⟨_, ht, hsep, hwell, e, he, (solve_eq_ok_iff_postorder _).2.2 e he⟩

/-- An operator behind both of its operands is accepted, though it is not well-formed. -/
theorem solve_operands_in_a_row :
    tokenize standardOperators ['1', ' ', '2', '+'] =
        .ok [.number (.ofBits 0x3ff0000000000000), .number (.ofBits 0x4000000000000000),
          .operator ['+']] ∧
      ¬ WellFormed standardOperators [.number (.ofBits 0x3ff0000000000000),
          .number (.ofBits 0x4000000000000000), .operator ['+']] ∧
      solve standardOperators ['1', ' ', '2', '+'] = .ok (.ofBits 0x4008000000000000) := by
  refine ⟨?_, ?_, ?_⟩
  · decide +kernel
  · decide
  · decide +kernel

end Expression

end ChatCalculator
