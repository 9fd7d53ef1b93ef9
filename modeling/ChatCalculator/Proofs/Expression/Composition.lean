import ChatCalculator.Proofs.Expression.Acceptance
import ChatCalculator.Proofs.Expression.Cutting
import Mathlib.Data.List.TakeWhile

/-!
# Expressions made of expressions

An expression that has a value may be put into parentheses and used as an operand, however it is
written and even if it is not well-formed: the whole has the value that the operation gives for the
values of the parts. Each of the three stages treats the text between the parentheses as if it
stood alone, and each for a reason of its own.

* Cutting: a closing parenthesis ends every piece, and an opening one stands where an operand is
  expected, so a minus sign behind it is read as one at the start.
* Postfix order: the opening parenthesis is a floor on the stack. No operator above it looks at what
  lies below, and closing the group passes on what the end of the expression would have.
* Evaluation: the tokens of a part leave one value on top of whatever is on the stack.

## Main definitions

* `Pending.shift`: what waits, with its place among the tokens moved

## Main results

* `Lexeme.scan_append_closing`: what stands in front of a closing parenthesis is cut as it is alone
* `toPostfixFrom_append_closing`: and it is put into postfix order as it is alone
* `solve_composition`: the value of expressions in parentheses
-/

namespace ChatCalculator

namespace Expression

variable {table : OperatorTable}

/-- What is taken from a list ends where it would end anyway, if the next element is refused. -/
theorem takeWhile_append_of_head? {α : Type} {p : α → Bool} (xs : List α) {ys : List α}
    (h : ∀ y ∈ ys.head?, p y = false) :
    (xs ++ ys).takeWhile p = xs.takeWhile p ∧ (xs ++ ys).dropWhile p = xs.dropWhile p ++ ys := by
  induction xs with
  | nil =>
    cases ys with
    | nil => exact ⟨rfl, rfl⟩
    | cons y ys =>
      have hy : ¬ p y = true := by simp [h y rfl]
      exact ⟨List.takeWhile_cons_of_neg hy, List.dropWhile_cons_of_neg hy⟩
  | cons x xs ih =>
    cases hx : p x with
    | false => simp [hx]
    | true => simp [hx, ih]

/-! ### In front of a closing parenthesis -/

theorem endsNumeral_closing (more : List Char) : EndsNumeral (')' :: more) := by
  rintro c ⟨⟩
  decide

namespace Numeral

variable {ending : List Char}

theorem scanFraction_append (cs : List Char) (h : EndsNumeral ending) :
    scanFraction (cs ++ ending) = scanFraction cs := by
  cases cs with
  | nil =>
    have hnone := @scanFraction_fractionText_append none ending (fun _ h => by cases h) h
    exact hnone
  | cons c cs =>
    by_cases hc : c = '.'
    · subst hc
      rw [List.cons_append, scanFraction, scanFraction,
        (takeWhile_append_of_head? cs fun d hd => (h d hd).1).1]
    · simp [scanFraction, hc]

theorem scanUnsigned?_append_ending (cs : List Char) (h : EndsNumeral ending) :
    scanUnsigned? (cs ++ ending) = scanUnsigned? cs := by
  obtain ⟨htake, hdrop⟩ := takeWhile_append_of_head? cs fun d hd => (h d hd).1
  rw [scanUnsigned?, htake, hdrop, scanFraction_append _ h, scanUnsigned?]

/-- A numeral at the start of a text is the same, whatever comes where the text ends, if that does
not continue numerals. -/
theorem scan?_cons_append (c : Char) (cs : List Char) (h : EndsNumeral ending) :
    scan? (c :: (cs ++ ending)) = scan? (c :: cs) := by
  by_cases hc : c = '-'
  · subst hc
    rw [scan?, scan?, scanUnsigned?_append_ending cs h]
  · rw [scan?_cons_of_ne hc, scan?_cons_of_ne hc, ← List.cons_append,
      scanUnsigned?_append_ending (c :: cs) h]

end Numeral

namespace Lexeme

theorem first?_cons_append_closing (c : Char) (cs more : List Char) :
    first? standardOperators.keys (c :: (cs ++ ')' :: more)) =
      first? standardOperators.keys (c :: cs) := by
  have hblank : ∀ d ∈ (')' :: more).head?, isBlank d = false := by
    rintro d ⟨⟩
    rfl
  rw [first?_standardOperators_cons, first?_standardOperators_cons,
    (takeWhile_append_of_head? cs hblank).1,
    Numeral.scan?_cons_append c cs (endsNumeral_closing more)]

/-- **What stands in front of a closing parenthesis is cut as it is alone.** -/
theorem scan_append_closing (cs more : List Char)
    (h : (scan standardOperators.keys cs).2 = []) :
    scan standardOperators.keys (cs ++ ')' :: more) =
      ((scan standardOperators.keys cs).1 ++ .closing :: (scan standardOperators.keys more).1,
        (scan standardOperators.keys more).2) := by
  induction cs using @scan_induction standardOperators.keys with
  | stop cs hscan _ =>
    rw [hscan] at h
    obtain rfl : cs = [] := h
    rw [hscan]
    exact scan_closing more
  | step l rest hne hfirst ih =>
    rw [scan_append hne hfirst] at h ⊢
    have hmore : first? standardOperators.keys (l.text ++ (rest ++ ')' :: more)) = some l := by
      obtain ⟨c, cs, htext⟩ := List.exists_cons_of_ne_nil hne
      rw [htext, List.cons_append] at hfirst ⊢
      rw [← List.append_assoc, first?_cons_append_closing, hfirst]
    rw [List.append_assoc, scan_append hne hmore, ih h]
    rfl

end Lexeme

theorem Token.ofLexemes_append_closing (afterOperand : Bool) (ls ls' : List Lexeme) :
    ofLexemes afterOperand (ls ++ .closing :: ls') =
      ofLexemes afterOperand ls ++ .closing [')'] :: ofLexemes true ls' := by
  fun_induction ofLexemes afterOperand ls <;> simp_all [ofLexemes]

/-- The tokens of an expression in parentheses, whatever stands in front of it. -/
theorem ofLexemes_scan_group {expression : List Char} {ts : List Token}
    (h : tokenize standardOperators expression = .ok ts) (afterOperand : Bool)
    (more : List Char) :
    Token.ofLexemes afterOperand
          (Lexeme.scan standardOperators.keys ('(' :: (expression ++ ')' :: more))).1 =
        .opening ['('] :: (ts ++ .closing [')'] ::
          Token.ofLexemes true (Lexeme.scan standardOperators.keys more).1) ∧
      (Lexeme.scan standardOperators.keys ('(' :: (expression ++ ')' :: more))).2 =
        (Lexeme.scan standardOperators.keys more).2 := by
  obtain ⟨ls, hscan, rfl⟩ := exists_scan_of_tokenize h
  rw [Lexeme.scan_opening, Lexeme.scan_append_closing expression more (by rw [hscan]), hscan,
    Token.ofLexemes, Token.ofLexemes_append_closing]
  exact ⟨rfl, rfl⟩

/-! ### Above an opening parenthesis -/

namespace Pending

/-- What waits, with its place among the tokens moved. -/
def shift (k : ℕ) : Pending → Pending
  | .operator symbol entry => .operator symbol entry
  | .opening position => .opening (position + k)

theorem isOperator_comp_shift (k : ℕ) : isOperator ∘ shift k = isOperator := by
  funext p
  cases p <;> rfl

theorem precedes_comp_shift (new : Operator) (k : ℕ) : precedes new ∘ shift k = precedes new := by
  funext p
  cases p <;> rfl

theorem token_comp_shift (k : ℕ) : token ∘ shift k = token := by
  funext p
  cases p <;> rfl

end Pending

/-- **An opening parenthesis is a floor.** Operators leave a stack that stands on one as they leave
the stack alone. -/
theorem takeWhile_dropWhile_above {p : Pending → Bool} {k : ℕ} (hp : p ∘ Pending.shift k = p)
    (hopening : ∀ position, p (.opening position) = false) (stack : List Pending) (floor : ℕ)
    (below : List Pending) :
    ((stack.map (Pending.shift k) ++ .opening floor :: below).takeWhile p).map Pending.token =
        (stack.takeWhile p).map Pending.token ∧
      (stack.map (Pending.shift k) ++ .opening floor :: below).dropWhile p =
        (stack.dropWhile p).map (Pending.shift k) ++ .opening floor :: below := by
  have hfloor : ∀ x ∈ (Pending.opening floor :: below).head?, p x = false := by
    rintro x ⟨⟩
    exact hopening floor
  obtain ⟨htake, hdrop⟩ := takeWhile_append_of_head? (stack.map (Pending.shift k)) hfloor
  rw [htake, hdrop, List.takeWhile_map, List.dropWhile_map, hp, List.map_map,
    Pending.token_comp_shift]
  exact ⟨rfl, rfl⟩

/-- A token that is read on a stack is read the same way above an opening parenthesis. -/
theorem readToken_above {position : ℕ} {stack next : List Pending} {t : Token} {xs : List Token}
    (h : readToken table position stack t = .ok (xs, next)) (k floor : ℕ) (below : List Pending) :
    readToken table (position + k) (stack.map (Pending.shift k) ++ .opening floor :: below) t =
      .ok (xs, next.map (Pending.shift k) ++ .opening floor :: below) := by
  cases t with
  | number value =>
    cases h
    rfl
  | opening text =>
    cases h
    rfl
  | closing text =>
    obtain ⟨htake, hdrop⟩ := takeWhile_dropWhile_above (Pending.isOperator_comp_shift k)
      (fun _ => rfl) stack floor below
    rw [readToken] at h ⊢
    rw [htake, hdrop]
    cases hstack : stack.dropWhile Pending.isOperator with
    | nil =>
      rw [hstack] at h
      cases h
    | cons opened rest =>
      rw [hstack] at h
      cases h
      rfl
  | operator symbol =>
    rw [readToken] at h ⊢
    cases he : table.find? symbol with
    | none =>
      rw [he] at h
      cases h
    | some entry =>
      obtain ⟨htake, hdrop⟩ := takeWhile_dropWhile_above (Pending.precedes_comp_shift entry k)
        (fun _ => rfl) stack floor below
      rw [he] at h
      cases h
      dsimp only
      rw [htake, hdrop]
      rfl
  | other text => cases h

/-- **In front of the parenthesis that closes its group an expression is put into postfix order as
it is alone**, whatever waits below the group. -/
theorem toPostfixFrom_append_closing {ts : List Token} : ∀ {position : ℕ} {stack : List Pending}
    {out : List Token}, toPostfixFrom table position stack ts = .ok out →
      ∀ (k floor : ℕ) (below : List Pending) (text : List Char) (rest : List Token),
        toPostfixFrom table (position + k)
            (stack.map (Pending.shift k) ++ .opening floor :: below) (ts ++ .closing text :: rest) =
          (out ++ ·) <$> toPostfixFrom table (position + k + ts.length + 1) below rest := by
  induction ts with
  | nil =>
    intro position stack out h k floor below text rest
    obtain ⟨hall, rfl⟩ := flush_eq_ok h
    obtain ⟨htake, hdrop⟩ := takeWhile_dropWhile_above (Pending.isOperator_comp_shift k)
      (fun _ => rfl) stack floor below
    rw [List.nil_append, toPostfixFrom, htake, hdrop, List.takeWhile_eq_self_iff.mpr hall,
      List.dropWhile_eq_nil_iff.mpr hall]
    rfl
  | cons t ts ih =>
    intro position stack out h k floor below text rest
    rw [toPostfixFrom_cons] at h
    obtain ⟨⟨xs, waiting⟩, hread, h⟩ := bind_eq_ok_iff.mp h
    obtain ⟨ys, hys, rfl⟩ := map_eq_ok_iff.mp h
    have hposition : position + k + 1 + ts.length + 1 = position + k + (t :: ts).length + 1 := by
      rw [List.length_cons]
      omega
    rw [List.cons_append, toPostfixFrom_cons, readToken_above hread, ok_bind, Nat.add_right_comm,
      ih hys k floor below text rest, append_map_append, Nat.add_right_comm position 1 k,
      hposition]

/-- A group is put into postfix order as what stands in it. -/
theorem toPostfixFrom_group {ts out : List Token} (h : toPostfix table ts = .ok out)
    (position : ℕ) (stack : List Pending) (opening closing : List Char) (rest : List Token) :
    toPostfixFrom table position stack (.opening opening :: (ts ++ .closing closing :: rest)) =
      (out ++ ·) <$> toPostfixFrom table (position + ts.length + 2) stack rest := by
  have hinner := toPostfixFrom_append_closing h (position + 1) position stack closing rest
  rw [Nat.zero_add, List.map_nil, List.nil_append, Nat.add_right_comm position] at hinner
  exact hinner

/-! ### Putting values together -/

/-- A group has the value of what stands in it. -/
theorem solveTokens_group {ts : List Token} {value : Binary64}
    (h : solveTokens table ts = .ok value) (opening closing : List Char) :
    solveTokens table (.opening opening :: (ts ++ [.closing closing])) = .ok value := by
  obtain ⟨t, ht, hv⟩ := solveTokens_eq_ok_iff.mp h
  refine solveTokens_eq_ok_iff.mpr ⟨t, ?_, hv⟩
  rw [toPostfix, toPostfixFrom_group ht, toPostfixFrom, flush, map_eq_ok_iff]
  exact ⟨[], rfl, List.append_nil _⟩

/-- Two groups with an operator between them have the value of the operation. -/
theorem solveTokens_operation {ts₁ ts₂ : List Token} {v₁ v₂ : Binary64}
    (h₁ : solveTokens table ts₁ = .ok v₁) (h₂ : solveTokens table ts₂ = .ok v₂)
    (opening closing : List Char) {symbol : List Char} {entry : Operator}
    (he : table.find? symbol = some entry) :
    solveTokens table (.opening opening :: (ts₁ ++ .closing closing :: .operator symbol ::
      .opening opening :: (ts₂ ++ [.closing closing]))) = entry.apply v₁ v₂ := by
  obtain ⟨t₁, ht₁, hv₁⟩ := solveTokens_eq_ok_iff.mp h₁
  obtain ⟨t₂, ht₂, hv₂⟩ := solveTokens_eq_ok_iff.mp h₂
  have hpostfix : toPostfix table (.opening opening :: (ts₁ ++ .closing closing ::
      .operator symbol :: .opening opening :: (ts₂ ++ [.closing closing]))) =
        .ok (Tree.binary symbol t₁ t₂).postorder := by
    rw [toPostfix, toPostfixFrom_group ht₁, toPostfixFrom, he]
    dsimp only [List.takeWhile_nil, List.dropWhile_nil, List.map_nil]
    rw [toPostfixFrom_group ht₂]
    rfl
  have heval : (Tree.binary symbol t₁ t₂).eval table = entry.apply v₁ v₂ := by
    rw [Tree.eval, hv₁, hv₂, ok_bind, ok_bind, he]
  rw [solveTokens, hpostfix]
  exact (Tree.evaluate_postorder _).trans heval

/-- The tokens of an expression in parentheses. -/
theorem tokenize_group {expression : List Char} {ts : List Token}
    (h : tokenize standardOperators expression = .ok ts) :
    tokenize standardOperators ('(' :: (expression ++ [')'])) =
      .ok (.opening ['('] :: (ts ++ [.closing [')']])) := by
  obtain ⟨htokens, hrest⟩ := ofLexemes_scan_group h false []
  rw [scan_nil] at htokens hrest
  exact tokenize_eq_ok htokens hrest

/-- The tokens of two expressions in parentheses with an operator between them. -/
theorem tokenize_operation {s₁ s₂ : List Char} {ts₁ ts₂ : List Token}
    (h₁ : tokenize standardOperators s₁ = .ok ts₁) (h₂ : tokenize standardOperators s₂ = .ok ts₂)
    {symbol : List Char} (hsymbol : symbol ∈ standardOperators.keys) :
    tokenize standardOperators ('(' :: (s₁ ++ ')' :: (symbol ++ '(' :: (s₂ ++ [')'])))) =
      .ok (.opening ['('] :: (ts₁ ++ .closing [')'] :: .operator symbol ::
        .opening ['('] :: (ts₂ ++ [.closing [')']]))) := by
  rw [keys_standardOperators] at hsymbol
  obtain ⟨c, hc, rfl⟩ := List.mem_map.mp hsymbol
  rw [List.singleton_append]
  obtain ⟨hfirst, hfirstRest⟩ := ofLexemes_scan_group h₁ false (c :: '(' :: (s₂ ++ [')']))
  obtain ⟨hoperator, hoperatorRest⟩ := Token.ofLexemes_scan_operator hc ('(' :: (s₂ ++ [')']))
  obtain ⟨hsecond, hsecondRest⟩ := ofLexemes_scan_group h₂ false []
  rw [scan_nil] at hsecond hsecondRest
  refine tokenize_eq_ok ?_ ?_
  · rw [hfirst, hoperator, hsecond]
    rfl
  · rw [hfirstRest, hoperatorRest, hsecondRest]

/-- **The value of expressions in parentheses.** Expressions that have values, however they are
written, may be put into parentheses. Alone they have the same value then, and with an operator
between them they have the value of the operation; if that divides by zero, a division by zero is
reported of the whole, and nothing else can be. -/
theorem solve_composition {s₁ s₂ : List Char} {v₁ v₂ : Binary64}
    (h₁ : solve standardOperators s₁ = .ok v₁) (h₂ : solve standardOperators s₂ = .ok v₂) :
    solve standardOperators ('(' :: (s₁ ++ [')'])) = .ok v₁ ∧
      ∀ symbol entry, standardOperators.find? symbol = some entry →
        let whole := '(' :: (s₁ ++ ')' :: (symbol ++ '(' :: (s₂ ++ [')'])))
        (∀ v, solve standardOperators whole = .ok v ↔ entry.apply v₁ v₂ = .ok v) ∧
          (solve standardOperators whole = .error ⟨.divisionByZero, some whole⟩ ↔
            entry.apply v₁ v₂ = .error (.of .divisionByZero)) ∧
          ∀ e, entry.apply v₁ v₂ = .error e → e = .of .divisionByZero := by
  obtain ⟨ts₁, ht₁, hs₁⟩ := solve_eq_ok_iff.mp h₁
  obtain ⟨ts₂, ht₂, hs₂⟩ := solve_eq_ok_iff.mp h₂
  refine ⟨?_, fun symbol entry he => ?_⟩
  · exact solve_eq_ok_iff.mpr ⟨_, tokenize_group ht₁, solveTokens_group hs₁ _ _⟩
  · have htokens := tokenize_operation ht₁ ht₂ (Registry.mem_keys_of_find?_eq_some he)
    have hvalue := solveTokens_operation hs₁ hs₂ ['('] [')'] he
    intro whole
    have hsolve : solve standardOperators whole =
        (entry.apply v₁ v₂).mapError (·.within whole) := by
      rw [solve_of_tokenize htokens, hvalue]
    have hfails : ∀ e, entry.apply v₁ v₂ = .error e → e = .of .divisionByZero :=
      fun e h => eq_of_failsWith_standardOperators ⟨symbol, entry, v₁, v₂, he, h⟩
    refine ⟨fun v => ?_, ?_, hfails⟩
    · rw [hsolve, mapError_eq_ok_iff]
    · rw [hsolve, mapError_eq_error_iff]
      constructor
      · rintro ⟨e, h, -⟩
        rw [h, hfails e h]
      · exact fun h => ⟨_, h, rfl⟩

/-- A sum that is not well-formed, with blanks, is divided by a difference with two signs. -/
theorem solve_composition_postfix_sum :
    solve standardOperators ['1', ' ', '2', '+'] = .ok (.ofBits 0x4008000000000000) ∧
      solve standardOperators ['-', '1', '-', '-', '1'] = .ok .zero ∧
      solve standardOperators ['(', '1', ' ', '2', '+', ')'] = .ok (.ofBits 0x4008000000000000) ∧
      solve standardOperators
          ['(', '1', ' ', '2', '+', ')', '/', '(', '-', '1', '-', '-', '1', ')'] =
        .error ⟨.divisionByZero,
          some ['(', '1', ' ', '2', '+', ')', '/', '(', '-', '1', '-', '-', '1', ')']⟩ := by
  have hsum : solve standardOperators ['1', ' ', '2', '+'] = .ok (.ofBits 0x4008000000000000) := by
    decide +kernel
  have hzero : solve standardOperators ['-', '1', '-', '-', '1'] = .ok .zero := by
    decide +kernel
  obtain ⟨hgroup, hoperation⟩ := solve_composition hsum hzero
  exact ⟨hsum, hzero, hgroup, (hoperation ['/'] ⟨2, .left, divide⟩ rfl).2.1.mpr rfl⟩

end Expression

end ChatCalculator
