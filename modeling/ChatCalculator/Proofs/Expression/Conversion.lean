import ChatCalculator.Proofs.Expression.Counting
import ChatCalculator.Proofs.Outcome

/-!
# When postfix order succeeds, and what it keeps

Whether an expression can be put into postfix order depends on nothing but its parentheses and on
whether its tokens are known: precedences decide the order of the result, never whether there is
one, and misplaced numbers and operators go unnoticed. The result then consists of the numbers and
operators of the expression.

Reading an expression is a run of a machine whose state is the stack of what waits. `readToken` is
one step of it. `readToken_cases` says all that a step can do, and the rest of the module is that
lemma, carried along a run.

## Main definitions

* `openGroups`: how many parentheses wait to be closed
* `readToken`: what one token passes on, and what waits behind it

## Main results

* `readToken_cases`: what a step keeps, and when there is none
* `toPostfixFrom_of_known`: known tokens have a postfix order exactly if they are balanced, and
  the result has lost nothing and added nothing
* `known_of_toPostfixFrom`: other tokens have none
-/

namespace ChatCalculator

namespace Expression

variable {table : OperatorTable}

/-! ### What waits -/

/-- How many parentheses wait to be closed. -/
def openGroups (stack : List Pending) : Nat :=
  stack.countP fun p => !p.isOperator

/-- The operators that wait, as the tokens that they become. -/
def waitingTokens (stack : List Pending) : List Token :=
  (stack.filter Pending.isOperator).map Pending.token

/-- Whether a token stands in the postfix order. -/
def Token.isPassedOn (t : Token) : Bool :=
  t.isNumber || t.isOperator

@[simp] theorem openGroups_operator (symbol : List Char) (entry : Operator)
    (stack : List Pending) : openGroups (.operator symbol entry :: stack) = openGroups stack := by
  simp [openGroups, Pending.isOperator]

@[simp] theorem openGroups_opening (position : Nat) (stack : List Pending) :
    openGroups (.opening position :: stack) = openGroups stack + 1 := by
  simp [openGroups, Pending.isOperator]

@[simp] theorem waitingTokens_operator (symbol : List Char) (entry : Operator)
    (stack : List Pending) :
    waitingTokens (.operator symbol entry :: stack) = .operator symbol :: waitingTokens stack :=
  rfl

@[simp] theorem waitingTokens_opening (position : Nat) (stack : List Pending) :
    waitingTokens (.opening position :: stack) = waitingTokens stack := rfl

theorem Pending.isOperator_of_precedes {new : Operator} {p : Pending}
    (h : Pending.precedes new p = true) : p.isOperator = true := by
  cases p with
  | operator symbol entry => rfl
  | opening position => cases h

/-- Operators that leave the stack close no group, and they are passed on as they are. -/
theorem takeWhile_dropWhile_stack {p : Pending → Bool}
    (hp : ∀ x, p x = true → x.isOperator = true) (stack : List Pending) :
    openGroups (stack.dropWhile p) = openGroups stack ∧
      (stack.takeWhile p).map Pending.token ++ waitingTokens (stack.dropWhile p) =
        waitingTokens stack := by
  induction stack with
  | nil => exact ⟨rfl, rfl⟩
  | cons x stack ih =>
    cases hx : p x with
    | false =>
      rw [List.dropWhile_cons_of_neg (by simp [hx]), List.takeWhile_cons_of_neg (by simp [hx])]
      exact ⟨rfl, rfl⟩
    | true =>
      rw [List.dropWhile_cons_of_pos hx, List.takeWhile_cons_of_pos hx]
      refine ⟨?_, ?_⟩
      · rw [ih.1]
        simp [openGroups, hp x hx]
      · rw [List.map_cons, List.cons_append, ih.2]
        simp [waitingTokens, hp x hx]

/-- Below the operators on top of the stack there is nothing or a parenthesis. -/
theorem dropWhile_isOperator_cases (stack : List Pending) :
    stack.dropWhile Pending.isOperator = [] ∨
      ∃ position below, stack.dropWhile Pending.isOperator = .opening position :: below := by
  induction stack with
  | nil => exact .inl rfl
  | cons p stack ih =>
    cases p with
    | operator symbol entry => exact ih
    | opening position => exact .inr ⟨position, stack, rfl⟩

/-! ### One step -/

/-- What one token passes on, and what waits behind it. -/
def readToken (table : OperatorTable) (position : Nat) (stack : List Pending) :
    Token → Except Fault (List Token × List Pending)
  | .number value => .ok ([.number value], stack)
  | .opening _ => .ok ([], .opening position :: stack)
  | .closing _ =>
    match stack.dropWhile Pending.isOperator with
    | [] => .error (.unbalancedParentheses position)
    | _ :: below => .ok ((stack.takeWhile Pending.isOperator).map Pending.token, below)
  | .operator symbol =>
    match table.find? symbol with
    | none => .error (.unknownOperator symbol)
    | some entry =>
      .ok ((stack.takeWhile (Pending.precedes entry)).map Pending.token,
        .operator symbol entry :: stack.dropWhile (Pending.precedes entry))
  | .other text => .error (.unknownToken text)

theorem toPostfixFrom_cons (position : Nat) (stack : List Pending) (t : Token)
    (ts : List Token) :
    toPostfixFrom table position stack (t :: ts) =
      readToken table position stack t >>= fun r =>
        (r.1 ++ ·) <$> toPostfixFrom table (position + 1) r.2 ts := by
  cases t with
  | number value => rfl
  | opening text =>
    rw [toPostfixFrom, readToken, ok_bind]
    simp only [List.nil_append, id_map']
  | closing text =>
    rw [toPostfixFrom, readToken]
    cases stack.dropWhile Pending.isOperator <;> rfl
  | operator symbol =>
    rw [toPostfixFrom, readToken]
    cases table.find? symbol <;> rfl
  | other text => rfl

/-- **What a step keeps.** A known token is read if it does not close a group where none is open.
The parentheses that wait together with those to come stay balanced or unbalanced, and what is
passed on together with what waits is what waited before and the token. -/
theorem readToken_cases (table : OperatorTable) (position : Nat) (stack : List Pending)
    (t : Token) :
    (∃ xs next, readToken table position stack t = .ok (xs, next) ∧ t.Known table ∧
        (∀ ts, balanced (openGroups stack) (t :: ts) = balanced (openGroups next) ts) ∧
          (xs ++ waitingTokens next).Perm (waitingTokens stack ++ [t].filter Token.isPassedOn)) ∨
      ∃ fault, readToken table position stack t = .error fault ∧
        (t.Known table → fault = .unbalancedParentheses position ∧
          ∀ ts, balanced (openGroups stack) (t :: ts) = false) := by
  cases t with
  | number value =>
    refine .inl ⟨_, _, rfl, Token.known_number value, fun ts => ?_, ?_⟩
    · simp [balanced]
    · exact List.perm_append_comm
  | opening text =>
    refine .inl ⟨_, _, rfl, Token.known_opening text, fun ts => ?_, ?_⟩
    · simp [balanced]
    · simp [Token.isPassedOn]
  | closing text =>
    obtain ⟨hopen, hwaiting⟩ := takeWhile_dropWhile_stack (p := Pending.isOperator)
      (fun _ h => h) stack
    rw [readToken]
    rcases dropWhile_isOperator_cases stack with h | ⟨opened, below, h⟩
    · rw [h] at hopen ⊢
      refine .inr ⟨_, rfl, fun _ => ⟨rfl, fun ts => ?_⟩⟩
      rw [← hopen]
      rfl
    · rw [h] at hopen hwaiting ⊢
      refine .inl ⟨_, _, rfl, Token.known_closing text, fun ts => ?_, ?_⟩
      · rw [← hopen, openGroups_opening, balanced]
      · rw [← hwaiting]
        simp [Token.isPassedOn]
  | operator symbol =>
    rw [readToken]
    cases he : table.find? symbol with
    | none =>
      exact .inr ⟨_, rfl, fun hk => absurd hk (Registry.find?_eq_none_iff.mp he)⟩
    | some entry =>
      obtain ⟨hopen, hwaiting⟩ := takeWhile_dropWhile_stack
        (p := Pending.precedes entry) (fun _ => Pending.isOperator_of_precedes) stack
      have hk : symbol ∈ table.keys := by
        by_contra hn
        rw [Registry.find?_eq_none_iff.mpr hn] at he
        cases he
      refine .inl ⟨_, _, rfl, hk, fun ts => ?_, ?_⟩
      · rw [openGroups_operator, hopen]
        simp [balanced]
      · have hfilter : [Token.operator symbol].filter Token.isPassedOn = [.operator symbol] := rfl
        rw [← hwaiting, waitingTokens_operator, hfilter, List.append_assoc]
        exact (List.perm_append_singleton _ _).symm.append_left _
  | other text => exact .inr ⟨_, rfl, fun hk => absurd hk (Token.not_known_other text)⟩

/-! ### A run -/

/-- At the end all operators that wait are passed on, unless a parenthesis still waits. -/
theorem flush_cases (stack : List Pending) :
    (openGroups stack = 0 ∧ flush stack = .ok (waitingTokens stack)) ∨
      (openGroups stack ≠ 0 ∧
        ∃ position, flush stack = .error (.unbalancedParentheses position)) := by
  induction stack with
  | nil => exact .inl ⟨rfl, rfl⟩
  | cons p stack ih =>
    cases p with
    | operator symbol entry =>
      rw [flush, openGroups_operator]
      rcases ih with ⟨h, hf⟩ | ⟨h, position, hf⟩
      · exact .inl ⟨h, by rw [hf]; rfl⟩
      · exact .inr ⟨h, position, by rw [hf]; rfl⟩
    | opening position => exact .inr ⟨by simp, position, rfl⟩

/-- What is passed on at the end is all that waits, if that is operators only. -/
theorem flush_eq_ok {stack : List Pending} {out : List Token} (h : flush stack = .ok out) :
    (∀ p ∈ stack, p.isOperator = true) ∧ out = stack.map Pending.token := by
  induction stack generalizing out with
  | nil =>
    cases h
    exact ⟨List.forall_mem_nil _, rfl⟩
  | cons p stack ih =>
    cases p with
    | operator symbol entry =>
      rw [flush] at h
      obtain ⟨rest, hrest, rfl⟩ := map_eq_ok_iff.mp h
      obtain ⟨hall, rfl⟩ := ih hrest
      exact ⟨List.forall_mem_cons.mpr ⟨rfl, hall⟩, rfl⟩
    | opening position => cases h

/-- **Known tokens have a postfix order exactly if they are balanced.** It holds the operators that
waited and the numbers and operators read. Otherwise a parenthesis is reported. -/
theorem toPostfixFrom_of_known {ts : List Token} :
    ∀ (position : Nat) (stack : List Pending), (∀ t ∈ ts, t.Known table) →
      (balanced (openGroups stack) ts = true ∧ ∃ out,
        toPostfixFrom table position stack ts = .ok out ∧
          out.Perm (waitingTokens stack ++ ts.filter Token.isPassedOn)) ∨
      (balanced (openGroups stack) ts = false ∧ ∃ reported,
        toPostfixFrom table position stack ts = .error (.unbalancedParentheses reported)) := by
  induction ts with
  | nil =>
    intro position stack _
    rcases flush_cases stack with ⟨h, hf⟩ | ⟨h, reported, hf⟩
    · exact .inl ⟨by simp [balanced, h], _, hf, by simp⟩
    · exact .inr ⟨by simp [balanced, h], reported, hf⟩
  | cons t ts ih =>
    intro position stack hknown
    obtain ⟨hk, hks⟩ := List.forall_mem_cons.mp hknown
    rw [toPostfixFrom_cons]
    rcases readToken_cases table position stack t with
      ⟨xs, next, hread, -, hbalanced, hperm⟩ | ⟨fault, hread, hfault⟩
    · rw [hread, hbalanced, ok_bind]
      rcases ih (position + 1) next hks with ⟨hb, out, hout, hp⟩ | ⟨hb, reported, hout⟩
      · refine .inl ⟨hb, xs ++ out, by rw [hout]; rfl, ?_⟩
        have hsplit : (t :: ts).filter Token.isPassedOn =
            [t].filter Token.isPassedOn ++ ts.filter Token.isPassedOn := by
          rw [← List.filter_append, List.singleton_append]
        rw [hsplit, ← List.append_assoc]
        refine (hp.append_left xs).trans ?_
        rw [← List.append_assoc]
        exact hperm.append_right _
      · exact .inr ⟨hb, reported, by rw [hout]; rfl⟩
    · obtain ⟨rfl, hb⟩ := hfault hk
      exact .inr ⟨hb ts, position, by rw [hread]; rfl⟩

/-- What has a postfix order consists of known tokens. -/
theorem known_of_toPostfixFrom {ts : List Token} :
    ∀ {position : Nat} {stack : List Pending} {out : List Token},
      toPostfixFrom table position stack ts = .ok out → ∀ t ∈ ts, t.Known table := by
  induction ts with
  | nil => intro _ _ _ _ t ht; cases ht
  | cons t ts ih =>
    intro position stack out h
    rw [toPostfixFrom_cons] at h
    rcases readToken_cases table position stack t with
      ⟨xs, next, hread, hk, -⟩ | ⟨fault, hread, -⟩
    · rw [hread, ok_bind] at h
      obtain ⟨rest, hrest, -⟩ := map_eq_ok_iff.mp h
      exact List.forall_mem_cons.mpr ⟨hk, ih hrest⟩
    · rw [hread] at h
      cases h

/-- A whole expression that has a postfix order is balanced, and the postfix order consists of its
numbers and operators. -/
theorem toPostfix_eq_ok {ts out : List Token} (h : toPostfix table ts = .ok out) :
    balanced 0 ts = true ∧ (∀ t ∈ ts, t.Known table) ∧
      out.Perm (ts.filter Token.isPassedOn) := by
  have hknown := known_of_toPostfixFrom h
  rcases toPostfixFrom_of_known 0 [] hknown with ⟨hb, out', hout, hp⟩ | ⟨-, reported, hout⟩
  · rw [toPostfix, hout] at h
    cases h
    exact ⟨hb, hknown, hp⟩
  · rw [toPostfix, hout] at h
    cases h

end Expression

end ChatCalculator
