import ChatCalculator.Proofs.Expression.Tree

/-!
# Postfix order and trees

Putting an expression into postfix order and evaluating the result never builds a tree. The tree
is there all the same: while an expression is read, the operators that wait are those on the right
edge of the tree of what has been read, innermost first, and what has been passed on is the rest
of that tree in postorder.

## What the stack has to satisfy

A tree can be read on top of any stack on which none of its own operators ends the wait of the
topmost entry. That is all that is asked of the stack, and both operands of a node inherit it: the
left one because its operators are among those of the node, the right one because the operator of
the node, which is the topmost entry by then, waits for all of them.

## Main definitions

* `Tree.waiting`: what waits when a tree has been read, the innermost operator first
* `Tree.passedOn`: what has been passed on by then

## Main results

* `Tree.Respects.toPostfixFrom_tokens_append`: the tokens of a tree are read as that tree
* `Tree.evaluateOn_postorder_append`: a postorder leaves the value of its tree on the stack
* `existsUnique_tree_of_wellFormed`: a well-formed expression has one tree, and postfix order and
  value are those of the tree
-/

namespace ChatCalculator

namespace Expression

variable {table : OperatorTable}

theorem Pending.precedes_operator {new top : Operator} {symbol : List Char} :
    Pending.precedes new (.operator symbol top) = true ↔ top.leads new := by
  simp [Pending.precedes, Operator.leads]

/-- What is passed on first and what is passed on next are passed on together. -/
theorem append_map_append (xs ys : List Token) (result : Except Fault (List Token)) :
    (xs ++ ·) <$> (ys ++ ·) <$> result = ((xs ++ ys) ++ ·) <$> result := by
  simp only [Functor.map_map, List.append_assoc]

namespace Tree

/-- The operators on the right edge of a tree, which still wait when it has been read. -/
def waiting (table : OperatorTable) : Tree → List Pending
  | binary symbol _ right =>
    right.waiting table ++ ((table.find? symbol).map (Pending.operator symbol)).toList
  | _ => []

/-- What has been passed on when a tree has been read. -/
def passedOn : Tree → List Token
  | number value => [.number value]
  | group _ _ inner => inner.postorder
  | binary _ left right => left.postorder ++ right.passedOn

theorem mem_waiting {t : Tree} {p : Pending} (h : p ∈ t.waiting table) :
    ∃ symbol ∈ t.symbols, ∃ entry, table.find? symbol = some entry ∧
      p = .operator symbol entry := by
  induction t with
  | number value => cases h
  | group opening closing inner ih => cases h
  | binary symbol left right ihl ihr =>
    rw [waiting, List.mem_append] at h
    rcases h with h | h
    · obtain ⟨s, hs, entry, he, rfl⟩ := ihr h
      exact ⟨s, by simp [symbols, hs], entry, he, rfl⟩
    · simp only [Option.mem_toList, Option.map_eq_some_iff] at h
      obtain ⟨entry, he, rfl⟩ := h
      exact ⟨symbol, by simp [symbols], entry, he, rfl⟩

theorem isOperator_of_mem_waiting {t : Tree} {p : Pending} (h : p ∈ t.waiting table) :
    p.isOperator = true := by
  obtain ⟨symbol, -, entry, -, rfl⟩ := mem_waiting h
  rfl

/-- What was passed on and what still waits make up the postorder. -/
theorem Respects.passedOn_append_waiting {t : Tree} (h : t.Respects table) :
    t.passedOn ++ (t.waiting table).map Pending.token = t.postorder := by
  induction t with
  | number value => rfl
  | group opening closing inner ih => exact List.append_nil _
  | binary symbol left right ihl ihr =>
    obtain ⟨hl, hr, entry, he, -⟩ := h
    rw [passedOn, waiting, postorder, ← ihr hr, he]
    simp [Pending.token]

/-! ### Reading a tree -/

/-- **The tokens of a tree are read as that tree**, on top of any stack that none of its operators
disturbs. -/
theorem Respects.toPostfixFrom_tokens_append {t : Tree} (h : t.Respects table) :
    ∀ (position : Nat) (stack : List Pending) (rest : List Token),
      (∀ symbol ∈ t.symbols, ∀ entry, table.find? symbol = some entry →
        stack.takeWhile (Pending.precedes entry) = []) →
      toPostfixFrom table position stack (t.tokens ++ rest) =
        (t.passedOn ++ ·) <$>
          toPostfixFrom table (position + t.tokens.length) (t.waiting table ++ stack) rest := by
  induction t with
  | number value =>
    intro position stack rest _
    rfl
  | group opening closing inner ih =>
    intro position stack rest _
    have hi : inner.Respects table := h
    have hinner : ∀ symbol ∈ inner.symbols, ∀ entry, table.find? symbol = some entry →
        (Pending.opening position :: stack).takeWhile (Pending.precedes entry) = [] :=
      fun _ _ _ _ => rfl
    have hwaiting : ∀ p ∈ inner.waiting table, p.isOperator = true :=
      fun _ => isOperator_of_mem_waiting
    rw [tokens, List.cons_append, List.append_assoc, toPostfixFrom, ih hi _ _ _ hinner]
    simp only [List.singleton_append, toPostfixFrom, List.dropWhile_append_of_pos hwaiting,
      List.takeWhile_append_of_pos hwaiting]
    simp only [List.dropWhile, List.takeWhile, Pending.isOperator, List.append_nil]
    rw [append_map_append, hi.passedOn_append_waiting]
    simp [passedOn, waiting, Nat.add_assoc, Nat.add_comm 1]
  | binary symbol left right ihl ihr =>
    intro position stack rest hstack
    obtain ⟨hl, hr, entry, he, hleads, hwaits⟩ := h
    have hnode : stack.takeWhile (Pending.precedes entry) = [] :=
      hstack symbol (by simp [symbols]) entry he
    -- the operator of the node ends the wait of exactly what the left operand leaves
    have hall : ∀ p ∈ left.waiting table, Pending.precedes entry p = true := by
      intro p hp
      obtain ⟨s, hs, e, he', rfl⟩ := mem_waiting hp
      exact Pending.precedes_operator.mpr (hl.leads_of_mem_symbols hleads hs he')
    have htake : (left.waiting table ++ stack).takeWhile (Pending.precedes entry) =
        left.waiting table := by
      rw [List.takeWhile_append_of_pos hall, hnode, List.append_nil]
    have hdrop : (left.waiting table ++ stack).dropWhile (Pending.precedes entry) = stack := by
      have hsplit : stack.takeWhile (Pending.precedes entry) ++
          stack.dropWhile (Pending.precedes entry) = stack := List.takeWhile_append_dropWhile
      rw [List.dropWhile_append_of_pos hall]
      rwa [hnode, List.nil_append] at hsplit
    -- and then waits through the right operand
    have hright : ∀ s ∈ right.symbols, ∀ e, table.find? s = some e →
        (Pending.operator symbol entry :: stack).takeWhile (Pending.precedes e) = [] := by
      intro s hs e he'
      have hwait : entry.waitsFor e := hr.waitsFor_of_mem_symbols hwaits hs he'
      have hnot : Pending.precedes e (.operator symbol entry) ≠ true := fun hp =>
        Operator.not_leads_iff.mpr hwait (Pending.precedes_operator.mp hp)
      rw [List.takeWhile_cons, if_neg hnot]
    rw [tokens, List.append_assoc, ihl hl _ _ _ fun s hs => hstack s (by simp [symbols, hs]),
      List.cons_append, toPostfixFrom, he]
    simp only [htake, hdrop]
    rw [ihr hr _ _ _ hright, append_map_append, append_map_append, passedOn, waiting, he,
      hl.passedOn_append_waiting]
    simp [Nat.add_assoc, Nat.add_comm 1]

/-- All waiting operators are passed on at the end. -/
theorem flush_waiting (t : Tree) :
    flush (t.waiting table) = .ok ((t.waiting table).map Pending.token) := by
  have all : ∀ stack : List Pending, (∀ p ∈ stack, p.isOperator = true) →
      flush stack = .ok (stack.map Pending.token) := by
    intro stack
    induction stack with
    | nil => intro _; rfl
    | cons p stack ih =>
      intro hstack
      cases p with
      | operator symbol entry =>
        rw [flush, ih fun p hp => hstack p (List.mem_cons_of_mem _ hp)]
        rfl
      | opening position => cases hstack _ (List.mem_cons_self ..)
  exact all _ fun _ => isOperator_of_mem_waiting

theorem Respects.toPostfix_tokens {t : Tree} (h : t.Respects table) :
    toPostfix table t.tokens = .ok t.postorder := by
  have hread := h.toPostfixFrom_tokens_append 0 [] [] fun _ _ _ _ => rfl
  rw [List.append_nil, List.append_nil] at hread
  rw [toPostfix, hread, toPostfixFrom, flush_waiting, ← h.passedOn_append_waiting]
  rfl

/-! ### Evaluating a postorder -/

/-- **A postorder leaves the value of its tree on the stack**, or fails as the tree does. -/
theorem evaluateOn_postorder_append (t : Tree) :
    ∀ (stack : List Binary64) (rest : List Token),
      evaluateOn table stack (t.postorder ++ rest) =
        t.eval table >>= fun value => evaluateOn table (value :: stack) rest := by
  induction t with
  | number value =>
    intro stack rest
    rw [postorder, List.singleton_append, evaluateOn, eval]
    rfl
  | group opening closing inner ih => exact ih
  | binary symbol left right ihl ihr =>
    intro stack rest
    rw [postorder, List.append_assoc, List.append_assoc, ihl, eval]
    simp only [ihr, List.singleton_append, evaluateOn, bind_assoc]
    congr 1
    funext a
    congr 1
    funext b
    cases table.find? symbol with
    | none => rfl
    | some entry =>
      dsimp only
      cases entry.apply a b with
      | error e => rfl
      | ok value => rfl

theorem evaluate_postorder (t : Tree) : evaluate table t.postorder = t.eval table := by
  have h := @evaluateOn_postorder_append table t [] []
  rw [List.append_nil] at h
  rw [evaluate, h]
  cases t.eval table <;> rfl

end Tree

/-! ### Well-formed expressions -/

/-- **A well-formed expression has exactly one tree that respects the table.** Its postfix order is
the postorder of that tree, and evaluating it gives what the tree evaluates to: the same value, or
the same error. -/
theorem existsUnique_tree_of_wellFormed {ts : List Token} (h : WellFormed table ts) :
    ∃ t : Tree, (t.tokens = ts ∧ t.Respects table) ∧
      (∀ u : Tree, u.tokens = ts ∧ u.Respects table → u = t) ∧
      toPostfix table ts = .ok t.postorder ∧ evaluate table t.postorder = t.eval table := by
  obtain ⟨t, rfl, ht⟩ := Tree.exists_respects_of_wellFormed h
  exact ⟨t, ⟨rfl, ht⟩, fun u hu => hu.2.eq_of_tokens_eq ht hu.1, ht.toPostfix_tokens,
    t.evaluate_postorder⟩

/-- Two differences of one precedence that group to different sides. -/
def mixedDifferences : OperatorTable where
  toList := [(['-'], ⟨1, .left, minus⟩), (['~'], ⟨1, .right, minus⟩)]
  nodup := by decide

/-- The chain `8~4-(2~1)`, in which both differences meet. -/
def mixedChain : List Token :=
  [.number (.ofBits 0x4020000000000000), .operator ['~'], .number (.ofBits 0x4010000000000000),
    .operator ['-'], .opening ['('], .number (.ofBits 0x4000000000000000), .operator ['~'],
    .number (.ofBits 0x3ff0000000000000), .closing [')']]

theorem existsUnique_tree_mixedChain :
    WellFormed mixedDifferences mixedChain ∧
      ∃ t : Tree, (t.tokens = mixedChain ∧ t.Respects mixedDifferences) ∧
        (∀ u : Tree, u.tokens = mixedChain ∧ u.Respects mixedDifferences → u = t) ∧
        toPostfix mixedDifferences mixedChain = .ok t.postorder ∧
          evaluate mixedDifferences t.postorder = t.eval mixedDifferences :=
  ⟨by decide, existsUnique_tree_of_wellFormed (by decide)⟩

end Expression

end ChatCalculator
