import ChatCalculator.Expression.Evaluation
import ChatCalculator.Proofs.Expression.Grammar

/-!
# Expression trees

A `Tree` is an expression with its structure: which operator is applied to which operands, and
where the parentheses stand. Its tokens are the expression as it is written, and its postorder is
the order in which its parts are computed.

A table of operators says how an expression is to be read. Of two neighbouring operators either
the first one takes the operand between them (`Operator.leads`) or it waits for the second
(`Operator.waitsFor`), and a tree respects the table if all its nodes are arranged that way.

## The distinction that decides it

Whether a tree respects a table is a condition on a node and its two children. What reading and
uniqueness need is a condition on a node and *every* operator below it outside parentheses. The
two agree: operators further down bind at least as tight (`Respects.leads_of_mem_symbols` and
`Respects.waitsFor_of_mem_symbols`), whatever mixture of precedences and sides the table has.

## Main definitions

* `Tree`, `Tree.tokens`, `Tree.postorder`, `Tree.eval`: a tree and what it stands for
* `Tree.Respects`: a tree arranged as a table demands
* `Tree.symbols`: the operators of a tree outside parentheses

## Main results

* `Tree.exists_respects_of_wellFormed`: every well-formed expression has a tree
* `Tree.Respects.eq_of_tokens_eq`: and only one that respects the table
-/

namespace ChatCalculator

namespace Expression

/-! ### Neighbouring operators -/

namespace Operator

/-- Of two neighbouring operators, the first one takes the operand between them: it binds
tighter, or equally tight while the second one groups to the left. -/
def leads (first second : Operator) : Prop :=
  second.precedence < first.precedence ∨
    first.precedence = second.precedence ∧ second.associativity = .left

/-- Of two neighbouring operators, the second one takes the operand between them: it binds
tighter, or equally tight without grouping to the left. -/
def waitsFor (first second : Operator) : Prop :=
  first.precedence < second.precedence ∨
    second.precedence = first.precedence ∧ second.associativity ≠ .left

theorem not_leads_iff {first second : Operator} :
    ¬ first.leads second ↔ first.waitsFor second := by
  unfold leads waitsFor
  by_cases h : second.associativity = .left <;> simp [h] <;> omega

/-- An operator that binds tighter leads wherever a looser one does. -/
theorem leads.mono {loose tight next : Operator} (h : loose.leads next)
    (hp : loose.precedence ≤ tight.precedence) : tight.leads next := by
  rcases h with h | ⟨h, hl⟩
  · exact .inl (by omega)
  · rcases Int.lt_or_eq_of_le hp with ht | ht
    · exact .inl (by omega)
    · exact .inr ⟨by omega, hl⟩

theorem waitsFor.trans {first second third : Operator} (h : first.waitsFor second)
    (h' : second.waitsFor third) : first.waitsFor third := by
  rcases h with h | ⟨h, -⟩ <;> rcases h' with h' | ⟨h', hl⟩
  · exact .inl (by omega)
  · exact .inl (by omega)
  · exact .inl (by omega)
  · exact .inr ⟨by omega, hl⟩

/-- If one operator waits for a second, it also waits for all that lead the second. -/
theorem waitsFor.of_leads {first second third : Operator} (h : first.waitsFor second)
    (h' : third.leads second) : first.waitsFor third := by
  rcases h with h | ⟨h, hl⟩ <;> rcases h' with h' | ⟨h', hl'⟩
  · exact .inl (by omega)
  · exact .inl (by omega)
  · exact .inl (by omega)
  · exact absurd hl' hl

end Operator

/-! ### Trees -/

/-- An expression with its structure. -/
inductive Tree
  /-- A number. -/
  | number (value : Binary64)
  /-- An expression in parentheses. -/
  | group (opening closing : List Char) (inner : Tree)
  /-- An operator with its left and its right operand. -/
  | binary (symbol : List Char) (left right : Tree)

namespace Tree

/-- The expression as it is written. -/
def tokens : Tree → List Token
  | number value => [.number value]
  | group opening closing inner => .opening opening :: (inner.tokens ++ [.closing closing])
  | binary symbol left right => left.tokens ++ .operator symbol :: right.tokens

/-- The numbers and operators of the expression, every operator behind its operands. -/
def postorder : Tree → List Token
  | number value => [.number value]
  | group _ _ inner => inner.postorder
  | binary symbol left right => left.postorder ++ (right.postorder ++ [.operator symbol])

/-- The value of the expression: that of the left operand first, then that of the right one, and
then the operation. -/
def eval (table : OperatorTable) : Tree → Except Error Binary64
  | number value => .ok value
  | group _ _ inner => inner.eval table
  | binary symbol left right => do
    let a ← left.eval table
    let b ← right.eval table
    match table.find? symbol with
    | none => .error (.of (.unknownOperator symbol))
    | some entry => entry.apply a b

/-- The operator that is applied last, if it does not stand in parentheses. -/
def root? (table : OperatorTable) : Tree → Option Operator
  | binary symbol _ _ => table.find? symbol
  | _ => none

/-- Whether a tree is arranged as a table demands: an operator that is the left operand of
another one leads it, and one that is the right operand is waited for. -/
def Respects (table : OperatorTable) : Tree → Prop
  | number _ => True
  | group _ _ inner => inner.Respects table
  | binary symbol left right =>
    left.Respects table ∧ right.Respects table ∧
      ∃ entry, table.find? symbol = some entry ∧
        (∀ l ∈ left.root? table, l.leads entry) ∧ ∀ r ∈ right.root? table, entry.waitsFor r

/-- The operators outside parentheses, from left to right. -/
def symbols : Tree → List (List Char)
  | binary symbol left right => left.symbols ++ symbol :: right.symbols
  | _ => []

variable {table : OperatorTable}

/-! ### Operators further down -/

/-- The root binds least tight. -/
theorem Respects.precedence_le {t : Tree} (h : t.Respects table) {symbol : List Char}
    (hs : symbol ∈ t.symbols) {entry : Operator} (he : table.find? symbol = some entry) :
    ∃ root, t.root? table = some root ∧ root.precedence ≤ entry.precedence := by
  induction t with
  | number value => cases hs
  | group opening closing inner ih => cases hs
  | binary top left right ihl ihr =>
    obtain ⟨hl, hr, root, hroot, hleads, hwaits⟩ := h
    refine ⟨root, hroot, ?_⟩
    rw [symbols, List.mem_append, List.mem_cons] at hs
    rcases hs with hs | rfl | hs
    · obtain ⟨l, hl', hle⟩ := ihl hl hs
      have := hleads l hl'
      unfold Operator.leads at this
      omega
    · rw [hroot] at he
      cases he
      exact Int.le_refl _
    · obtain ⟨r, hr', hle⟩ := ihr hr hs
      have := hwaits r hr'
      unfold Operator.waitsFor at this
      omega

/-- What holds of the left child of a node holds of all operators on that side. -/
theorem Respects.leads_of_mem_symbols {t : Tree} (h : t.Respects table) {next : Operator}
    (hn : ∀ root ∈ t.root? table, root.leads next) {symbol : List Char} (hs : symbol ∈ t.symbols)
    {entry : Operator} (he : table.find? symbol = some entry) : entry.leads next := by
  obtain ⟨root, hroot, hle⟩ := h.precedence_le hs he
  exact (hn root hroot).mono hle

/-- What holds of the right child of a node holds of all operators on that side. -/
theorem Respects.waitsFor_of_mem_symbols {t : Tree} (h : t.Respects table) {first : Operator}
    (hf : ∀ root ∈ t.root? table, first.waitsFor root) {symbol : List Char}
    (hs : symbol ∈ t.symbols) {entry : Operator} (he : table.find? symbol = some entry) :
    first.waitsFor entry := by
  induction t with
  | number value => cases hs
  | group opening closing inner ih => cases hs
  | binary top left right ihl ihr =>
    obtain ⟨hl, hr, root, hroot, hleads, hwaits⟩ := h
    have hfirst : first.waitsFor root := hf root hroot
    rw [symbols, List.mem_append, List.mem_cons] at hs
    rcases hs with hs | rfl | hs
    · exact ihl hl (fun l hl' => hfirst.of_leads (hleads l hl')) hs
    · rw [hroot] at he
      cases he
      exact hfirst
    · exact ihr hr (fun r hr' => hfirst.trans (hwaits r hr')) hs

/-! ### A tree for every well-formed expression -/

/-- An operand and an operator can be put in front of a tree: they go down its left side to where
the new operator leads no further. Nothing but the leftmost operand changes, so the root of the
tree stays, or the new operator becomes the root. -/
theorem exists_link {operand : Tree} (ho : operand.Respects table)
    (hroot : operand.root? table = none) {symbol : List Char} {entry : Operator}
    (he : table.find? symbol = some entry) {t : Tree} (h : t.Respects table) :
    ∃ u : Tree, u.tokens = operand.tokens ++ .operator symbol :: t.tokens ∧ u.Respects table ∧
      (u.root? table = some entry ∨ u.root? table = t.root? table) := by
  -- the new operator as root, which is right unless it leads the root of the tree
  have top : ∀ v : Tree, v.Respects table → (∀ root ∈ v.root? table, entry.waitsFor root) →
      (binary symbol operand v).Respects table := by
    intro v hv hw
    exact ⟨ho, hv, entry, he, by simp [hroot], hw⟩
  induction t with
  | number value => exact ⟨binary symbol operand _, rfl, top _ h (by simp [root?]), .inl he⟩
  | group opening closing inner ih =>
    exact ⟨binary symbol operand _, rfl, top _ h (by simp [root?]), .inl he⟩
  | binary next left right ihl ihr =>
    have hnode := h
    obtain ⟨hl, hr, root, hnext, hleads, hwaits⟩ := h
    by_cases hlead : entry.leads root
    · obtain ⟨l, htokens, hl', hroot'⟩ := ihl hl
      refine ⟨binary next l right, by simp [tokens, htokens], ⟨hl', hr, root, hnext, ?_, hwaits⟩,
        .inr rfl⟩
      intro q hq
      rcases hroot' with h' | h'
      · rw [h'] at hq
        cases hq
        exact hlead
      · rw [h'] at hq
        exact hleads q hq
    · refine ⟨binary symbol operand (binary next left right), rfl, top _ hnode ?_, .inl he⟩
      intro q hq
      rw [root?, hnext] at hq
      cases hq
      exact Operator.not_leads_iff.mp hlead

/-- Whatever the grammar derives has a tree that respects the table; the tree of an operand has no
operator as root. -/
theorem exists_respects_of_derives {p : Phrase} {ts : List Token} (h : Derives table p ts) :
    ∃ t : Tree, t.tokens = ts ∧ t.Respects table ∧ (p = .operand → t.root? table = none) := by
  induction h with
  | number value => exact ⟨number value, rfl, trivial, fun _ => rfl⟩
  | group opening closing _ ih =>
    obtain ⟨t, rfl, ht, -⟩ := ih
    exact ⟨group opening closing t, rfl, ht, fun _ => rfl⟩
  | single _ ih =>
    obtain ⟨t, rfl, ht, -⟩ := ih
    exact ⟨t, rfl, ht, fun hp => Phrase.noConfusion hp⟩
  | @link us ts symbol _ hk _ ihu iht =>
    obtain ⟨u, rfl, hu, hroot⟩ := ihu
    obtain ⟨t, rfl, ht, -⟩ := iht
    obtain ⟨entry, he⟩ : ∃ entry, table.find? symbol = some entry := by
      rw [← Option.ne_none_iff_exists']
      exact fun hnone => Registry.find?_eq_none_iff.mp hnone hk
    obtain ⟨v, hv, hrespects, -⟩ := exists_link hu (hroot rfl) he ht
    exact ⟨v, hv, hrespects, fun hp => Phrase.noConfusion hp⟩

theorem exists_respects_of_wellFormed {ts : List Token} (h : WellFormed table ts) :
    ∃ t : Tree, t.tokens = ts ∧ t.Respects table := by
  obtain ⟨t, htokens, ht, -⟩ := exists_respects_of_derives h
  exact ⟨t, htokens, ht⟩

/-! ### Only one tree -/

/-- The operators outside parentheses, given how many parentheses are open. -/
def outerSymbols : (depth : Nat) → List Token → List (List Char)
  | _, [] => []
  | depth, .opening _ :: ts => outerSymbols (depth + 1) ts
  | depth, .closing _ :: ts => outerSymbols (depth - 1) ts
  | 0, .operator symbol :: ts => symbol :: outerSymbols 0 ts
  | depth, _ :: ts => outerSymbols depth ts

/-- The operators of a tree outside parentheses can be found among its tokens. -/
theorem outerSymbols_tokens_append (t : Tree) : ∀ (depth : Nat) (rest : List Token),
    outerSymbols depth (t.tokens ++ rest) =
      (if depth = 0 then t.symbols else []) ++ outerSymbols depth rest := by
  induction t with
  | number value => intro depth rest; cases depth <;> rfl
  | group opening closing inner ih =>
    intro depth rest
    rw [tokens, List.cons_append, List.append_assoc, outerSymbols, ih (depth + 1)]
    simp [symbols, outerSymbols]
  | binary symbol left right ihl ihr =>
    intro depth rest
    rw [tokens, List.append_assoc, ihl, List.cons_append]
    cases depth with
    | zero => simp [outerSymbols, ihr, symbols]
    | succ depth => simp [outerSymbols, ihr]

theorem outerSymbols_tokens (t : Tree) : outerSymbols 0 t.tokens = t.symbols := by
  simpa [outerSymbols] using outerSymbols_tokens_append t 0 []

/-- Two trees with the same tokens cannot have their roots at different places. The root of the
first would be an operator in the right operand of the second, so the second root waits for it;
and the second root would be one in the left operand of the first, so it leads the first. -/
theorem not_root_before {s₁ s₂ : List Char} {l₁ r₁ l₂ r₂ : Tree} {between : List Token}
    (h₁ : (binary s₁ l₁ r₁).Respects table) (h₂ : (binary s₂ l₂ r₂).Respects table)
    (hl : l₁.tokens = l₂.tokens ++ .operator s₂ :: between)
    (hr : r₂.tokens = between ++ .operator s₁ :: r₁.tokens) : False := by
  have hsymbols : (binary s₁ l₁ r₁).symbols = (binary s₂ l₂ r₂).symbols := by
    rw [← outerSymbols_tokens, ← outerSymbols_tokens]
    simp [tokens, hl, hr]
  have hleft : l₁.symbols = l₂.symbols ++ s₂ :: outerSymbols 0 between := by
    rw [← outerSymbols_tokens l₁, hl, outerSymbols_tokens_append]
    simp [outerSymbols]
  have hright : r₂.symbols = outerSymbols 0 between ++ s₁ :: r₁.symbols := by
    simpa [symbols, hleft] using hsymbols.symm
  obtain ⟨hl₁, -, e₁, he₁, hleads, -⟩ := h₁
  obtain ⟨-, hr₂, e₂, he₂, -, hwaits⟩ := h₂
  have hlead : e₂.leads e₁ := hl₁.leads_of_mem_symbols hleads (by simp [hleft]) he₂
  have hwait : e₂.waitsFor e₁ := hr₂.waitsFor_of_mem_symbols hwaits (by simp [hright]) he₁
  exact Operator.not_leads_iff.mpr hwait hlead

theorem symbols_eq_of_tokens_eq {t u : Tree} (h : t.tokens = u.tokens) :
    t.symbols = u.symbols := by
  rw [← outerSymbols_tokens, ← outerSymbols_tokens, h]

/-- **A tree that respects the table is determined by its tokens.** -/
theorem Respects.eq_of_tokens_eq {t u : Tree} (ht : t.Respects table) (hu : u.Respects table)
    (h : t.tokens = u.tokens) : t = u := by
  have hsymbols := symbols_eq_of_tokens_eq h
  induction t generalizing u with
  | number value =>
    cases u with
    | number other => simpa [tokens] using h
    | group opening closing inner => simp [tokens] at h
    | binary symbol left right => simp [symbols] at hsymbols
  | group opening closing inner ih =>
    cases u with
    | number other => simp [tokens] at h
    | group opening' closing' inner' =>
      have hu' : inner'.Respects table := hu
      rw [tokens, tokens, List.cons.injEq] at h
      obtain ⟨hinner, hclosing⟩ := List.append_inj' h.2 rfl
      obtain rfl : opening = opening' := by simpa using h.1
      obtain rfl : closing = closing' := by simpa using hclosing
      rw [ih ht hu' hinner (symbols_eq_of_tokens_eq hinner)]
    | binary symbol left right => simp [symbols] at hsymbols
  | binary symbol left right ihl ihr =>
    cases u with
    | number other => simp [symbols] at hsymbols
    | group opening closing inner => simp [symbols] at hsymbols
    | binary symbol' left' right' =>
      have same : left.tokens = left'.tokens →
          Token.operator symbol :: right.tokens = .operator symbol' :: right'.tokens →
            binary symbol left right = binary symbol' left' right' := by
        intro hl hr
        obtain ⟨hs, hright⟩ := List.cons.inj hr
        obtain rfl : symbol = symbol' := by simpa using hs
        rw [ihl ht.1 hu.1 hl (symbols_eq_of_tokens_eq hl),
          ihr ht.2.1 hu.2.1 hright (symbols_eq_of_tokens_eq hright)]
      rw [tokens, tokens, List.append_eq_append_iff] at h
      rcases h with ⟨between, hl, hr⟩ | ⟨between, hl, hr⟩ <;>
        rcases List.cons_eq_append_iff.mp hr with ⟨rfl, hr'⟩ | ⟨rest, rfl, hr'⟩
      · exact same (by simpa using hl.symm) hr'.symm
      · exact (not_root_before hu ht hl hr').elim
      · exact same (by simpa using hl) hr'
      · exact (not_root_before ht hu hl hr').elim

end Tree

end Expression

end ChatCalculator
