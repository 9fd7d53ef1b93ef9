import ChatCalculator.Expression.Postfix

/-!
# Well-formed expressions

A well-formed expression is a chain of operands with an operator of the table between any two
neighbours, where an operand is a number or a well-formed expression in parentheses. `Derives`
is that grammar, with one kind of phrase for each of the two notions.

## Reading from left to right

Whether a list of tokens is well-formed can also be seen in one pass, which only has to know
whether an operand has just ended and how many groups are open. `accepts` is that pass. It reads a
phrase without looking at what follows, so a phrase ends where its own tokens say, and it makes
the grammar decidable.

## Main definitions

* `Derives`, `WellFormed`: the grammar of expressions
* `accepts`: the same, read in one pass

## Main results

* `Derives.accepts_append`: a phrase is read on its own, whatever follows
* `wellFormed_iff_accepts`: the pass accepts exactly the well-formed expressions
-/

namespace ChatCalculator

namespace Expression

/-- The kinds of phrases. -/
inductive Phrase
  /-- What an operator can be applied to. -/
  | operand
  /-- A chain of operands with operators between them. -/
  | chain

/-- The grammar of expressions: which lists of tokens are phrases of which kind. -/
inductive Derives (table : OperatorTable) : Phrase → List Token → Prop
  /-- A number is an operand. -/
  | number (value : Binary64) : Derives table .operand [.number value]
  /-- An expression in parentheses is an operand. -/
  | group (opening closing : List Char) {ts : List Token} (inner : Derives table .chain ts) :
      Derives table .operand (.opening opening :: (ts ++ [.closing closing]))
  /-- A single operand is an expression. -/
  | single {us : List Token} (first : Derives table .operand us) : Derives table .chain us
  /-- So is an operand with an operator of the table and an expression behind it. -/
  | link {us ts : List Token} {symbol : List Char} (first : Derives table .operand us)
      (mem : symbol ∈ table.keys) (rest : Derives table .chain ts) :
      Derives table .chain (us ++ .operator symbol :: ts)

/-- The well-formed expressions over a table. -/
abbrev WellFormed (table : OperatorTable) (ts : List Token) : Prop :=
  Derives table .chain ts

/-- Whether the rest of an expression is well-formed, given whether an operand has just ended and
how many groups are open. -/
def accepts (table : OperatorTable) : (afterOperand : Bool) → (depth : Nat) → List Token → Bool
  | true, 0, [] => true
  | false, depth, .number _ :: ts => accepts table true depth ts
  | false, depth, .opening _ :: ts => accepts table false (depth + 1) ts
  | true, depth, .operator symbol :: ts => symbol ∈ table.keys && accepts table false depth ts
  | true, depth + 1, .closing _ :: ts => accepts table true depth ts
  | _, _, _ => false

variable {table : OperatorTable}

/-! ### What the grammar allows is accepted -/

/-- A phrase leaves the depth as it was and ends with an operand. -/
theorem Derives.accepts_append {p : Phrase} {ts : List Token} (h : Derives table p ts) :
    ∀ (depth : Nat) (rest : List Token),
      accepts table false depth (ts ++ rest) = accepts table true depth rest := by
  induction h with
  | number value => intro depth rest; rfl
  | group opening closing _ ih =>
    intro depth rest
    rw [List.cons_append, List.append_assoc, accepts, ih (depth + 1)]
    rfl
  | single _ ih => exact ih
  | @link us ts symbol _ hk _ ihu iht =>
    intro depth rest
    rw [List.append_assoc, ihu, List.cons_append, accepts, iht, decide_eq_true hk, Bool.true_and]

theorem accepts_of_derives {p : Phrase} {ts : List Token} (h : Derives table p ts) :
    accepts table false 0 ts = true := by
  simpa [accepts] using h.accepts_append 0 []

/-! ### What is accepted, the grammar allows -/

/-- What can follow an operand: nothing, the end of the group around it, or an operator. -/
theorem accepts_true_cases {depth : Nat} {ts : List Token}
    (h : accepts table true depth ts = true) :
    (depth = 0 ∧ ts = []) ∨
      (∃ below closing rest, depth = below + 1 ∧ ts = .closing closing :: rest ∧
        accepts table true below rest = true) ∨
      ∃ symbol rest, ts = .operator symbol :: rest ∧ symbol ∈ table.keys ∧
        accepts table false depth rest = true := by
  match depth, ts, h with
  | 0, [], _ => exact .inl ⟨rfl, rfl⟩
  | depth, .operator symbol :: rest, h =>
    rw [accepts, Bool.and_eq_true, decide_eq_true_eq] at h
    exact .inr (.inr ⟨symbol, rest, rfl, h⟩)
  | below + 1, .closing closing :: rest, h =>
    exact .inr (.inl ⟨below, closing, rest, rfl, rfl, h⟩)

/-- What can stand where an operand is expected: a number or the start of a group. -/
theorem accepts_false_cases {depth : Nat} {ts : List Token}
    (h : accepts table false depth ts = true) :
    (∃ value rest, ts = .number value :: rest ∧ accepts table true depth rest = true) ∨
      ∃ opening rest, ts = .opening opening :: rest ∧
        accepts table false (depth + 1) rest = true := by
  match ts, h with
  | .number value :: rest, h => exact .inl ⟨value, rest, rfl, h⟩
  | .opening opening :: rest, h => exact .inr ⟨opening, rest, rfl, h⟩

/-- The tokens behind an expression: none outside all groups, and otherwise the end of the group
that it stands in, followed by tokens that are accepted. -/
def Closes (table : OperatorTable) (depth : Nat) (rest : List Token) : Prop :=
  (depth = 0 ∧ rest = []) ∨
    ∃ below closing after, depth = below + 1 ∧ rest = .closing closing :: after ∧
      accepts table true below after = true

/-- The pass reads an expression up to the end of the group that it stands in. The induction is
on the number of tokens, since a group and what follows it are both read by it. -/
theorem exists_wellFormed_of_accepts (n : Nat) : ∀ {depth : Nat} {ts : List Token},
    ts.length ≤ n → accepts table false depth ts = true →
      ∃ inner rest, ts = inner ++ rest ∧ WellFormed table inner ∧ Closes table depth rest := by
  induction n with
  | zero =>
    intro depth ts hn h
    rw [List.eq_nil_of_length_eq_zero (Nat.le_zero.mp hn)] at h
    cases h
  | succ n ih =>
    intro depth ts hn h
    -- an operand at the start, with what the pass makes of the tokens behind it
    obtain ⟨us, after, rfl, hu, ha⟩ : ∃ us after, ts = us ++ after ∧
        Derives table .operand us ∧ accepts table true depth after = true := by
      rcases accepts_false_cases h with ⟨value, rest, rfl, hr⟩ | ⟨opening, rest, rfl, hr⟩
      · exact ⟨[.number value], rest, rfl, .number value, hr⟩
      · obtain ⟨inner, rest, rfl, hi, hc⟩ := ih (Nat.le_of_succ_le_succ hn) hr
        rcases hc with ⟨hd, -⟩ | ⟨below, closing, after, hd, rfl, ha⟩
        · cases hd
        · cases hd
          exact ⟨_, after, by simp, .group opening closing hi, ha⟩
    have hpos : 0 < us.length := by cases hu <;> simp
    rcases accepts_true_cases ha with ⟨hd, rfl⟩ | hc | ⟨symbol, rest, rfl, hk, hr⟩
    · exact ⟨us, [], rfl, .single hu, .inl ⟨hd, rfl⟩⟩
    · exact ⟨us, after, rfl, .single hu, .inr hc⟩
    · have hlen : rest.length ≤ n := by
        simp only [List.length_append, List.length_cons] at hn
        omega
      obtain ⟨inner, rest, rfl, hi, hc⟩ := ih hlen hr
      exact ⟨us ++ .operator symbol :: inner, rest, by simp, .link hu hk hi, hc⟩

/-- **The grammar, read in one pass.** -/
theorem wellFormed_iff_accepts {ts : List Token} :
    WellFormed table ts ↔ accepts table false 0 ts = true := by
  constructor
  · exact accepts_of_derives
  · intro h
    obtain ⟨inner, rest, rfl, hi, hc⟩ := exists_wellFormed_of_accepts _ (Nat.le_refl _) h
    rcases hc with ⟨-, rfl⟩ | ⟨below, _, _, hd, -⟩
    · rwa [List.append_nil]
    · cases hd

instance (ts : List Token) : Decidable (WellFormed table ts) :=
  decidable_of_iff _ wellFormed_iff_accepts.symm

end Expression

end ChatCalculator
