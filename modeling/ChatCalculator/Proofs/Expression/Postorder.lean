import ChatCalculator.Proofs.Expression.Acceptance

/-!
# Postorder, read back

A list of tokens is the postorder of at most one tree without parentheses, and evaluating the list
is evaluating that tree. What is evaluated need not come from an expression here: any list of
tokens is allowed, with operators that are not in the table and with tokens of any kind.

## Why there is only one tree

Postorder has no parentheses, and yet nothing is lost, because an operator takes exactly the two
trees that were completed last. Reading a list with a stack of completed trees undoes the
postorder of any tree, whatever was completed before it and whatever follows
(`Tree.Plain.readPostorder?_append`).

## Main definitions

* `Tree.Plain`: a tree without parentheses, with operators of a table
* `Tree.bare`: a tree with its parentheses dropped
* `readPostorder?`: the trees that a list of tokens stands for
* `Tree.operations`: the parts of a tree that apply an operator, in postorder
* `Tree.FirstError`: the error of the first operation that fails

## Main results

* `Tree.Plain.eq_of_postorder_eq`: a plain tree is determined by its postorder
* `Tree.firstError_of_eval`: what is reported of a tree that has no value
* `evaluate_reads_postorder`: which lists have a value, and what is reported of the others
-/

namespace ChatCalculator

namespace Expression

variable {table : OperatorTable}

namespace Tree

/-- A tree without parentheses, all of whose operators are in a table. -/
def Plain (table : OperatorTable) : Tree → Prop
  | number _ => True
  | group _ _ _ => False
  | binary symbol left right => symbol ∈ table.keys ∧ left.Plain table ∧ right.Plain table

instance decidablePlain (table : OperatorTable) : ∀ t : Tree, Decidable (t.Plain table)
  | number _ => .isTrue trivial
  | group _ _ _ => .isFalse id
  | binary symbol left right =>
    have := decidablePlain table left
    have := decidablePlain table right
    inferInstanceAs (Decidable (symbol ∈ table.keys ∧ left.Plain table ∧ right.Plain table))

/-- The same tree without its parentheses. -/
def bare : Tree → Tree
  | number value => number value
  | group _ _ inner => inner.bare
  | binary symbol left right => binary symbol left.bare right.bare

theorem postorder_bare (t : Tree) : t.bare.postorder = t.postorder := by
  induction t with
  | number value => rfl
  | group opening closing inner ih => exact ih
  | binary symbol left right ihl ihr => rw [bare, postorder, postorder, ihl, ihr]

theorem eval_bare (t : Tree) : t.bare.eval table = t.eval table := by
  induction t with
  | number value => rfl
  | group opening closing inner ih => exact ih
  | binary symbol left right ihl ihr => rw [bare, eval, eval, ihl, ihr]

/-- What an operation with a value is made of. -/
theorem eval_binary_eq_ok {symbol : List Char} {left right : Tree} {value : Binary64}
    (h : (binary symbol left right).eval table = .ok value) :
    ∃ a b entry, left.eval table = .ok a ∧ right.eval table = .ok b ∧
      table.find? symbol = some entry ∧ entry.apply a b = .ok value := by
  rw [eval] at h
  obtain ⟨a, ha, h⟩ := bind_eq_ok_iff.mp h
  obtain ⟨b, hb, h⟩ := bind_eq_ok_iff.mp h
  cases he : table.find? symbol with
  | none =>
    rw [he] at h
    cases h
  | some entry =>
    rw [he] at h
    exact ⟨a, b, entry, ha, hb, rfl, h⟩

/-- All operators of a tree that has a value are in the table. -/
theorem plain_bare_of_eval {t : Tree} {value : Binary64} (h : t.eval table = .ok value) :
    t.bare.Plain table := by
  induction t generalizing value with
  | number value => trivial
  | group opening closing inner ih => exact ih h
  | binary symbol left right ihl ihr =>
    obtain ⟨a, b, entry, ha, hb, he, -⟩ := eval_binary_eq_ok h
    exact ⟨Registry.mem_keys_of_find?_eq_some he, ihl ha, ihr hb⟩

end Tree

/-! ### Reading a postorder back -/

/-- The trees that a list of tokens stands for, given those completed before it; the one completed
last comes first. -/
def readPostorder? : (completed : List Tree) → List Token → Option (List Tree)
  | completed, [] => some completed
  | completed, .number value :: ts => readPostorder? (.number value :: completed) ts
  | right :: left :: completed, .operator symbol :: ts =>
    readPostorder? (.binary symbol left right :: completed) ts
  | _, _ => none

namespace Tree

/-- **A plain tree is read back from its postorder**, whatever was completed before it and whatever
follows. -/
theorem Plain.readPostorder?_append {t : Tree} (h : t.Plain table) :
    ∀ (completed : List Tree) (rest : List Token),
      readPostorder? completed (t.postorder ++ rest) = readPostorder? (t :: completed) rest := by
  induction t with
  | number value =>
    intro completed rest
    rw [postorder, List.singleton_append, readPostorder?]
  | group opening closing inner ih => exact h.elim
  | binary symbol left right ihl ihr =>
    intro completed rest
    obtain ⟨-, hl, hr⟩ := h
    rw [postorder, List.append_assoc, List.append_assoc, ihl hl, ihr hr, List.singleton_append,
      readPostorder?]

theorem Plain.readPostorder?_postorder {t : Tree} (h : t.Plain table) :
    readPostorder? [] t.postorder = some [t] := by
  have hread := h.readPostorder?_append [] []
  rwa [List.append_nil, readPostorder?] at hread

/-- **A plain tree is determined by its postorder.** -/
theorem Plain.eq_of_postorder_eq {t u : Tree} (ht : t.Plain table) (hu : u.Plain table)
    (h : t.postorder = u.postorder) : t = u := by
  have hread := ht.readPostorder?_postorder
  rw [h, hu.readPostorder?_postorder] at hread
  simpa using hread.symm

/-! ### The first operation that fails -/

/-- The parts of a tree that apply an operator, in postorder. -/
def operations : Tree → List Tree
  | number _ => []
  | group _ _ inner => inner.operations
  | binary symbol left right =>
    left.operations ++ (right.operations ++ [binary symbol left right])

/-- The operands of an operation have values, and its function refuses them. -/
inductive Refused (table : OperatorTable) (e : Error) : Tree → Prop
  /-- The function of the operator is given the left operand first. -/
  | apply {symbol : List Char} {left right : Tree} {entry : Operator} {a b : Binary64}
      (hentry : table.find? symbol = some entry) (hleft : left.eval table = .ok a)
      (hright : right.eval table = .ok b) (hfails : entry.apply a b = .error e) :
      Refused table e (binary symbol left right)

/-- The error of the first operation, in postorder, that fails: all operations before it have a
value, and its own function refuses the values of its operands. -/
def FirstError (table : OperatorTable) (t : Tree) (e : Error) : Prop :=
  ∃ before failing after, t.operations = before ++ failing :: after ∧
    (∀ u ∈ before, ∃ value, u.eval table = .ok value) ∧ failing.Refused table e

/-- What a tree with a value is made of has values. -/
theorem exists_eval_of_mem_operations {t u : Tree} {value : Binary64}
    (h : t.eval table = .ok value) (hu : u ∈ t.operations) :
    ∃ value, u.eval table = .ok value := by
  induction t generalizing value with
  | number value => cases hu
  | group opening closing inner ih => exact ih h hu
  | binary symbol left right ihl ihr =>
    obtain ⟨a, b, entry, ha, hb, -, -⟩ := eval_binary_eq_ok h
    rw [operations, List.mem_append, List.mem_append, List.mem_singleton] at hu
    rcases hu with hu | hu | rfl
    · exact ihl ha hu
    · exact ihr hb hu
    · exact ⟨value, h⟩

/-- **A tree without value has an operation that fails first**, and its error is reported. -/
theorem firstError_of_eval {t : Tree} (ht : t.Plain table) {e : Error}
    (h : t.eval table = .error e) : t.FirstError table e := by
  induction t with
  | number value => cases h
  | group opening closing inner ih => exact ht.elim
  | binary symbol left right ihl ihr =>
    obtain ⟨hsymbol, hl, hr⟩ := ht
    rw [eval] at h
    rcases bind_eq_error_iff.mp h with ha | ⟨a, ha, h⟩
    · obtain ⟨before, failing, after, hsplit, hbefore, hfailing⟩ := ihl hl ha
      exact ⟨before, failing, after ++ (right.operations ++ [binary symbol left right]),
        by simp [operations, hsplit], hbefore, hfailing⟩
    · have hleft : ∀ u ∈ left.operations, ∃ value, u.eval table = .ok value :=
        fun u hu => exists_eval_of_mem_operations ha hu
      rcases bind_eq_error_iff.mp h with hb | ⟨b, hb, h⟩
      · obtain ⟨before, failing, after, hsplit, hbefore, hfailing⟩ := ihr hr hb
        exact ⟨left.operations ++ before, failing, after ++ [binary symbol left right],
          by simp [operations, hsplit], List.forall_mem_append.mpr ⟨hleft, hbefore⟩, hfailing⟩
      · have hright : ∀ u ∈ right.operations, ∃ value, u.eval table = .ok value :=
          fun u hu => exists_eval_of_mem_operations hb hu
        obtain ⟨entry, hentry⟩ := Registry.exists_find?_of_mem_keys hsymbol
        rw [hentry] at h
        exact ⟨left.operations ++ right.operations, _, [], by simp [operations],
          List.forall_mem_append.mpr ⟨hleft, hright⟩, .apply hentry ha hb h⟩

end Tree

/-! ### Evaluating any list of tokens -/

/-- **Which lists of tokens have a value.** They are the postorders of the plain trees that have
one, and the value is that of the tree. A list is the postorder of one plain tree at most; if the
tree has no value, what is reported is the error of its first operation, in postorder, that fails.
Any other list is refused. -/
theorem evaluate_reads_postorder (table : OperatorTable) (ts : List Token) :
    (∀ value, evaluate table ts = .ok value ↔
      ∃ t : Tree, t.Plain table ∧ t.postorder = ts ∧ t.eval table = .ok value) ∧
    (∀ t : Tree, t.Plain table → t.postorder = ts →
      (∀ u : Tree, u.Plain table → u.postorder = ts → u = t) ∧
        ((∃ value, t.eval table = .ok value ∧ evaluate table ts = .ok value) ∨
          ∃ e, t.FirstError table e ∧ evaluate table ts = .error e)) ∧
    ((∀ t : Tree, t.Plain table → t.postorder ≠ ts) →
      ∃ e, evaluate table ts = .error e) := by
  have hvalue : ∀ value, evaluate table ts = .ok value ↔
      ∃ t : Tree, t.Plain table ∧ t.postorder = ts ∧ t.eval table = .ok value := by
    intro value
    rw [evaluate_eq_ok_iff]
    constructor
    · rintro ⟨t, ht, hv⟩
      exact ⟨t.bare, Tree.plain_bare_of_eval hv, by rw [t.postorder_bare, ht],
        by rw [t.eval_bare, hv]⟩
    · rintro ⟨t, -, ht, hv⟩
      exact ⟨t, ht, hv⟩
  refine ⟨hvalue, fun t hplain ht => ⟨fun u hu hut => ?_, ?_⟩, fun hnone => ?_⟩
  · exact hu.eq_of_postorder_eq hplain (hut.trans ht.symm)
  · rw [← ht, t.evaluate_postorder]
    cases hv : t.eval table with
    | ok value => exact .inl ⟨value, rfl, rfl⟩
    | error e => exact .inr ⟨e, Tree.firstError_of_eval hplain hv, rfl⟩
  · cases hv : evaluate table ts with
    | error e => exact ⟨e, rfl⟩
    | ok value =>
      obtain ⟨t, hplain, ht, -⟩ := (hvalue value).mp hv
      exact absurd ht (hnone t hplain)

/-- `8 4 -` has a value, of `8 4 0 / -` the quotient is refused, and `8 +` is no postorder. -/
theorem evaluate_reads_postorder_eight :
    let eight : Binary64 := .ofBits 0x4020000000000000
    let four : Binary64 := .ofBits 0x4010000000000000
    let t : Tree := .binary ['-'] (.number eight) (.binary ['/'] (.number four) (.number .zero))
    evaluate standardOperators [.number eight, .number four, .operator ['-']] = .ok four ∧
      (t.postorder = [.number eight, .number four, .number .zero, .operator ['/'],
          .operator ['-']] ∧
        (∀ u : Tree, u.Plain standardOperators → u.postorder = t.postorder → u = t) ∧
        t.FirstError standardOperators (.of .divisionByZero) ∧
        evaluate standardOperators t.postorder = .error (.of .divisionByZero)) ∧
      ∃ e, evaluate standardOperators [.number eight, .operator ['+']] = .error e := by
  intro eight four t
  have herror : t.eval standardOperators = .error (.of .divisionByZero) := by decide +kernel
  have hplain : t.Plain standardOperators := by decide
  refine ⟨?_, ⟨rfl, ?_⟩, ?_⟩
  · refine ((evaluate_reads_postorder standardOperators _).1 four).mpr
      ⟨.binary ['-'] (.number eight) (.number four), by decide, rfl, by decide +kernel⟩
  · obtain ⟨hunique, ⟨value, hv, -⟩ | ⟨e, hfirst, hevaluate⟩⟩ :=
      (evaluate_reads_postorder standardOperators t.postorder).2.1 t hplain rfl
    · rw [herror] at hv
      cases hv
    · have hsame : evaluate standardOperators t.postorder = t.eval standardOperators :=
        t.evaluate_postorder
      rw [hevaluate, herror] at hsame
      cases hsame
      exact ⟨hunique, hfirst, hevaluate⟩
  · refine (evaluate_reads_postorder standardOperators _).2.2 fun u hu hpostorder => ?_
    have hread := hu.readPostorder?_postorder
    rw [hpostorder] at hread
    cases hread

end Expression

end ChatCalculator
