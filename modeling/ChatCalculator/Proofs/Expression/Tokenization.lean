import ChatCalculator.Expression.Token
import ChatCalculator.Proofs.Expression.Counting
import ChatCalculator.Proofs.Outcome

/-!
# The tokens of an expression

An expression has tokens if cutting it leaves nothing and there is more in it than blanks. The
symbols that it is cut into are symbols of the table, and splitting a sign off a numeral can add
only the minus sign to them; so all tokens are known, if the table has that operator.

## Main results

* `Lexeme.first?_cases`: what the first piece of a text can be
* `Lexeme.scan_append`, `Lexeme.scan_induction`: cutting goes on behind the first piece
* `tokenize_cases`: when an expression has tokens, and what is reported otherwise
* `known_of_tokenize`: the tokens of an expression are known
-/

namespace ChatCalculator

namespace Expression

/-! ### Pieces -/

namespace Lexeme

/-- What the first piece of a text can be, in the order in which the kinds are tried. -/
theorem first?_cases {symbols : List (List Char)} {cs : List Char} {l : Lexeme}
    (h : first? symbols cs = some l) :
    l = .blank (cs.takeWhile isBlank) ∨ (∃ n, Numeral.scan? cs = some n ∧ l = .numeral n) ∨
      (∃ symbol, (symbol = [] ∨ symbol ∈ symbols) ∧ l = .operator symbol) ∨
        l = .opening ∨ l = .closing := by
  simp only [first?, Option.orElse_eq_orElse, Option.orElse_eq_or, Option.or_eq_some_iff] at h
  rcases h with h | ⟨-, h | ⟨-, h | ⟨-, h⟩⟩⟩
  · rw [blank?] at h
    split at h
    · cases h
    · rename_i c blanks hb
      exact .inl (by rw [hb]; exact (Option.some.inj h).symm)
  · obtain ⟨n, hn, rfl⟩ := Option.map_eq_some_iff.mp h
    exact .inr (.inl ⟨n, hn, rfl⟩)
  · rw [symbol?] at h
    split at h
    · exact .inr (.inr (.inl ⟨[], .inl rfl, (Option.some.inj h).symm⟩))
    · obtain ⟨symbol, hs, rfl⟩ := Option.map_eq_some_iff.mp h
      exact .inr (.inr (.inl ⟨symbol, .inr (List.mem_of_find?_eq_some hs), rfl⟩))
  · unfold parenthesis? at h
    split at h
    · exact .inr (.inr (.inr (.inl (Option.some.inj h).symm)))
    · exact .inr (.inr (.inr (.inr (Option.some.inj h).symm)))
    · cases h

theorem isBlank_of_first? {symbols : List (List Char)} {cs blanks : List Char}
    (h : first? symbols cs = some (.blank blanks)) : ∀ c ∈ blanks, isBlank c = true := by
  rcases first?_cases h with h | ⟨n, -, h⟩ | ⟨s, -, h⟩ | h | h
  · cases h
    exact List.all_eq_true.mp List.all_takeWhile
  · cases h
  · cases h
  · cases h
  · cases h

theorem scan?_of_first? {symbols : List (List Char)} {cs : List Char} {n : Numeral}
    (h : first? symbols cs = some (.numeral n)) : Numeral.scan? cs = some n := by
  rcases first?_cases h with h | ⟨m, hm, h⟩ | ⟨s, -, h⟩ | h | h
  · cases h
  · cases h
    exact hm
  · cases h
  · cases h
  · cases h

theorem mem_of_first? {symbols : List (List Char)} {cs symbol : List Char} (hne : symbol ≠ [])
    (h : first? symbols cs = some (.operator symbol)) : symbol ∈ symbols := by
  rcases first?_cases h with h | ⟨n, -, h⟩ | ⟨s, hs | hs, h⟩ | h | h
  · cases h
  · cases h
  · cases h
    exact absurd hs hne
  · cases h
    exact hs
  · cases h
  · cases h

theorem scan_of_first?_eq_none {symbols : List (List Char)} {cs : List Char}
    (h : first? symbols cs = none) : scan symbols cs = ([], cs) := by
  rw [scan]
  split
  · rfl
  · rename_i l hfirst
    rw [h] at hfirst
    cases hfirst

/-- Behind a piece cutting goes on as if the text began there. -/
theorem scan_append {symbols : List (List Char)} {l : Lexeme} {rest : List Char}
    (hne : l.text ≠ []) (h : first? symbols (l.text ++ rest) = some l) :
    scan symbols (l.text ++ rest) = (l :: (scan symbols rest).1, (scan symbols rest).2) := by
  rw [scan]
  split
  · rename_i hfirst
    rw [h] at hfirst
    cases hfirst
  · rename_i l' hfirst
    rw [h] at hfirst
    cases hfirst
    rw [dif_neg hne, List.drop_left]

/-- Induction along the pieces of a text, the last one first. -/
@[elab_as_elim]
theorem scan_induction {symbols : List (List Char)} {P : List Char → Prop}
    (stop : ∀ cs, scan symbols cs = ([], cs) → (∀ l ∈ first? symbols cs, l.text = []) → P cs)
    (step : ∀ l rest, l.text ≠ [] → first? symbols (l.text ++ rest) = some l → P rest →
      P (l.text ++ rest)) (cs : List Char) : P cs := by
  fun_induction scan symbols cs with
  | case1 cs hf =>
    refine stop cs (scan_of_first?_eq_none hf) fun l hl => ?_
    rw [hf] at hl
    cases hl
  | case2 cs first hf ht =>
    refine stop cs ?_ fun l hl => ?_
    · rw [scan]
      split
      · rfl
      · rename_i l hl
        rw [hf] at hl
        cases hl
        rw [dif_pos ht]
    · rw [hf] at hl
      cases hl
      exact ht
  | case3 cs first hf ht _ ls rest hscan ih =>
    have hsplit : first.text ++ cs.drop first.text.length = cs :=
      List.prefix_iff_eq_append.mp (text_isPrefix_of_first? hf)
    rw [← hsplit] at hf ⊢
    exact step first _ ht hf ih

/-- What holds of the first piece of every text, unless it is empty, holds of all pieces. -/
theorem forall_mem_scan {symbols : List (List Char)} {P : Lexeme → Prop}
    (hP : ∀ cs l, first? symbols cs = some l → l.text ≠ [] → P l) (cs : List Char) :
    ∀ l ∈ (scan symbols cs).1, P l := by
  fun_induction scan symbols cs with
  | case1 => intro l hl; cases hl
  | case2 => intro l hl; cases hl
  | case3 cs first hf ht _ ls rest hscan ih =>
    rw [hscan] at ih
    intro l hl
    rcases List.mem_cons.mp hl with rfl | hl
    · exact hP cs l hf ht
    · exact ih l hl

/-- A symbol that a text is cut into is one of the given ones. -/
theorem mem_of_operator_mem_scan {symbols : List (List Char)} {cs symbol : List Char}
    (h : operator symbol ∈ (scan symbols cs).1) : symbol ∈ symbols := by
  refine forall_mem_scan (P := fun l => ∀ s, l = operator s → s ∈ symbols) ?_ cs _ h symbol rfl
  rintro cs l hl ht s rfl
  exact mem_of_first? ht hl

end Lexeme

/-- There is nothing to cut in an empty text. -/
theorem scan_nil (symbols : List (List Char)) : Lexeme.scan symbols [] = ([], []) := by
  rw [Lexeme.scan]
  split
  · rfl
  · rename_i l hfirst
    exact dif_pos (List.prefix_nil.mp (Lexeme.text_isPrefix_of_first? hfirst))

/-! ### Tokens -/

variable {table : OperatorTable}

/-- The tokens of pieces are known, if the symbols among the pieces and the minus sign are. -/
theorem Token.known_ofLexemes (hminus : ['-'] ∈ table.keys) {ls : List Lexeme}
    (hls : ∀ symbol, Lexeme.operator symbol ∈ ls → symbol ∈ table.keys) (afterOperand : Bool) :
    ∀ t ∈ Token.ofLexemes afterOperand ls, t.Known table := by
  fun_induction Token.ofLexemes afterOperand ls <;> simp_all

/-- When an expression has tokens, and what is reported otherwise. -/
theorem tokenize_cases (table : OperatorTable) (expression : List Char) :
    (∃ ls, Lexeme.scan table.keys expression = (ls, []) ∧ Token.ofLexemes false ls ≠ [] ∧
        tokenize table expression = .ok (Token.ofLexemes false ls)) ∨
      (∃ ls, Lexeme.scan table.keys expression = (ls, []) ∧ Token.ofLexemes false ls = [] ∧
        tokenize table expression = .error ⟨.emptyExpression, some expression⟩) ∨
      ∃ ls c rest, Lexeme.scan table.keys expression = (ls, c :: rest) ∧
        tokenize table expression =
          .error ⟨.invalidCharacter [c] (expression.length - (c :: rest).length : Nat),
            some expression⟩ := by
  rw [tokenize]
  rcases hscan : Lexeme.scan table.keys expression with ⟨ls, _ | ⟨c, rest⟩⟩
  · cases htokens : Token.ofLexemes false ls with
    | nil => exact .inr (.inl ⟨ls, rfl, htokens, by simp [htokens]⟩)
    | cons t ts => exact .inl ⟨ls, rfl, by simp [htokens], by simp [htokens]⟩
  · exact .inr (.inr ⟨ls, c, rest, rfl, rfl⟩)

/-- An expression that is cut without rest has the tokens of its pieces, if there are any. -/
theorem tokenize_eq_ok {expression : List Char} {t : Token} {ts : List Token}
    (htokens : Token.ofLexemes false (Lexeme.scan table.keys expression).1 = t :: ts)
    (hrest : (Lexeme.scan table.keys expression).2 = []) :
    tokenize table expression = .ok (t :: ts) := by
  rcases tokenize_cases table expression with ⟨ls, hscan, -, ht⟩ | ⟨ls, hscan, hnil, -⟩ |
    ⟨ls, c, rest, hscan, -⟩
  · rw [hscan] at htokens
    rw [ht, ← htokens]
  · rw [hscan] at htokens
    exact absurd (htokens.symm.trans hnil) (List.cons_ne_nil t ts)
  · rw [hscan] at hrest
    cases hrest

/-- An expression that has tokens is cut without rest. -/
theorem exists_scan_of_tokenize {expression : List Char} {ts : List Token}
    (h : tokenize table expression = .ok ts) :
    ∃ ls, Lexeme.scan table.keys expression = (ls, []) ∧ ts = Token.ofLexemes false ls := by
  rcases tokenize_cases table expression with ⟨ls, hscan, -, hok⟩ | ⟨_, -, -, he⟩ |
    ⟨_, _, _, -, he⟩
  · exact ⟨ls, hscan, Except.ok.inj (h.symm.trans hok)⟩
  · exact absurd he (ne_error_of_eq_ok h _)
  · exact absurd he (ne_error_of_eq_ok h _)

theorem ne_nil_of_tokenize {expression : List Char} {ts : List Token}
    (h : tokenize table expression = .ok ts) : ts ≠ [] := by
  rcases tokenize_cases table expression with ⟨ls, -, hne, hok⟩ | ⟨_, -, -, he⟩ |
    ⟨_, _, _, -, he⟩
  · obtain rfl := Except.ok.inj (hok.symm.trans h)
    exact hne
  · exact absurd he (ne_error_of_eq_ok h _)
  · exact absurd he (ne_error_of_eq_ok h _)

/-- The tokens of an expression are known, if the table has the minus sign. -/
theorem known_of_tokenize (hminus : ['-'] ∈ table.keys) {expression : List Char}
    {ts : List Token} (h : tokenize table expression = .ok ts) : ∀ t ∈ ts, t.Known table := by
  obtain ⟨ls, hscan, rfl⟩ := exists_scan_of_tokenize h
  refine Token.known_ofLexemes hminus (fun symbol hs => ?_) false
  exact @Lexeme.mem_of_operator_mem_scan _ expression _ (by rwa [hscan])

end Expression

end ChatCalculator
