import ChatCalculator.Proofs.Binary64.Rounded
import ChatCalculator.Proofs.Expression.Numeral
import ChatCalculator.Proofs.Expression.Partners

/-!
# Where tokens come from

The tokens of an expression are spelled out in it, one after the other, with nothing but blanks
around them. `Reads` says so without cutting the expression. It also says how a minus sign in front
of a digit is read, which depends on the token before it: as part of the number where an operand
is expected, and as an operator behind one.

Cutting does not know about that. It takes every such sign for part of a numeral, and the sign is
split off afterwards; so one piece may become two tokens, and the text of the piece has to be
divided between them. That a symbol is never cut off in front of a digit if it is a lone minus
sign holds for every table, since numerals are tried before symbols.

All this is said of the text in front of the first character that belongs to no token, too. What
comes behind a text matters only for a minus sign at its end.

## Main definitions

* `Token.Spells`: the texts of a token
* `Reads`: a text and the tokens that it is read as, behind a token and in front of more text

## Main results

* `reads_scan`: what is cut off a text is read as its tokens
* `tokenize_reads`: so is an expression, or what stands in front of the character reported
-/

namespace ChatCalculator

namespace Expression

/-- The texts of a token. That of a number is a numeral that is correctly rounded to it, and that of
any other token is what it is made of. -/
inductive Token.Spells : Token → List Char → Prop
  /-- A number has the text of a numeral that it is the nearest number to. -/
  | number {n : Numeral} {value : Binary64} (proper : n.Proper)
      (rounded : Binary64.Rounded n.negative n.magnitude.value value) :
      Spells (.number value) n.text
  /-- An operator has its symbol, which has at least one character. -/
  | operator {symbol : List Char} (hne : symbol ≠ []) : Spells (.operator symbol) symbol
  /-- An opening parenthesis. -/
  | opening : Spells (.opening ['(']) ['(']
  /-- A closing parenthesis. -/
  | closing : Spells (.closing [')']) [')']

/-- The text in front of `after` is made of the texts of the tokens, in order, with blanks around
them. A number has a sign only where no operand has ended, and a minus sign in front of a digit is
an operator only where one has. -/
inductive Reads (after : List Char) : (previous : Option Token) → List Char → List Token → Prop
  /-- Blanks are read as nothing. -/
  | blanks {previous : Option Token} {cs : List Char} (hblank : ∀ c ∈ cs, isBlank c = true) :
      Reads after previous cs []
  /-- A token has its text, and blanks may stand in front of it. -/
  | token {previous : Option Token} {gap text rest : List Char} {t : Token} {ts : List Token}
      (hgap : ∀ c ∈ gap, isBlank c = true) (hspells : t.Spells text)
      (hsign : t.isNumber = true → '-' ∈ text →
        ∀ p ∈ previous, p.isOperator = true ∨ p.isOpening = true)
      (hminus : t = .operator ['-'] → (∃ c ∈ (rest ++ after).head?, c.isDigit = true) →
        ∃ p ∈ previous, p.endsOperand = true)
      (hrest : Reads after (some t) rest ts) :
      Reads after previous (gap ++ (text ++ rest)) (t :: ts)

/-- More blanks in front do not matter. -/
theorem Reads.append_blanks {after cs gap : List Char} {previous : Option Token} {ts : List Token}
    (h : Reads after previous cs ts) (hgap : ∀ c ∈ gap, isBlank c = true) :
    Reads after previous (gap ++ cs) ts := by
  cases h with
  | blanks hblank => exact .blanks fun c hc => (List.mem_append.mp hc).elim (hgap c) (hblank c)
  | token hgap' hspells hsign hminus hrest =>
    rw [← List.append_assoc]
    refine .token (fun c hc => ?_) hspells hsign hminus hrest
    exact (List.mem_append.mp hc).elim (hgap c) (hgap' c)

section Adjacent

/-! Tokens without blanks in front, each with the condition that its kind has to meet. -/

variable {after text rest : List Char} {previous : Option Token} {ts : List Token}

theorem Reads.number_cons {value : Binary64} (hspells : (Token.number value).Spells text)
    (hsign : '-' ∈ text → ∀ p ∈ previous, p.isOperator = true ∨ p.isOpening = true)
    (hrest : Reads after (some (.number value)) rest ts) :
    Reads after previous (text ++ rest) (.number value :: ts) := by
  refine @Reads.token after previous [] text rest _ ts (by simp) hspells (fun _ => hsign) ?_ hrest
  intro h
  cases h

theorem Reads.operator_cons {symbol : List Char} (hne : symbol ≠ [])
    (hminus : symbol = ['-'] → (∃ c ∈ (rest ++ after).head?, c.isDigit = true) →
      ∃ p ∈ previous, p.endsOperand = true)
    (hrest : Reads after (some (.operator symbol)) rest ts) :
    Reads after previous (symbol ++ rest) (.operator symbol :: ts) := by
  refine @Reads.token after previous [] symbol rest _ ts (by simp) (.operator hne) ?_ ?_ hrest
  · intro h
    cases h
  · exact fun h => hminus (Token.operator.inj h)

theorem Reads.parenthesis_cons {t : Token} (hspells : t.Spells text)
    (h : t.isOpening = true ∨ t.isClosing = true) (hrest : Reads after (some t) rest ts) :
    Reads after previous (text ++ rest) (t :: ts) := by
  refine @Reads.token after previous [] text rest t ts (by simp) hspells ?_ ?_ hrest
  · intro hnumber
    cases t <;> simp_all [Token.isOpening, Token.isClosing]
  · rintro rfl
    simp [Token.isOpening, Token.isClosing] at h

end Adjacent

/-! ### Numerals -/

namespace Numeral

theorem spells_value {n : Numeral} (h : n.Proper) : (Token.number n.value).Spells n.text :=
  .number h (Binary64.rounded_ofDecimal n.negative n.magnitude)

theorem proper_unsigned {n : Numeral} (h : n.Proper) : n.unsigned.Proper :=
  ⟨h.whole_ne_nil, h.isDigit_whole, h.isDigit_fraction⟩

/-- Only the sign of a numeral is a minus sign. -/
theorem negative_of_mem_text {n : Numeral} (h : n.Proper) (hmem : '-' ∈ n.text) :
    n.negative = true := by
  obtain ⟨negative, whole, fraction⟩ := n
  cases negative with
  | true => rfl
  | false =>
    exfalso
    rw [text, List.mem_append, List.mem_append] at hmem
    rcases hmem with hsign | hwhole | hfraction
    · cases hsign
    · cases h.isDigit_whole _ hwhole
    · cases fraction with
      | none => cases hfraction
      | some digits =>
        rcases List.mem_cons.mp hfraction with hpoint | hdigits
        · cases hpoint
        · cases h.isDigit_fraction digits rfl _ hdigits

end Numeral

/-! ### Pieces -/

/-- A minus sign in front of a digit is not cut off alone, whatever the symbols are. -/
theorem Lexeme.not_isDigit_of_first?_minus {symbols : List (List Char)} {rest : List Char}
    (h : first? symbols ('-' :: rest) = some (.operator ['-'])) :
    ∀ c ∈ rest.head?, c.isDigit = false := by
  intro c hc
  obtain ⟨cs, rfl⟩ := List.head?_eq_some_iff.mp hc
  cases hdigit : c.isDigit with
  | false => rfl
  | true =>
    exfalso
    obtain ⟨n, hn⟩ : ∃ n, Numeral.scan? ('-' :: c :: cs) = some n := by
      rw [Numeral.scan?, Numeral.scanUnsigned?, List.takeWhile_cons_of_pos hdigit]
      exact ⟨_, rfl⟩
    rw [first?_of_scan? symbols hn] at h
    cases h

/-- What is known of the token before a text, given whether an operand has just ended. -/
structure Behind (previous : Option Token) (afterOperand : Bool) : Prop where
  /-- An operand has ended with it. -/
  operand : afterOperand = true → ∃ p ∈ previous, p.endsOperand = true
  /-- An operand is expected behind it. -/
  expected : afterOperand = false → ∀ p ∈ previous, p.isOperator = true ∨ p.isOpening = true

theorem behind_none : Behind none false where
  operand h := by cases h
  expected _ p hp := by cases hp

theorem behind_of_endsOperand {t : Token} (h : t.endsOperand = true) : Behind (some t) true where
  operand _ := ⟨t, rfl, h⟩
  expected hfalse := by cases hfalse

theorem behind_of_expected {t : Token} (h : t.isOperator = true ∨ t.isOpening = true) :
    Behind (some t) false where
  operand hfalse := by cases hfalse
  expected _ p hp := by
    cases hp
    exact h

/-- **What is cut off a text is read as its tokens**, in front of what is left. -/
theorem reads_scan (symbols : List (List Char)) (cs : List Char) :
    ∀ {previous : Option Token} {afterOperand : Bool}, Behind previous afterOperand →
      Reads (Lexeme.scan symbols cs).2 previous ((Lexeme.scan symbols cs).1.flatMap Lexeme.text)
        (Token.ofLexemes afterOperand (Lexeme.scan symbols cs).1) := by
  induction cs using @Lexeme.scan_induction symbols with
  | stop cs hscan _ =>
    intro previous afterOperand _
    rw [hscan]
    exact .blanks (by simp)
  | step l rest hne hfirst ih =>
    intro previous afterOperand hprevious
    have hpieces := Lexeme.flatMap_text_scan symbols rest
    rw [Lexeme.scan_append hne hfirst]
    dsimp only
    rw [List.flatMap_cons]
    cases l with
    | blank blanks => exact (ih hprevious).append_blanks (Lexeme.isBlank_of_first? hfirst)
    | numeral n =>
      have hproper := Numeral.proper_of_scan? (Lexeme.scan?_of_first? hfirst)
      have hunsigned := Numeral.proper_unsigned hproper
      rw [Token.ofLexemes]
      split
      · -- the sign is an operator, and the rest of the numeral is a number
        rename_i hsplit
        obtain ⟨hafter, hnegative⟩ := Bool.and_eq_true_iff.mp hsplit
        have htext : (Lexeme.numeral n).text = ['-'] ++ n.unsigned.text := by
          simp [Lexeme.text, Numeral.text, Numeral.unsigned, hnegative]
        rw [htext, List.append_assoc]
        refine .operator_cons (List.cons_ne_nil _ _) (fun _ _ => hprevious.operand hafter) ?_
        refine .number_cons (Numeral.spells_value hunsigned) (fun hmem => ?_)
          (ih (behind_of_endsOperand rfl))
        cases Numeral.negative_of_mem_text hunsigned hmem
      · rename_i hwhole
        refine .number_cons (Numeral.spells_value hproper) (fun hmem => ?_)
          (ih (behind_of_endsOperand rfl))
        rw [Numeral.negative_of_mem_text hproper hmem, Bool.and_true, Bool.not_eq_true] at hwhole
        exact hprevious.expected hwhole
    | operator symbol =>
      refine .operator_cons hne ?_ (ih (behind_of_expected (.inl rfl)))
      rintro rfl ⟨c, hc, hdigit⟩
      rw [hpieces] at hc
      have hfalse := Lexeme.not_isDigit_of_first?_minus hfirst c hc
      rw [hdigit] at hfalse
      cases hfalse
    | opening =>
      exact .parenthesis_cons .opening (.inl rfl) (ih (behind_of_expected (.inr rfl)))
    | closing =>
      exact .parenthesis_cons .closing (.inr rfl) (ih (behind_of_endsOperand rfl))

/-! ### Expressions -/

/-- What is cut off an expression is a text of its tokens. -/
theorem exists_reads_of_scan {symbols : List (List Char)} {expression rest : List Char}
    {ls : List Lexeme} (h : Lexeme.scan symbols expression = (ls, rest)) :
    ∃ cut, expression = cut ++ rest ∧ Reads rest none cut (Token.ofLexemes false ls) := by
  have hreads := reads_scan symbols expression behind_none
  have hpieces := Lexeme.flatMap_text_scan symbols expression
  rw [h] at hreads hpieces
  exact ⟨_, hpieces.symm, hreads⟩

/-- An expression that has tokens is read as them. -/
theorem reads_of_tokenize {table : OperatorTable} {expression : List Char} {ts : List Token}
    (h : tokenize table expression = .ok ts) : Reads [] none expression ts := by
  obtain ⟨ls, hscan, rfl⟩ := exists_scan_of_tokenize h
  obtain ⟨cut, rfl, hreads⟩ := exists_reads_of_scan hscan
  rwa [List.append_nil]

/-- **Where tokens come from.** An expression that has tokens is read as them. If a character is
reported, it stands at the place reported, and what stands in front of it is read as tokens. -/
theorem tokenize_reads (table : OperatorTable) (expression : List Char) :
    (∀ ts, tokenize table expression = .ok ts → Reads [] none expression ts) ∧
      ∀ text position e, tokenize table expression = .error ⟨.invalidCharacter text position, e⟩ →
        ∃ (p : ℕ) (c : Char), position = p ∧ text = [c] ∧ expression[p]? = some c ∧
          ∃ ts, Reads (expression.drop p) none (expression.take p) ts := by
  refine ⟨fun ts => reads_of_tokenize, fun text position e h => ?_⟩
  rcases tokenize_cases table expression with ⟨ls, hscan, -, ht⟩ | ⟨ls, hscan, -, ht⟩ |
    ⟨ls, c, rest, hscan, ht⟩
  · rw [ht] at h
    cases h
  · rw [ht] at h
    cases h
  · rw [ht] at h
    cases h
    obtain ⟨cut, rfl, hreads⟩ := exists_reads_of_scan hscan
    have hlength : (cut ++ c :: rest).length - (c :: rest).length = cut.length := by simp
    rw [hlength]
    exact ⟨cut.length, c, rfl, rfl, by simp, _, by simpa using hreads⟩

/-- The sign of a numeral behind another one is an operator. At the start of a text, in front of a
character that belongs to no token, it is part of the number. -/
theorem tokenize_reads_signs :
    let difference := ['2', ' ', '-', '3']
    let ts : List Token :=
      [.number (.ofBits 0x4000000000000000), .operator ['-'], .number (.ofBits 0x4008000000000000)]
    let refused := ['-', '3', ' ', '$', '2']
    (tokenize standardOperators difference = .ok ts ∧ Reads [] none difference ts) ∧
      tokenize standardOperators refused = .error ⟨.invalidCharacter ['$'] 3, some refused⟩ ∧
        ∃ (p : ℕ) (c : Char), (3 : ℤ) = p ∧ ['$'] = [c] ∧ refused[p]? = some c ∧
          ∃ ts, Reads (refused.drop p) none (refused.take p) ts := by
  intro difference ts refused
  have hok : tokenize standardOperators difference = .ok ts := by decide +kernel
  have herror : tokenize standardOperators refused =
      .error ⟨.invalidCharacter ['$'] 3, some refused⟩ := by decide +kernel
  exact ⟨⟨hok, (tokenize_reads standardOperators _).1 _ hok⟩, herror,
    (tokenize_reads standardOperators _).2 _ _ _ herror⟩

end Expression

end ChatCalculator
