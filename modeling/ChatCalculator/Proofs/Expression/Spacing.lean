import ChatCalculator.Proofs.Expression.Cutting
import ChatCalculator.Proofs.Expression.Grammar

/-!
# Blanks between tokens

In a well-formed expression the blanks may be dropped: its tokens stay the same. That is not so of
all texts. Two numerals would run together, and a minus sign that a blank keeps apart from a digit
would become its sign.

## Why well-formed expressions are safe

Where blanks are dropped, three things could go wrong, and the grammar rules out each of them. No
digit and no point can move next to a numeral, since no operand directly follows another one
(`endsNumeral_of_accepts`). A minus sign can move next to a digit, but only as an operator, that
is, behind an operand, and there it stays an operator (`Token.ofLexemes_scan_operator`). All other
pieces are single characters that are cut off whatever follows.

The statement is about the rest of an expression, with the state of the pass over the grammar, so
that it can be proved piece by piece. All pieces but the blanks keep their texts, so one argument
does for them (`StandsFor.dropBlanks_append`), as soon as each is known to stand for the same tokens
when something else moves next to it (`exists_standsFor`).

## Main definitions

* `dropBlanks`: a text without its blanks
* `StandsFor`: whether a text stands for given tokens in front of another one

## Main results

* `exists_standsFor`: what a piece stands for
* `StandsFor.dropBlanks_append`: a text that keeps its tokens when the blanks behind it go
* `ofLexemes_scan_dropBlanks`: the rest of a well-formed expression has the same tokens
* `tokenize_dropBlanks`: and so has the whole of it
-/

namespace ChatCalculator

namespace Expression

/-- A text without its blanks. -/
def dropBlanks (cs : List Char) : List Char :=
  cs.filter fun c => !isBlank c

theorem dropBlanks_append (xs ys : List Char) :
    dropBlanks (xs ++ ys) = dropBlanks xs ++ dropBlanks ys :=
  List.filter_append ..

theorem dropBlanks_of_forall {cs : List Char} (h : ∀ c ∈ cs, isBlank c = true) :
    dropBlanks cs = [] := by
  rw [dropBlanks, List.filter_eq_nil_iff]
  intro c hc
  simp [h c hc]

theorem dropBlanks_eq_self {cs : List Char} (h : ∀ c ∈ cs, isBlank c = false) :
    dropBlanks cs = cs := by
  rw [dropBlanks, List.filter_eq_self]
  intro c hc
  simp [h c hc]

theorem dropBlanks_numeral {n : Numeral} (h : n.Proper) : dropBlanks n.text = n.text := by
  refine dropBlanks_eq_self fun c hc => ?_
  rcases h.mem_text hc with hdigit | rfl | rfl
  · exact isBlank_eq_false_of_isDigit hdigit
  · rfl
  · rfl

/-! ### What can follow a numeral -/

/-- What an expression goes on with behind an operand does not continue a numeral. -/
theorem endsNumeral_of_accepts {cs : List Char} {depth : ℕ}
    (hrest : (Lexeme.scan standardOperators.keys cs).2 = [])
    (h : accepts standardOperators true depth
      (Token.ofLexemes true (Lexeme.scan standardOperators.keys cs).1) = true) :
    EndsNumeral cs := by
  intro c hc
  obtain ⟨ds, rfl⟩ := List.head?_eq_some_iff.mp hc
  constructor
  · cases hdigit : c.isDigit with
    | false => rfl
    | true =>
      exfalso
      obtain ⟨n, hread, hsign⟩ := @Numeral.scan?_of_isDigit c ds hdigit
      obtain ⟨rest, htext⟩ := Numeral.text_isPrefix_of_scan? hread
      rw [← htext] at h hread
      rw [Lexeme.scan_of_scan? _ hread] at h
      simp [Token.ofLexemes, hsign, accepts] at h
  · rintro rfl
    rw [Lexeme.scan_point] at hrest
    cases hrest

/-! ### Texts in front of others -/

/-- In front of `cs` a text stands for the tokens `ts`, and `cs` is cut as if it stood alone.
`afterOperand` says whether an operand has ended before the text, `endsOperand` whether one has
ended at its end. -/
structure StandsFor (afterOperand : Bool) (text : List Char) (ts : List Token) (endsOperand : Bool)
    (cs : List Char) : Prop where
  /-- The tokens of the text come first, then those of what follows. -/
  ofLexemes_eq : Token.ofLexemes afterOperand (Lexeme.scan standardOperators.keys (text ++ cs)).1 =
    ts ++ Token.ofLexemes endsOperand (Lexeme.scan standardOperators.keys cs).1
  /-- What is left over is left over of what follows. -/
  rest_eq : (Lexeme.scan standardOperators.keys (text ++ cs)).2 =
    (Lexeme.scan standardOperators.keys cs).2

theorem standsFor_numeral (afterOperand : Bool) {n : Numeral} (hn : n.Proper) {cs : List Char}
    (h : EndsNumeral cs) :
    StandsFor afterOperand n.text (Token.ofLexemes afterOperand [.numeral n]) true cs := by
  have hscan := Lexeme.scan_numeral_append standardOperators.keys hn h
  refine ⟨?_, by rw [hscan]⟩
  rw [hscan, Token.ofLexemes, Token.ofLexemes]
  split <;> rfl

theorem standsFor_operator {c : Char} (h : c ∈ operatorCharacters) (cs : List Char) :
    StandsFor true [c] [.operator [c]] false cs :=
  have hscan := Token.ofLexemes_scan_operator h cs
  ⟨hscan.1, hscan.2⟩

theorem standsFor_opening (afterOperand : Bool) (cs : List Char) :
    StandsFor afterOperand ['('] [.opening ['(']] false cs :=
  have hscan := Lexeme.scan_opening cs
  ⟨congrArg (fun p => Token.ofLexemes afterOperand p.1) hscan, congrArg (fun p => p.2) hscan⟩

theorem standsFor_closing (afterOperand : Bool) (cs : List Char) :
    StandsFor afterOperand [')'] [.closing [')']] true cs :=
  have hscan := Lexeme.scan_closing cs
  ⟨congrArg (fun p => Token.ofLexemes afterOperand p.1) hscan, congrArg (fun p => p.2) hscan⟩

/-- A numeral that is accepted is followed by what is accepted behind an operand. -/
theorem accepts_of_numeral {afterOperand : Bool} {depth : ℕ} {n : Numeral} {ls : List Lexeme}
    (h : accepts standardOperators afterOperand depth
      (Token.ofLexemes afterOperand (.numeral n :: ls)) = true) :
    accepts standardOperators true depth (Token.ofLexemes true ls) = true := by
  cases afterOperand with
  | false => exact h
  | true =>
    -- behind an operand the numeral must have a sign, which is an operator
    rw [Token.ofLexemes] at h
    split at h
    · rw [accepts, Bool.and_eq_true] at h
      exact h.2
    · simp [accepts] at h

/-- **What a piece stands for.** A piece that is accepted, other than a run of blanks, has no blank
itself. What follows it is accepted in turn, and the piece stands for the same tokens in front of
any text that has the same ones as what follows it. -/
theorem exists_standsFor {l : Lexeme} {rest : List Char} {afterOperand : Bool} {depth : ℕ}
    (hne : l.text ≠ []) (hfirst : Lexeme.first? standardOperators.keys (l.text ++ rest) = some l)
    (hblank : ∀ blanks, l ≠ .blank blanks)
    (h : accepts standardOperators afterOperand depth (Token.ofLexemes afterOperand
      (l :: (Lexeme.scan standardOperators.keys rest).1)) = true) :
    dropBlanks l.text = l.text ∧ ∃ ts endsOperand below,
      accepts standardOperators endsOperand below
        (Token.ofLexemes endsOperand (Lexeme.scan standardOperators.keys rest).1) = true ∧
      ∀ cs, Token.ofLexemes endsOperand (Lexeme.scan standardOperators.keys cs).1 =
          Token.ofLexemes endsOperand (Lexeme.scan standardOperators.keys rest).1 →
        (Lexeme.scan standardOperators.keys cs).2 = [] →
          StandsFor afterOperand l.text ts endsOperand cs := by
  cases l with
  | blank blanks => exact absurd rfl (hblank blanks)
  | numeral n =>
    have hproper := Numeral.proper_of_scan? (Lexeme.scan?_of_first? hfirst)
    have haccepts := accepts_of_numeral h
    refine ⟨dropBlanks_numeral hproper, Token.ofLexemes afterOperand [.numeral n], true, depth,
      haccepts, fun cs hts hcs => ?_⟩
    exact standsFor_numeral afterOperand hproper (endsNumeral_of_accepts hcs (hts ▸ haccepts))
  | operator symbol =>
    have hmem := Lexeme.mem_of_first? hne hfirst
    rw [keys_standardOperators] at hmem
    obtain ⟨c, hc, rfl⟩ := List.mem_map.mp hmem
    have htext : dropBlanks [c] = [c] := dropBlanks_eq_self <|
      List.forall_mem_singleton.mpr (isBlank_eq_false_of_mem_operatorCharacters hc)
    cases afterOperand with
    | false => simp [Token.ofLexemes, accepts] at h
    | true =>
      rw [Token.ofLexemes, accepts, Bool.and_eq_true] at h
      exact ⟨htext, _, false, depth, h.2, fun cs _ _ => standsFor_operator hc cs⟩
  | opening =>
    cases afterOperand with
    | true => simp [Token.ofLexemes, accepts] at h
    | false => exact ⟨rfl, _, false, depth + 1, h, fun cs _ _ => standsFor_opening false cs⟩
  | closing =>
    cases afterOperand with
    | false => simp [Token.ofLexemes, accepts] at h
    | true =>
      cases depth with
      | zero => simp [Token.ofLexemes, accepts] at h
      | succ below => exact ⟨rfl, _, true, below, h, fun cs _ _ => standsFor_closing true cs⟩

/-! ### Dropping blanks -/

/-- **A text that keeps its tokens**, whether or not the blanks behind it are dropped: in front of
what keeps its own, the whole keeps them too. -/
theorem StandsFor.dropBlanks_append {afterOperand endsOperand : Bool} {text rest : List Char}
    {ts : List Token} (hspaced : StandsFor afterOperand text ts endsOperand rest)
    (hdropped : StandsFor afterOperand text ts endsOperand (dropBlanks rest))
    (htext : dropBlanks text = text)
    (h : Token.ofLexemes endsOperand (Lexeme.scan standardOperators.keys (dropBlanks rest)).1 =
        Token.ofLexemes endsOperand (Lexeme.scan standardOperators.keys rest).1 ∧
      (Lexeme.scan standardOperators.keys (dropBlanks rest)).2 = []) :
    Token.ofLexemes afterOperand
          (Lexeme.scan standardOperators.keys (dropBlanks (text ++ rest))).1 =
        Token.ofLexemes afterOperand (Lexeme.scan standardOperators.keys (text ++ rest)).1 ∧
      (Lexeme.scan standardOperators.keys (dropBlanks (text ++ rest))).2 = [] := by
  rw [Expression.dropBlanks_append, htext]
  constructor
  · rw [hdropped.ofLexemes_eq, hspaced.ofLexemes_eq, h.1]
  · rw [hdropped.rest_eq, h.2]

/-- **The rest of a well-formed expression has the same tokens without its blanks.** -/
theorem ofLexemes_scan_dropBlanks (cs : List Char) : ∀ (afterOperand : Bool) (depth : ℕ),
    accepts standardOperators afterOperand depth
        (Token.ofLexemes afterOperand (Lexeme.scan standardOperators.keys cs).1) = true →
      (Lexeme.scan standardOperators.keys cs).2 = [] →
        Token.ofLexemes afterOperand (Lexeme.scan standardOperators.keys (dropBlanks cs)).1 =
            Token.ofLexemes afterOperand (Lexeme.scan standardOperators.keys cs).1 ∧
          (Lexeme.scan standardOperators.keys (dropBlanks cs)).2 = [] := by
  induction cs using @Lexeme.scan_induction standardOperators.keys with
  | stop cs hscan _ =>
    intro afterOperand depth _ hrest
    rw [hscan] at hrest
    obtain rfl : cs = [] := hrest
    have hnil : dropBlanks [] = [] := rfl
    rw [hnil, hscan]
    exact ⟨rfl, rfl⟩
  | step l rest hne hfirst ih =>
    intro afterOperand depth h hrest
    have hscan := Lexeme.scan_append hne hfirst
    rw [hscan] at h hrest
    dsimp only at h hrest
    by_cases hblank : ∃ blanks, l = .blank blanks
    · obtain ⟨blanks, rfl⟩ := hblank
      have hnil : dropBlanks (Lexeme.blank blanks).text = [] :=
        dropBlanks_of_forall (Lexeme.isBlank_of_first? hfirst)
      rw [dropBlanks_append, hnil, List.nil_append, hscan]
      exact ih afterOperand depth h hrest
    · obtain ⟨htext, ts, endsOperand, below, haccepts, hstands⟩ :=
        exists_standsFor hne hfirst (not_exists.mp hblank) h
      have hsame := ih endsOperand below haccepts hrest
      exact (hstands rest rfl hrest).dropBlanks_append (hstands _ hsame.1 hsame.2) htext hsame

/-- **A well-formed expression has the same tokens without its blanks.** -/
theorem tokenize_dropBlanks {expression : List Char} {ts : List Token}
    (h : tokenize standardOperators expression = .ok ts) (hwell : WellFormed standardOperators ts) :
    tokenize standardOperators (dropBlanks expression) = .ok ts := by
  obtain ⟨ls, hscan, rfl⟩ := exists_scan_of_tokenize h
  have haccepts := wellFormed_iff_accepts.mp hwell
  have hdrop := ofLexemes_scan_dropBlanks expression false 0
  rw [hscan] at hdrop
  obtain ⟨htokens, hleft⟩ := hdrop haccepts rfl
  have hne : Token.ofLexemes false ls ≠ [] := by
    intro hnil
    rw [hnil] at haccepts
    cases haccepts
  rcases tokenize_cases standardOperators (dropBlanks expression) with ⟨ls', hscan', -, ht⟩ |
    ⟨ls', hscan', hnil, -⟩ | ⟨ls', c, rest, hscan', -⟩
  · rw [hscan'] at htokens
    rw [ht, htokens]
  · rw [hscan'] at htokens
    exact absurd (htokens.symm.trans hnil) hne
  · rw [hscan'] at hleft
    cases hleft

end Expression

end ChatCalculator
