import ChatCalculator.Proofs.Expression.Composition
import ChatCalculator.Proofs.Expression.Source

/-!
# Tokens that are written out

Tokens that are written out with blanks between them are read back, whichever numerals the numbers
are written with and whether or not the tokens make sense together. There is one exception: behind
an operand the sign of a number is read as an operator. So the lists of tokens that expressions
have are those in which no number with a minus sign stands there, and they can all be written out.

Blanks make every piece of the text depend on one token only. A numeral ends at a blank, a minus
sign in front of a blank is cut off alone, and the blanks themselves are cut off together. What is
left of the context is whether an operand has just ended, which decides about a sign and which the
tokens show as well as the text does.

The value that is no number has no numeral, and an operator that is not in the table has no
reading; so neither occurs in the tokens of an expression.

## Main definitions

* `Renders`: the texts that some tokens can be written as
* `Token.IsStandard`: the tokens that have a text and are read back from it
* `Writable`: the lists of tokens that expressions have

## Main results

* `Token.ofLexemes_scan_spells`: a token in front of a blank is read back from its text
* `Reads.signsSeparatedFrom`: behind an operand no number with a sign is read
* `tokenize_renders`: writing tokens out and reading them
-/

namespace ChatCalculator

/-! ### Signs -/

/-- Whether a number has a minus sign. The negative zero has one. -/
def Binary64.hasMinusSign : Binary64 → Bool
  | .nan => false
  | .infinity negative => negative
  | .finite negative _ => negative

/-- Rounding keeps the sign, also where it gives zero. -/
theorem Binary64.Rounded.hasMinusSign_eq {negative : Bool} {size : ℚ} {x : Binary64}
    (h : Rounded negative size x) : x.hasMinusSign = negative := by
  cases h with
  | finite _ => rfl
  | infinity _ _ => rfl

theorem Binary64.Rounded.ne_nan {negative : Bool} {size : ℚ} {x : Binary64}
    (h : Rounded negative size x) : x ≠ .nan := by
  cases h with
  | finite _ => exact nofun
  | infinity _ _ => exact nofun

/-- Every number is read from some decimal, the infinities from one that is too large. -/
theorem Binary64.exists_ofDecimal {x : Binary64} (h : x ≠ .nan) :
    ∃ d, x = ofDecimal x.hasMinusSign d := by
  cases x with
  | nan => exact absurd rfl h
  | infinity negative =>
    refine ⟨⟨10 ^ 309, 0⟩, ?_⟩
    cases negative <;> decide +kernel
  | finite negative m => exact ⟨m.toDecimal, (ofDecimal_toDecimal m negative).symm⟩

namespace Expression

namespace Token

/-- Whether this is a number with a minus sign. -/
def hasMinusSign : Token → Bool
  | .number value => value.hasMinusSign
  | _ => false

/-- The tokens that are read back from a text of their own: numbers, the operators of the
calculator and parentheses. -/
def IsStandard : Token → Prop
  | .number value => value ≠ .nan
  | .operator symbol => symbol ∈ standardOperators.keys
  | .opening text => text = ['(']
  | .closing text => text = [')']
  | .other _ => False

instance : DecidablePred IsStandard
  | .number value => inferInstanceAs (Decidable (value ≠ .nan))
  | .operator symbol => inferInstanceAs (Decidable (symbol ∈ standardOperators.keys))
  | .opening text => inferInstanceAs (Decidable (text = ['(']))
  | .closing text => inferInstanceAs (Decidable (text = [')']))
  | .other _ => inferInstanceAs (Decidable False)

/-- Those are the known tokens that have a text. -/
theorem isStandard_iff {t : Token} :
    t.IsStandard ↔ t.Known standardOperators ∧ ∃ text, t.Spells text := by
  constructor
  · intro h
    cases t with
    | number value =>
      obtain ⟨d, hvalue⟩ := Binary64.exists_ofDecimal h
      have hspells := Numeral.spells_value (d.proper_numeral value.hasMinusSign)
      rw [d.value_numeral, ← hvalue] at hspells
      exact ⟨trivial, _, hspells⟩
    | operator symbol =>
      refine ⟨h, symbol, .operator ?_⟩
      rintro rfl
      exact absurd h (by decide)
    | opening text =>
      obtain rfl : text = ['('] := h
      exact ⟨trivial, _, .opening⟩
    | closing text =>
      obtain rfl : text = [')'] := h
      exact ⟨trivial, _, .closing⟩
    | other text => exact h.elim
  · rintro ⟨hknown, text, hspells⟩
    cases hspells with
    | number _ rounded => exact rounded.ne_nan
    | operator _ => exact hknown
    | opening => rfl
    | closing => rfl

end Token

/-- No number with a minus sign directly follows the end of an operand. -/
def SignsSeparated (ts : List Token) : Prop :=
  ts.IsChain fun t u => ¬ (t.endsOperand = true ∧ u.hasMinusSign = true)

instance (ts : List Token) : Decidable (SignsSeparated ts) :=
  inferInstanceAs (Decidable (ts.IsChain _))

/-- The same for the rest of an expression, given whether an operand has just ended. -/
def SignsSeparatedFrom (afterOperand : Bool) (ts : List Token) : Prop :=
  (∀ t ∈ ts.head?, ¬ (afterOperand = true ∧ t.hasMinusSign = true)) ∧ SignsSeparated ts

theorem signsSeparatedFrom_false {ts : List Token} :
    SignsSeparatedFrom false ts ↔ SignsSeparated ts := by
  simp [SignsSeparatedFrom]

theorem signsSeparatedFrom_nil (afterOperand : Bool) : SignsSeparatedFrom afterOperand [] :=
  ⟨nofun, .nil⟩

theorem signsSeparatedFrom_cons {afterOperand : Bool} {t : Token} {ts : List Token} :
    SignsSeparatedFrom afterOperand (t :: ts) ↔
      ¬ (afterOperand = true ∧ t.hasMinusSign = true) ∧ SignsSeparatedFrom t.endsOperand ts := by
  simp [SignsSeparatedFrom, SignsSeparated, List.isChain_cons]

/-- The lists of tokens that expressions have. -/
structure Writable (ts : List Token) : Prop where
  /-- An expression has a token. -/
  ne_nil : ts ≠ []
  /-- Each token has a text. -/
  isStandard : ∀ t ∈ ts, t.IsStandard
  /-- A sign in front of a number is not taken for an operator. -/
  signsSeparated : SignsSeparated ts

/-! ### Writing tokens out -/

/-- The texts that tokens can be written as: each token as a text of its own, with blanks between
two tokens and possibly at the end. -/
inductive Renders : List Token → List Char → Prop
  /-- Behind the last token there may be blanks. -/
  | last {t : Token} {text gap : List Char} (hspells : t.Spells text)
      (hgap : ∀ c ∈ gap, isBlank c = true) : Renders [t] (text ++ gap)
  /-- Between two tokens there must be some. -/
  | cons {t : Token} {ts : List Token} {text gap rest : List Char} (hspells : t.Spells text)
      (hgap : ∀ c ∈ gap, isBlank c = true) (hne : gap ≠ []) (hrest : Renders ts rest) :
      Renders (t :: ts) (text ++ (gap ++ rest))

/-- Tokens that have texts can be written out. -/
theorem exists_renders {ts : List Token} (hne : ts ≠ [])
    (h : ∀ t ∈ ts, ∃ text, t.Spells text) : ∃ cs, Renders ts cs := by
  induction ts with
  | nil => exact absurd rfl hne
  | cons t ts ih =>
    obtain ⟨⟨text, hspells⟩, hrest⟩ := List.forall_mem_cons.mp h
    cases ts with
    | nil => exact ⟨_, @Renders.last t text [] hspells nofun⟩
    | cons u ts =>
      have hspace : ∀ c ∈ [' '], isBlank c = true := List.forall_mem_singleton.mpr rfl
      obtain ⟨cs, hcs⟩ := ih (List.cons_ne_nil u ts) hrest
      exact ⟨_, .cons hspells hspace (List.cons_ne_nil _ _) hcs⟩

/-! ### Cutting at blanks -/

/-- A text that does not go on with anything but a blank. -/
def EndsAtBlank (rest : List Char) : Prop :=
  ∀ c ∈ rest.head?, isBlank c = true

theorem endsAtBlank_of_forall {gap : List Char} (h : ∀ c ∈ gap, isBlank c = true) :
    EndsAtBlank gap :=
  fun c hc => h c (List.mem_of_mem_head? hc)

theorem endsAtBlank_append {gap : List Char} (h : ∀ c ∈ gap, isBlank c = true) (hne : gap ≠ [])
    (rest : List Char) : EndsAtBlank (gap ++ rest) := by
  obtain ⟨c, blanks, rfl⟩ := List.exists_cons_of_ne_nil hne
  rintro d ⟨⟩
  exact h c (List.mem_cons_self ..)

theorem EndsAtBlank.isDigit_eq_false {rest : List Char} (h : EndsAtBlank rest) :
    ∀ c ∈ rest.head?, c.isDigit = false := by
  intro c hc
  cases hdigit : c.isDigit with
  | false => rfl
  | true => exact absurd (h c hc) (by simp [isBlank_eq_false_of_isDigit hdigit])

theorem EndsAtBlank.endsNumeral {rest : List Char} (h : EndsAtBlank rest) : EndsNumeral rest := by
  refine fun c hc => ⟨h.isDigit_eq_false c hc, ?_⟩
  rintro rfl
  exact absurd (h _ hc) (by decide)

namespace Token

/-- Blanks are cut off together and have no token, so they might as well not be there. -/
theorem ofLexemes_scan_dropWhile (symbols : List (List Char)) (afterOperand : Bool)
    (cs : List Char) :
    ofLexemes afterOperand (Lexeme.scan symbols (cs.dropWhile isBlank)).1 =
        ofLexemes afterOperand (Lexeme.scan symbols cs).1 ∧
      (Lexeme.scan symbols (cs.dropWhile isBlank)).2 = (Lexeme.scan symbols cs).2 := by
  have hsplit : cs.takeWhile isBlank ++ cs.dropWhile isBlank = cs :=
    List.takeWhile_append_dropWhile
  cases hblanks : cs.takeWhile isBlank with
  | nil =>
    rw [hblanks, List.nil_append] at hsplit
    rw [hsplit]
    exact ⟨rfl, rfl⟩
  | cons c blanks =>
    have hfirst : Lexeme.first? symbols cs = some (.blank (c :: blanks)) := by
      rw [Lexeme.first?, Lexeme.blank?, hblanks]
      rfl
    rw [hblanks] at hsplit
    have hscan := @Lexeme.scan_append symbols (.blank (c :: blanks)) (cs.dropWhile isBlank)
      (List.cons_ne_nil c blanks) (hsplit.symm ▸ hfirst)
    have htext : (Lexeme.blank (c :: blanks)).text ++ cs.dropWhile isBlank = cs := hsplit
    rw [htext] at hscan
    rw [hscan]
    exact ⟨rfl, rfl⟩

/-- Blanks in front have no token. -/
theorem ofLexemes_scan_blanks (symbols : List (List Char)) (afterOperand : Bool)
    {gap : List Char} (hgap : ∀ c ∈ gap, isBlank c = true) (cs : List Char) :
    ofLexemes afterOperand (Lexeme.scan symbols (gap ++ cs)).1 =
        ofLexemes afterOperand (Lexeme.scan symbols cs).1 ∧
      (Lexeme.scan symbols (gap ++ cs)).2 = (Lexeme.scan symbols cs).2 := by
  obtain ⟨htokens, hrest⟩ := ofLexemes_scan_dropWhile symbols afterOperand (gap ++ cs)
  rw [List.dropWhile_append_of_pos hgap] at htokens hrest
  obtain ⟨htokens', hrest'⟩ := ofLexemes_scan_dropWhile symbols afterOperand cs
  exact ⟨htokens.symm.trans htokens', hrest.symm.trans hrest'⟩

/-- **A token in front of a blank is read back from its text**, unless it is a number with a sign
and stands behind an operand. -/
theorem ofLexemes_scan_spells {t : Token} {text rest : List Char} (hspells : t.Spells text)
    (hknown : t.Known standardOperators) (hrest : EndsAtBlank rest) {afterOperand : Bool}
    (hsign : ¬ (afterOperand = true ∧ t.hasMinusSign = true)) :
    ofLexemes afterOperand (Lexeme.scan standardOperators.keys (text ++ rest)).1 =
        t :: ofLexemes t.endsOperand (Lexeme.scan standardOperators.keys rest).1 ∧
      (Lexeme.scan standardOperators.keys (text ++ rest)).2 =
        (Lexeme.scan standardOperators.keys rest).2 := by
  cases hspells with
  | number proper rounded =>
    rename_i n value
    have hwhole : ¬ (afterOperand && n.negative) = true := by
      rwa [Bool.and_eq_true, ← rounded.hasMinusSign_eq]
    have hvalue : value = n.value := Binary64.rounded_iff.mp rounded
    rw [Lexeme.scan_numeral_append _ proper hrest.endsNumeral, ofLexemes, if_neg hwhole, hvalue]
    exact ⟨rfl, rfl⟩
  | operator hne =>
    rw [known_operator, keys_standardOperators] at hknown
    obtain ⟨c, hc, rfl⟩ := List.mem_map.mp hknown
    have hscan : Numeral.scan? (c :: rest) = none := by
      by_cases hminus : c = '-'
      · rw [hminus, Numeral.scan?, Numeral.scanUnsigned?_eq_none hrest.isDigit_eq_false]
        rfl
      · exact Numeral.scan?_eq_none (isDigit_eq_false_of_mem_operatorCharacters hc) hminus
    rw [List.singleton_append, Lexeme.scan_operator hc hscan]
    exact ⟨rfl, rfl⟩
  | opening =>
    rw [List.singleton_append, Lexeme.scan_opening]
    exact ⟨rfl, rfl⟩
  | closing =>
    rw [List.singleton_append, Lexeme.scan_closing]
    exact ⟨rfl, rfl⟩

end Token

/-- **Tokens that are written out are read back**, behind whatever token they stand. -/
theorem Renders.ofLexemes_scan {ts : List Token} {cs : List Char} (h : Renders ts cs)
    (hknown : ∀ t ∈ ts, t.Known standardOperators) : ∀ {afterOperand : Bool},
      SignsSeparatedFrom afterOperand ts →
        Token.ofLexemes afterOperand (Lexeme.scan standardOperators.keys cs).1 = ts ∧
          (Lexeme.scan standardOperators.keys cs).2 = [] := by
  induction h with
  | last hspells hgap =>
    rename_i t text gap
    intro afterOperand hsigns
    obtain ⟨htoken, hleft⟩ := Token.ofLexemes_scan_spells hspells
      (hknown t (List.mem_cons_self ..)) (endsAtBlank_of_forall hgap)
      (signsSeparatedFrom_cons.mp hsigns).1
    obtain ⟨hblanks, hend⟩ :=
      Token.ofLexemes_scan_blanks standardOperators.keys t.endsOperand hgap []
    rw [List.append_nil, scan_nil] at hblanks hend
    rw [htoken, hleft, hblanks, hend]
    exact ⟨rfl, rfl⟩
  | cons hspells hgap hne hrest ih =>
    rename_i t ts text gap rest
    intro afterOperand hsigns
    obtain ⟨hsign, hsigns⟩ := signsSeparatedFrom_cons.mp hsigns
    obtain ⟨hfirst, hknown⟩ := List.forall_mem_cons.mp hknown
    obtain ⟨htoken, hleft⟩ := Token.ofLexemes_scan_spells hspells hfirst
      (endsAtBlank_append hgap hne rest) hsign
    obtain ⟨hblanks, hend⟩ :=
      Token.ofLexemes_scan_blanks standardOperators.keys t.endsOperand hgap rest
    obtain ⟨htokens, hnothing⟩ := ih hknown hsigns
    rw [htoken, hleft, hblanks, hend, htokens, hnothing]
    exact ⟨rfl, rfl⟩

/-! ### What is read can be written -/

/-- The sign of a numeral is a minus sign. -/
theorem Numeral.minus_mem_text {n : Numeral} (h : n.negative = true) : '-' ∈ n.text := by
  simp [text, h]

/-- No operand ends where one is expected next. -/
theorem Token.endsOperand_eq_false {t : Token} (h : t.isOperator = true ∨ t.isOpening = true) :
    t.endsOperand = false := by
  cases t <;> simp_all [isOpening]

variable {after cs : List Char} {previous : Option Token} {ts : List Token}

/-- What is read has a text. -/
theorem Reads.exists_spells (h : Reads after previous cs ts) :
    ∀ t ∈ ts, ∃ text, t.Spells text := by
  induction h with
  | blanks _ => exact nofun
  | token _ hspells _ _ _ ih => exact List.forall_mem_cons.mpr ⟨⟨_, hspells⟩, ih⟩

/-- **Behind an operand no number with a sign is read.** -/
theorem Reads.signsSeparatedFrom (h : Reads after previous cs ts) : ∀ {afterOperand : Bool},
    (afterOperand = true → ∃ p ∈ previous, p.endsOperand = true) →
      SignsSeparatedFrom afterOperand ts := by
  induction h with
  | blanks _ => exact fun _ => signsSeparatedFrom_nil _
  | @token previous gap text rest t ts hgap hspells hsign hminus hrest ih =>
    intro afterOperand hprevious
    refine signsSeparatedFrom_cons.mpr ⟨?_, ih fun hends => ⟨t, rfl, hends⟩⟩
    rintro ⟨hafter, hsigned⟩
    cases hspells with
    | number proper rounded =>
      rw [Token.hasMinusSign, rounded.hasMinusSign_eq] at hsigned
      obtain ⟨p, hp, hends⟩ := hprevious hafter
      have hexpected := hsign rfl (Numeral.minus_mem_text hsigned) p hp
      rw [Token.endsOperand_eq_false hexpected] at hends
      cases hends
    | operator _ => cases hsigned
    | opening => cases hsigned
    | closing => cases hsigned

/-- The tokens of an expression are of the kind that can be written. -/
theorem writable_of_tokenize {expression : List Char}
    (h : tokenize standardOperators expression = .ok ts) : Writable ts := by
  have hreads := reads_of_tokenize h
  have hknown := known_of_tokenize (by decide) h
  refine ⟨ne_nil_of_tokenize h, fun t ht => ?_, ?_⟩
  · exact Token.isStandard_iff.mpr ⟨hknown t ht, hreads.exists_spells t ht⟩
  · exact signsSeparatedFrom_false.mp (hreads.signsSeparatedFrom nofun)

/-- **Writing tokens out and reading them.** Tokens of the calculator are read back from every text
that they can be written as, if no number with a minus sign stands behind an operand. The tokens of
every expression are of this kind, and all such tokens can be written. -/
theorem tokenize_renders :
    (∀ ts, Writable ts → ∀ gap cs, (∀ c ∈ gap, isBlank c = true) → Renders ts cs →
        tokenize standardOperators (gap ++ cs) = .ok ts) ∧
      (∀ expression ts, tokenize standardOperators expression = .ok ts → Writable ts) ∧
        ∀ ts, Writable ts → ∃ cs, Renders ts cs := by
  refine ⟨fun ts hts gap cs hgap hcs => ?_, fun expression ts h => ?_, fun ts hts => ?_⟩
  · obtain ⟨hblanks, hend⟩ :=
      Token.ofLexemes_scan_blanks standardOperators.keys false hgap cs
    obtain ⟨htokens, hrest⟩ := hcs.ofLexemes_scan
      (fun t ht => (Token.isStandard_iff.mp (hts.isStandard t ht)).1)
      (signsSeparatedFrom_false.mpr hts.signsSeparated)
    obtain ⟨t, ts, rfl⟩ := List.exists_cons_of_ne_nil hts.ne_nil
    exact tokenize_eq_ok (hblanks.trans htokens) (hend.trans hrest)
  · exact writable_of_tokenize h
  · exact exists_renders hts.ne_nil fun t ht => (Token.isStandard_iff.mp (hts.isStandard t ht)).2

/-- A minus sign in front of three, with a blank between them, and without one behind a closing
parenthesis. The negative zero has a sign of its own. -/
theorem tokenize_renders_differences :
    tokenize standardOperators ([' '] ++ ['-', '0', '.', ' ', '-', '\t', '3']) =
        .ok [.number (.ofBits 0x8000000000000000), .operator ['-'],
          .number (.ofBits 0x4008000000000000)] ∧
      Writable [.closing [')'], .operator ['-'], .number (.ofBits 0x4008000000000000)] ∧
        ∃ cs, Renders
          [.closing [')'], .operator ['-'], .number (.ofBits 0x4008000000000000)] cs := by
  have hzero : (Token.number (.ofBits 0x8000000000000000)).Spells ['-', '0', '.'] :=
    .number (n := ⟨true, ['0'], some []⟩)
      (@Numeral.proper_of_scan? ['-', '0', '.'] _ (by decide))
      (Binary64.rounded_iff.mpr (by decide +kernel))
  have hthree : (Token.number (.ofBits 0x4008000000000000)).Spells ['3'] :=
    .number (n := ⟨false, ['3'], none⟩) (@Numeral.proper_of_scan? ['3'] _ (by decide))
      (Binary64.rounded_iff.mpr (by decide +kernel))
  have hspace : ∀ c ∈ [' '], isBlank c = true := List.forall_mem_singleton.mpr rfl
  have htab : ∀ c ∈ ['\t'], isBlank c = true := List.forall_mem_singleton.mpr rfl
  have hrenders : Renders [.number (.ofBits 0x8000000000000000), .operator ['-'],
      .number (.ofBits 0x4008000000000000)] ['-', '0', '.', ' ', '-', '\t', '3'] :=
    .cons hzero hspace (List.cons_ne_nil _ _)
      (.cons (.operator (List.cons_ne_nil _ _)) htab (List.cons_ne_nil _ _)
        (@Renders.last _ _ [] hthree nofun))
  have hgroup : tokenize standardOperators [')', '-', '3'] =
      .ok [.closing [')'], .operator ['-'], .number (.ofBits 0x4008000000000000)] := by
    decide +kernel
  have hwritable := tokenize_renders.2.1 _ _ hgroup
  exact ⟨tokenize_renders.1 _ ⟨List.cons_ne_nil _ _, by decide +kernel, by decide +kernel⟩ _ _
    hspace hrenders, hwritable, tokenize_renders.2.2 _ hwritable⟩

end Expression

end ChatCalculator
