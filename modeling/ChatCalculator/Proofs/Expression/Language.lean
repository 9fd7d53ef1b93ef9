import ChatCalculator.Proofs.Expression.Cutting
import Mathlib.Data.List.DropRight

/-!
# The language of expressions

Which texts have tokens can be said of each character by itself and of what stands before it,
without cutting the text: the character must occur in expressions, and a point must directly
follow digits that do not follow a point themselves. The first character for which that fails is
the one that is reported.

## Why looking back is enough

Cutting always takes as much as it can, so whether a point belongs to a numeral depends on where
that numeral began. What is needed is that a run of digits always begins a numeral, unless a point
stands in front. It does, since a piece never ends between two digits; `Boundary` is what is known
between two pieces, and it passes from one to the next.

## Main definitions

* `OccursInExpression`: a character of expressions
* `Misplaced`: a character that cannot stand behind a text
* `Offends`: an index at which a text leaves the language

## Main results

* `fits_scan`: what is cut off has no misplaced character, and what is left starts with one
* `tokenize_reports_first_offence`: which texts have tokens, and what is reported of the others
-/

namespace ChatCalculator

namespace Expression

/-- A character of expressions: a digit, a blank, an operator, a parenthesis or the point. -/
def OccursInExpression (c : Char) : Prop :=
  c.isDigit = true ∨ isBlank c = true ∨ c ∈ ['^', '/', '*', '+', '-', '(', ')', '.']

/-- A character that cannot stand behind a text. A point must directly follow a digit, and the run
of digits that it follows must not follow a point. -/
def Misplaced (before : List Char) (c : Char) : Prop :=
  ¬ OccursInExpression c ∨
    c = '.' ∧ ((∀ d ∈ before.getLast?, d.isDigit = false) ∨
      (before.rdropWhile Char.isDigit).getLast? = some '.')

/-- An index at which a text leaves the language of expressions. -/
def Offends (expression : List Char) (p : ℕ) : Prop :=
  ∃ c, expression[p]? = some c ∧ Misplaced (expression.take p) c

instance (c : Char) : Decidable (OccursInExpression c) :=
  inferInstanceAs (Decidable (_ ∨ _ ∨ _))

-- The quantifiers are bounded by an option: going through all characters would not end in time.
instance (before : List Char) (c : Char) : Decidable (Misplaced before c) :=
  have : Decidable (∀ d ∈ before.getLast?, d.isDigit = false) := Option.decidableForallMem _
  inferInstanceAs (Decidable (¬ _ ∨ _ ∧ (_ ∨ _)))

instance (expression : List Char) (p : ℕ) : Decidable (Offends expression p) :=
  Option.decidableExistsMem expression[p]?

theorem Offends.lt_length {expression : List Char} {p : ℕ} (h : Offends expression p) :
    p < expression.length := by
  obtain ⟨c, hc, -⟩ := h
  exact (List.getElem?_eq_some_iff.mp hc).1

/-- No character of a text is misplaced, given what stands before it. -/
def Fits (before : List Char) : List Char → Prop
  | [] => True
  | c :: cs => ¬ Misplaced before c ∧ Fits (before ++ [c]) cs

/-! ### Characters that fit -/

theorem misplaced_iff_of_ne_point {before : List Char} {c : Char} (h : c ≠ '.') :
    Misplaced before c ↔ ¬ OccursInExpression c := by
  simp [Misplaced, h]

theorem fits_append {before xs ys : List Char} :
    Fits before (xs ++ ys) ↔ Fits before xs ∧ Fits (before ++ xs) ys := by
  induction xs generalizing before with
  | nil => simp [Fits]
  | cons x xs ih =>
    rw [List.cons_append, Fits, Fits, ih, List.append_assoc, List.singleton_append, and_assoc]

theorem fits_of_forall {before cs : List Char}
    (h : ∀ c ∈ cs, OccursInExpression c ∧ c ≠ '.') : Fits before cs := by
  induction cs generalizing before with
  | nil => trivial
  | cons c cs ih =>
    obtain ⟨⟨hoccurs, hne⟩, hcs⟩ := List.forall_mem_cons.mp h
    exact ⟨fun hc => (misplaced_iff_of_ne_point hne).mp hc hoccurs, ih hcs⟩

theorem not_misplaced_of_fits {before cs : List Char} (h : Fits before cs) {p : ℕ} {c : Char}
    (hc : cs[p]? = some c) : ¬ Misplaced (before ++ cs.take p) c := by
  induction cs generalizing before p with
  | nil => cases hc
  | cons d cs ih =>
    obtain ⟨hd, hcs⟩ := h
    cases p with
    | zero =>
      cases hc
      simpa using hd
    | succ p =>
      have hnot := ih hcs hc
      rwa [List.append_assoc, List.singleton_append] at hnot

/-- In front of what is left of a text there is no offence, if the characters there fit. -/
theorem not_offends_of_fits {cs rest : List Char} (h : Fits [] cs) {p : ℕ} (hp : p < cs.length) :
    ¬ Offends (cs ++ rest) p := by
  rintro ⟨c, hc, hmisplaced⟩
  rw [List.getElem?_append_left hp] at hc
  rw [List.take_append_of_le_length hp.le] at hmisplaced
  exact not_misplaced_of_fits h hc hmisplaced

/-! ### Between two pieces -/

/-- A text that does not end within a numeral. -/
def EndsPlain (before : List Char) : Prop :=
  ∀ d ∈ before.getLast?, d.isDigit = false ∧ d ≠ '.'

/-- What is known between two pieces: a point that follows is misplaced, and a digit that follows
begins a numeral. -/
structure Boundary (before rest : List Char) : Prop where
  /-- A point would have been taken by the numeral before it. -/
  point : rest.head? = some '.' → Misplaced before '.'
  /-- A digit would have been taken by the numeral before it. -/
  digit : ∀ c ∈ rest.head?, c.isDigit = true → EndsPlain before

theorem EndsPlain.boundary {before : List Char} (h : EndsPlain before) (rest : List Char) :
    Boundary before rest where
  point _ := .inr ⟨rfl, .inl fun d hd => (h d hd).1⟩
  digit _ _ _ := h

theorem endsPlain_nil : EndsPlain [] := by
  intro d hd
  cases hd

theorem endsPlain_append {before cs : List Char} (hne : cs ≠ [])
    (h : ∀ c ∈ cs, c.isDigit = false ∧ c ≠ '.') : EndsPlain (before ++ cs) := by
  intro d hd
  rw [List.getLast?_append_of_ne_nil _ hne] at hd
  exact h d (List.mem_of_getLast? hd)

/-- Behind digits one sees what stands in front of them. -/
theorem rdropWhile_append_of_forall {before digits : List Char}
    (h : ∀ c ∈ digits, c.isDigit = true) :
    (before ++ digits).rdropWhile Char.isDigit = before.rdropWhile Char.isDigit := by
  rw [List.rdropWhile, List.reverse_append, List.dropWhile_append_of_pos]
  · rfl
  · exact fun c hc => h c (List.mem_reverse.mp hc)

/-- A point fits behind the digits of a numeral that begins where no other one ends. -/
theorem not_misplaced_point {before whole : List Char} (hbefore : EndsPlain before)
    (hne : whole ≠ []) (hwhole : ∀ c ∈ whole, c.isDigit = true) :
    ¬ Misplaced (before ++ whole) '.' := by
  rintro (hoccurs | ⟨-, hlast | hpoint⟩)
  · exact hoccurs (.inr (.inr (by decide)))
  · have hdigit := hlast (whole.getLast hne) (by simp [List.getLast?_eq_some_getLast, hne])
    rw [hwhole _ (List.getLast_mem hne)] at hdigit
    cases hdigit
  · have hself : before.rdropWhile Char.isDigit = before := by
      rw [List.rdropWhile_eq_self_iff]
      intro hnil
      rw [(hbefore _ (List.getLast?_eq_some_getLast hnil)).1]
      exact Bool.false_ne_true
    rw [rdropWhile_append_of_forall hwhole, hself] at hpoint
    exact (hbefore '.' hpoint).2 rfl

/-- A point does not fit behind a numeral that has one. -/
theorem misplaced_point_append {before digits : List Char}
    (hdigits : ∀ c ∈ digits, c.isDigit = true) :
    Misplaced (before ++ '.' :: digits) '.' := by
  refine .inr ⟨rfl, .inr ?_⟩
  have hsplit : before ++ '.' :: digits = (before ++ ['.']) ++ digits := by simp
  rw [hsplit, rdropWhile_append_of_forall hdigits,
    List.rdropWhile_concat_neg _ _ _ (by decide), List.getLast?_concat]

/-! ### Numerals -/

theorem occursInExpression_of_isDigit {c : Char} (h : c.isDigit = true) :
    OccursInExpression c ∧ c ≠ '.' := by
  refine ⟨.inl h, ?_⟩
  rintro rfl
  cases h

/-- The sign of a numeral, if it has one, begins it where no other one ends. -/
theorem endsPlain_sign {before : List Char} {n : Numeral} (h : n.Proper) {rest : List Char}
    (hb : Boundary before (n.text ++ rest)) :
    EndsPlain (before ++ if n.negative then ['-'] else []) := by
  obtain ⟨negative, whole, fraction⟩ := n
  cases negative with
  | true =>
    refine endsPlain_append (List.cons_ne_nil _ _) fun c hc => ?_
    rw [List.mem_singleton.mp hc]
    decide
  | false =>
    cases whole with
    | nil => exact absurd rfl h.whole_ne_nil
    | cons c whole =>
      have hplain := hb.digit c rfl (h.isDigit_whole c List.mem_cons_self)
      simpa using hplain

/-- No character of a numeral is misplaced. -/
theorem fits_numeral {before : List Char} {n : Numeral} (h : n.Proper) {rest : List Char}
    (hb : Boundary before (n.text ++ rest)) : Fits before n.text := by
  have hplain := endsPlain_sign h hb
  rw [Numeral.text, fits_append, fits_append]
  refine ⟨fits_of_forall fun c hc => ?_,
    fits_of_forall fun c hc => occursInExpression_of_isDigit (h.isDigit_whole c hc), ?_⟩
  · obtain rfl : c = '-' := by
      split at hc
      · exact List.mem_singleton.mp hc
      · cases hc
    exact ⟨.inr (.inr (by decide)), by decide⟩
  · cases hfraction : n.fraction with
    | none => trivial
    | some digits =>
      refine ⟨not_misplaced_point hplain h.whole_ne_nil h.isDigit_whole, fits_of_forall ?_⟩
      exact fun c hc => occursInExpression_of_isDigit (h.isDigit_fraction digits hfraction c hc)

/-- Behind a numeral a new piece begins, or there is an offence. -/
theorem boundary_numeral (before : List Char) {n : Numeral} {rest : List Char}
    (h : Numeral.scan? (n.text ++ rest) = some n) : Boundary (before ++ n.text) rest := by
  obtain ⟨hdigit, hpoint⟩ := Numeral.head?_of_scan? h
  refine ⟨fun hrest => ?_, fun c hc hd => ?_⟩
  · obtain ⟨digits, hfraction⟩ := hpoint hrest
    have hdigits := (Numeral.proper_of_scan? h).isDigit_fraction digits hfraction
    have htext : before ++ n.text =
        (before ++ (if n.negative then ['-'] else []) ++ n.whole) ++ '.' :: digits := by
      simp [Numeral.text, hfraction, Numeral.fractionText]
    rw [htext]
    exact misplaced_point_append hdigits
  · rw [hdigit c hc] at hd
    cases hd

/-! ### Pieces -/

namespace Lexeme

/-- The characters of pieces other than numerals. -/
theorem occursInExpression_of_mem_text {cs : List Char} {l : Lexeme}
    (h : first? standardOperators.keys cs = some l) (hl : ∀ n, l ≠ .numeral n) :
    ∀ c ∈ l.text, OccursInExpression c ∧ c.isDigit = false ∧ c ≠ '.' := by
  intro c hc
  cases l with
  | blank blanks =>
    have hblank := isBlank_of_first? h c hc
    refine ⟨.inr (.inl hblank), ?_, ?_⟩
    · cases hdigit : c.isDigit with
      | false => rfl
      | true =>
        rw [isBlank_eq_false_of_isDigit hdigit] at hblank
        cases hblank
    · rintro rfl
      cases hblank
  | numeral n => exact absurd rfl (hl n)
  | operator symbol =>
    have hall : operatorCharacters.all (fun c =>
        c ∈ ['^', '/', '*', '+', '-', '(', ')', '.'] ∧ c.isDigit = false ∧ c ≠ '.') = true := by
      decide
    have hmem := mem_operatorCharacters (mem_of_first? (List.ne_nil_of_mem hc) h) hc
    obtain ⟨hoccurs, hrest⟩ := of_decide_eq_true (List.all_eq_true.mp hall c hmem)
    exact ⟨.inr (.inr hoccurs), hrest⟩
  | opening =>
    rw [List.mem_singleton.mp hc]
    exact ⟨.inr (.inr (by decide)), by decide⟩
  | closing =>
    rw [List.mem_singleton.mp hc]
    exact ⟨.inr (.inr (by decide)), by decide⟩

/-- **One piece**: none of its characters is misplaced, and behind it a new piece begins. -/
theorem fits_text {before rest : List Char} {l : Lexeme} (hne : l.text ≠ [])
    (h : first? standardOperators.keys (l.text ++ rest) = some l)
    (hb : Boundary before (l.text ++ rest)) :
    Fits before l.text ∧ Boundary (before ++ l.text) rest := by
  by_cases hnumeral : ∃ n, l = .numeral n
  · obtain ⟨n, rfl⟩ := hnumeral
    have hread : Numeral.scan? (n.text ++ rest) = some n := scan?_of_first? h
    exact ⟨fits_numeral (Numeral.proper_of_scan? hread) hb, boundary_numeral before hread⟩
  · have hchars := occursInExpression_of_mem_text h fun n hn => hnumeral ⟨n, hn⟩
    exact ⟨fits_of_forall fun c hc => ⟨(hchars c hc).1, (hchars c hc).2.2⟩,
      (endsPlain_append hne fun c hc => (hchars c hc).2).boundary rest⟩

/-- Every character of expressions but the point starts a piece. -/
theorem exists_first?_of_occursInExpression {c : Char} (h : OccursInExpression c) (hne : c ≠ '.')
    (cs : List Char) :
    ∃ l, first? standardOperators.keys (c :: cs) = some l ∧ l.text ≠ [] := by
  rcases h with hdigit | hblank | hmem
  · obtain ⟨n, hn, -⟩ := @Numeral.scan?_of_isDigit c cs hdigit
    exact ⟨_, first?_of_scan? _ hn, Numeral.text_ne_nil (Numeral.proper_of_scan? hn)⟩
  · rw [first?_standardOperators_cons, if_pos hblank]
    exact ⟨_, rfl, List.cons_ne_nil _ _⟩
  · cases hscan : Numeral.scan? (c :: cs) with
    | some n =>
      exact ⟨_, first?_of_scan? _ hscan, Numeral.text_ne_nil (Numeral.proper_of_scan? hscan)⟩
    | none =>
      have hcases : c ∈ operatorCharacters ∨ c = '(' ∨ c = ')' := by
        simp only [List.mem_cons, List.not_mem_nil, or_false] at hmem
        simp only [operatorCharacters, List.mem_cons, List.not_mem_nil, or_false]
        tauto
      rcases hcases with hoperator | rfl | rfl
      · exact ⟨_, first?_standardOperators_of_mem hoperator hscan, List.cons_ne_nil _ _⟩
      · exact ⟨_, first?_opening cs, List.cons_ne_nil _ _⟩
      · exact ⟨_, first?_closing cs, List.cons_ne_nil _ _⟩

/-- **Where cutting ends.** What has been cut off has no misplaced character, and what is left
starts with one. -/
theorem fits_scan (cs : List Char) : ∀ before, Boundary before cs →
    Fits before ((scan standardOperators.keys cs).1.flatMap text) ∧
      ∀ c ∈ (scan standardOperators.keys cs).2.head?,
        Misplaced (before ++ (scan standardOperators.keys cs).1.flatMap text) c := by
  induction cs using @scan_induction standardOperators.keys with
  | stop cs hscan hempty =>
    intro before hb
    rw [hscan]
    refine ⟨trivial, fun c hc => ?_⟩
    rw [List.flatMap_nil, List.append_nil]
    by_cases hpoint : c = '.'
    · rw [hpoint] at hc ⊢
      exact hb.point hc
    · rw [misplaced_iff_of_ne_point hpoint]
      intro hoccurs
      obtain ⟨rest, rfl⟩ := List.head?_eq_some_iff.mp hc
      obtain ⟨l, hl, hne⟩ := exists_first?_of_occursInExpression hoccurs hpoint rest
      exact hne (hempty l hl)
  | step l rest hne hfirst ih =>
    intro before hb
    obtain ⟨hfits, hnext⟩ := fits_text hne hfirst hb
    obtain ⟨hrest, hleft⟩ := ih (before ++ l.text) hnext
    rw [scan_append hne hfirst]
    refine ⟨?_, ?_⟩
    · rw [List.flatMap_cons, fits_append]
      exact ⟨hfits, hrest⟩
    · rw [List.flatMap_cons, ← List.append_assoc]
      exact hleft

/-- Blanks are the pieces all of whose characters are blank. -/
theorem exists_eq_blank_iff {cs : List Char} {l : Lexeme}
    (h : first? standardOperators.keys cs = some l) (hne : l.text ≠ []) :
    (∃ blanks, l = .blank blanks) ↔ ∀ c ∈ l.text, isBlank c = true := by
  have hother : ∀ c ∈ l.text, isBlank c = false → (∀ blanks, l ≠ .blank blanks) →
      ((∃ blanks, l = .blank blanks) ↔ ∀ c ∈ l.text, isBlank c = true) := by
    intro c hc hfalse hl
    constructor
    · rintro ⟨blanks, heq⟩
      exact absurd heq (hl blanks)
    · intro hall
      rw [hall c hc] at hfalse
      cases hfalse
  cases l with
  | blank blanks => exact ⟨fun _ => isBlank_of_first? h, fun _ => ⟨_, rfl⟩⟩
  | numeral n =>
    have hproper := Numeral.proper_of_scan? (scan?_of_first? h)
    obtain ⟨c, hc⟩ := List.exists_mem_of_ne_nil _ hproper.whole_ne_nil
    have hmem : c ∈ (numeral n).text := by simp [text, Numeral.text, hc]
    exact hother c hmem (isBlank_eq_false_of_isDigit (hproper.isDigit_whole c hc))
      fun _ => Lexeme.noConfusion
  | operator symbol =>
    obtain ⟨c, hc⟩ := List.exists_mem_of_ne_nil _ hne
    have hmem := mem_operatorCharacters (mem_of_first? hne h) hc
    exact hother c hc (isBlank_eq_false_of_mem_operatorCharacters hmem) fun _ => Lexeme.noConfusion
  | opening => exact hother '(' (List.mem_singleton_self _) rfl fun _ => Lexeme.noConfusion
  | closing => exact hother ')' (List.mem_singleton_self _) rfl fun _ => Lexeme.noConfusion

/-- A text has no tokens if nothing but blanks is cut off. -/
theorem ofLexemes_scan_eq_nil_iff (cs : List Char) :
    Token.ofLexemes false (scan standardOperators.keys cs).1 = [] ↔
      ∀ c ∈ (scan standardOperators.keys cs).1.flatMap text, isBlank c = true := by
  have hpieces := forall_mem_scan
    (P := fun l => (∃ blanks, l = .blank blanks) ↔ ∀ c ∈ l.text, isBlank c = true)
    (fun cs l => @exists_eq_blank_iff cs l) cs
  rw [Token.ofLexemes_eq_nil_iff]
  constructor
  · intro h c hc
    obtain ⟨l, hl, hcl⟩ := List.mem_flatMap.mp hc
    exact (hpieces l hl).mp (h l hl) c hcl
  · intro h l hl
    exact (hpieces l hl).mpr fun c hc => h c (List.mem_flatMap.mpr ⟨l, hl, hc⟩)

/-- A text that is cut without rest is of the language. -/
theorem not_offends_of_scan {cs : List Char} {ls : List Lexeme}
    (hscan : scan standardOperators.keys cs = (ls, [])) (p : ℕ) : ¬ Offends cs p := by
  have hfits := (fits_scan cs [] (endsPlain_nil.boundary cs)).1
  have hpieces := flatMap_text_scan standardOperators.keys cs
  rw [hscan, List.append_nil] at hpieces
  rw [hscan, hpieces] at hfits
  rintro ⟨c, hc, hmisplaced⟩
  exact not_misplaced_of_fits hfits hc hmisplaced

/-- A text that is not cut to its end leaves the language where cutting ends, and not before. -/
theorem offends_of_scan {cs : List Char} {ls : List Lexeme} {c : Char} {rest : List Char}
    (hscan : scan standardOperators.keys cs = (ls, c :: rest)) :
    cs[cs.length - (c :: rest).length]? = some c ∧
      Offends cs (cs.length - (c :: rest).length) ∧
        ∀ q < cs.length - (c :: rest).length, ¬ Offends cs q := by
  obtain ⟨hfits, hleft⟩ := fits_scan cs [] (endsPlain_nil.boundary cs)
  have hpieces := flatMap_text_scan standardOperators.keys cs
  rw [hscan] at hfits hleft hpieces
  generalize ls.flatMap text = cut at hfits hleft hpieces
  subst hpieces
  have hlength : (cut ++ c :: rest).length - (c :: rest).length = cut.length := by simp
  have hc : (cut ++ c :: rest)[cut.length]? = some c := by simp
  rw [hlength]
  refine ⟨hc, ⟨c, hc, ?_⟩, fun q hq => not_offends_of_fits hfits hq⟩
  rw [List.take_left]
  exact hleft c rfl

end Lexeme

/-- **Which texts have tokens, and what is reported of the others.** If the text leaves the
language, the first character for which it does is reported with its index. Otherwise the text has
tokens unless all its characters are blank, and then that is reported. -/
theorem tokenize_reports_first_offence (expression : List Char) :
    (∀ p, Offends expression p → (∀ q < p, ¬ Offends expression q) →
      ∃ c, expression[p]? = some c ∧
        tokenize standardOperators expression =
          .error ⟨.invalidCharacter [c] p, some expression⟩) ∧
    ((∀ p, ¬ Offends expression p) → (∀ c ∈ expression, isBlank c = true) →
      tokenize standardOperators expression = .error ⟨.emptyExpression, some expression⟩) ∧
    ((∀ p, ¬ Offends expression p) → (∃ c ∈ expression, isBlank c = false) →
      ∃ ts, tokenize standardOperators expression = .ok ts ∧ ts ≠ []) := by
  have hpieces := Lexeme.flatMap_text_scan standardOperators.keys expression
  have hnil := Lexeme.ofLexemes_scan_eq_nil_iff expression
  rcases tokenize_cases standardOperators expression with ⟨ls, hscan, hne, ht⟩ |
    ⟨ls, hscan, hblank, ht⟩ | ⟨ls, c, rest, hscan, ht⟩
  · have hclean := Lexeme.not_offends_of_scan hscan
    rw [hscan, List.append_nil] at hpieces
    rw [hscan, hpieces] at hnil
    exact ⟨fun p hp => absurd hp (hclean p), fun _ hall => absurd (hnil.mpr hall) hne,
      fun _ _ => ⟨_, ht, hne⟩⟩
  · have hclean := Lexeme.not_offends_of_scan hscan
    rw [hscan, List.append_nil] at hpieces
    rw [hscan, hpieces] at hnil
    refine ⟨fun p hp => absurd hp (hclean p), fun _ _ => ht, ?_⟩
    rintro - ⟨c, hc, hfalse⟩
    rw [hnil.mp hblank c hc] at hfalse
    cases hfalse
  · obtain ⟨hc, hoffends, hbefore⟩ := Lexeme.offends_of_scan hscan
    refine ⟨fun p hp hfirst => ?_, fun h => absurd hoffends (h _), fun h => absurd hoffends (h _)⟩
    have hindex : p = expression.length - (c :: rest).length := by
      rcases Nat.lt_trichotomy p (expression.length - (c :: rest).length) with hlt | heq | hgt
      · exact absurd hp (hbefore p hlt)
      · exact heq
      · exact absurd hoffends (hfirst _ hgt)
    exact ⟨c, hindex ▸ hc, hindex ▸ ht⟩

/-- A second point behind digits, and a text that has tokens though it has no value. -/
theorem tokenize_reports_second_point :
    (Offends ['1', '.', '2', '.', '3'] 3 ∧ (∀ q < 3, ¬ Offends ['1', '.', '2', '.', '3'] q) ∧
      ∃ c, ['1', '.', '2', '.', '3'][3]? = some c ∧
        tokenize standardOperators ['1', '.', '2', '.', '3'] =
          .error ⟨.invalidCharacter [c] 3, some ['1', '.', '2', '.', '3']⟩) ∧
    (∀ p, ¬ Offends ['2', '.', ' ', '-'] p) ∧
      ∃ ts, tokenize standardOperators ['2', '.', ' ', '-'] = .ok ts ∧ ts ≠ [] := by
  have hoffends : Offends ['1', '.', '2', '.', '3'] 3 := by decide
  have hfirst : ∀ q < 3, ¬ Offends ['1', '.', '2', '.', '3'] q := by decide
  have hclean : ∀ p, ¬ Offends ['2', '.', ' ', '-'] p := by
    have hall : ∀ p < 4, ¬ Offends ['2', '.', ' ', '-'] p := by decide
    exact fun p hp => hall p hp.lt_length hp
  exact ⟨⟨hoffends, hfirst, (tokenize_reports_first_offence _).1 3 hoffends hfirst⟩, hclean,
    (tokenize_reports_first_offence _).2.2 hclean ⟨'2', by decide, by decide⟩⟩

end Expression

end ChatCalculator
