import ChatCalculator.Proofs.Expression.Numeral

/-!
# Cutting with the operators of the calculator

The operators of the calculator are single characters, so what the first piece of a text is depends
on its first character alone, or, behind a minus sign, on the first two. That makes it possible to
cut a text character by character: behind every character but those of a numeral, the rest is cut
as if it stood alone.

The minus sign is the exception, since it is cut as part of a numeral in front of a digit. Behind
an operand the sign is split off again, so there it makes no difference which of the two it was.

## Main definitions

* `operatorCharacters`: the characters that are operators

## Main results

* `Lexeme.first?_standardOperators_cons`: the first piece by the first character
* `Token.ofLexemes_scan_operator`: behind an operand an operator character is an operator,
  whatever follows
-/

namespace ChatCalculator

namespace Expression

/-- The characters that are operators of the calculator. -/
def operatorCharacters : List Char := ['^', '/', '*', '+', '-']

theorem keys_standardOperators : standardOperators.keys = operatorCharacters.map ([·]) := rfl

/-- A symbol consists of operator characters. -/
theorem mem_operatorCharacters {symbol : List Char} (h : symbol ∈ standardOperators.keys) {c : Char}
    (hc : c ∈ symbol) : c ∈ operatorCharacters := by
  rw [keys_standardOperators] at h
  obtain ⟨d, hd, rfl⟩ := List.mem_map.mp h
  rwa [List.mem_singleton.mp hc]

theorem isBlank_eq_false_of_mem_operatorCharacters {c : Char} (h : c ∈ operatorCharacters) :
    isBlank c = false := by
  have hall : operatorCharacters.all (fun c => isBlank c = false) = true := by decide
  exact of_decide_eq_true (List.all_eq_true.mp hall c h)

theorem isDigit_eq_false_of_mem_operatorCharacters {c : Char} (h : c ∈ operatorCharacters) :
    c.isDigit = false := by
  have hall : operatorCharacters.all (fun c => c.isDigit = false) = true := by decide
  exact of_decide_eq_true (List.all_eq_true.mp hall c h)

/-! ### Numerals by their first character -/

theorem dropWhile_of_takeWhile_append {p : Char → Bool} {xs ys : List Char}
    (h : (xs ++ ys).takeWhile p = xs) : (xs ++ ys).dropWhile p = ys := by
  have hsplit : (xs ++ ys).takeWhile p ++ (xs ++ ys).dropWhile p = xs ++ ys :=
    List.takeWhile_append_dropWhile
  rw [h] at hsplit
  exact List.append_cancel_left hsplit

/-- What is taken as far as possible is not followed by more of the same. -/
theorem head?_of_takeWhile_append {p : Char → Bool} {xs ys : List Char}
    (h : (xs ++ ys).takeWhile p = xs) : ∀ c ∈ ys.head?, p c = false := by
  intro c hc
  have hnot := List.head?_dropWhile_not p (xs ++ ys)
  rw [dropWhile_of_takeWhile_append h, Option.mem_def.mp hc] at hnot
  exact hnot

namespace Numeral

theorem scanUnsigned?_eq_none {cs : List Char} (h : ∀ c ∈ cs.head?, c.isDigit = false) :
    scanUnsigned? cs = none := by
  cases cs with
  | nil => rfl
  | cons c cs =>
    rw [scanUnsigned?, List.takeWhile_cons_of_neg (by simp [h c rfl])]

theorem scan?_of_scanUnsigned? {cs : List Char} {n : Numeral} (h : scanUnsigned? cs = some n) :
    scan? cs = some n := by
  unfold scan?
  split
  · rw [scanUnsigned?_eq_none fun d hd => by cases hd; rfl] at h
    cases h
  · exact h

theorem scan?_cons_of_ne {c : Char} {cs : List Char} (h : c ≠ '-') :
    scan? (c :: cs) = scanUnsigned? (c :: cs) := by
  rw [scan?]
  intro ds hds
  exact h (List.cons.inj hds).1

theorem scan?_of_isDigit {c : Char} {cs : List Char} (h : c.isDigit = true) :
    ∃ n, scan? (c :: cs) = some n ∧ n.negative = false := by
  have hread : ∃ n, scanUnsigned? (c :: cs) = some n ∧ n.negative = false := by
    rw [scanUnsigned?, List.takeWhile_cons_of_pos h]
    exact ⟨_, rfl, rfl⟩
  obtain ⟨n, hn, hnegative⟩ := hread
  exact ⟨n, scan?_of_scanUnsigned? hn, hnegative⟩

theorem scan?_eq_none {c : Char} {cs : List Char} (hdigit : c.isDigit = false) (h : c ≠ '-') :
    scan? (c :: cs) = none := by
  rw [scan?_cons_of_ne h]
  exact scanUnsigned?_eq_none fun d hd => by
    cases hd
    exact hdigit

/-- What is read behind the sign. -/
theorem scanUnsigned?_of_scan? {n : Numeral} {rest : List Char}
    (h : scan? (n.text ++ rest) = some n) :
    scanUnsigned? (n.whole ++ (fractionText n.fraction ++ rest)) = some n.unsigned := by
  obtain ⟨negative, whole, fraction⟩ := n
  cases negative with
  | true =>
    have htext : (⟨true, whole, fraction⟩ : Numeral).text ++ rest =
        '-' :: (whole ++ (fractionText fraction ++ rest)) := by
      simp [text]
    rw [htext] at h
    obtain ⟨m, hm, hn⟩ := Option.map_eq_some_iff.mp h
    obtain ⟨hsign, -⟩ := text_of_scanUnsigned? hm
    obtain ⟨_, _, _⟩ := m
    cases hsign
    cases hn
    exact hm
  | false =>
    have htext : (⟨false, whole, fraction⟩ : Numeral).text ++ rest =
        whole ++ (fractionText fraction ++ rest) := by
      simp [text]
    rw [htext] at h
    unfold scan? at h
    split at h
    · obtain ⟨m, -, hn⟩ := Option.map_eq_some_iff.mp h
      cases hn
    · exact h

/-- **A numeral is read as far as it goes**: no digit follows it, and a point only if it already
has one. -/
theorem head?_of_scan? {n : Numeral} {rest : List Char} (h : scan? (n.text ++ rest) = some n) :
    (∀ c ∈ rest.head?, c.isDigit = false) ∧
      (rest.head? = some '.' → ∃ digits, n.fraction = some digits) := by
  have hunsigned := scanUnsigned?_of_scan? h
  obtain ⟨negative, whole, fraction⟩ := n
  rw [scanUnsigned?] at hunsigned
  split at hunsigned
  · cases hunsigned
  · rename_i c digits hwhole
    obtain ⟨rfl, hfraction⟩ : c :: digits = whole ∧ _ := by
      simpa [unsigned] using hunsigned
    rw [dropWhile_of_takeWhile_append hwhole] at hfraction
    cases fraction with
    | none =>
      refine ⟨head?_of_takeWhile_append hwhole, fun hpoint => ?_⟩
      cases rest with
      | nil => cases hpoint
      | cons d rest =>
        cases hpoint
        cases hfraction
    | some places =>
      have hplaces : (places ++ rest).takeWhile Char.isDigit = places := Option.some.inj hfraction
      exact ⟨head?_of_takeWhile_append hplaces, fun _ => ⟨places, rfl⟩⟩

end Numeral

/-! ### Pieces by their first character -/

namespace Lexeme

theorem blank?_cons (c : Char) (cs : List Char) :
    blank? (c :: cs) = if isBlank c then some (.blank (c :: cs.takeWhile isBlank)) else none := by
  rw [blank?]
  cases h : isBlank c <;> simp [h]

theorem symbol?_standardOperators_cons (c : Char) (cs : List Char) :
    symbol? standardOperators.keys (c :: cs) =
      if c ∈ operatorCharacters then some (.operator [c]) else none := by
  have hprefix : ((fun s : List Char => s.isPrefixOf (c :: cs)) ∘ ([·] : Char → List Char)) =
      fun d => d == c := by
    funext d
    simp [List.isPrefixOf]
  rw [symbol?, if_neg (by decide), keys_standardOperators, List.find?_map, hprefix]
  by_cases h : c ∈ operatorCharacters
  · have hsome : (operatorCharacters.find? (· == c)).isSome :=
      List.find?_isSome.mpr ⟨c, h, beq_self_eq_true c⟩
    obtain ⟨d, hfind⟩ := Option.isSome_iff_exists.mp hsome
    have hd : d = c := by simpa using List.find?_some hfind
    rw [hfind, if_pos h, hd]
    rfl
  · have hfind : operatorCharacters.find? (· == c) = none := by
      rw [List.find?_eq_none]
      intro d hd hdc
      exact h (beq_iff_eq.mp hdc ▸ hd)
    rw [hfind, if_neg h]
    rfl

theorem parenthesis?_cons (c : Char) (cs : List Char) :
    parenthesis? (c :: cs) =
      if c = '(' then some .opening else if c = ')' then some .closing else none := by
  rw [parenthesis?.eq_def]
  split <;> simp_all

/-- **The first piece by the first character.** -/
theorem first?_standardOperators_cons (c : Char) (cs : List Char) :
    first? standardOperators.keys (c :: cs) =
      if isBlank c then some (.blank (c :: cs.takeWhile isBlank))
      else
        ((Numeral.scan? (c :: cs)).map .numeral).or
          (if c ∈ operatorCharacters then some (.operator [c])
            else if c = '(' then some .opening
            else if c = ')' then some .closing
            else none) := by
  rw [first?, blank?_cons, symbol?_standardOperators_cons, parenthesis?_cons]
  split
  · rfl
  · simp only [Option.orElse_eq_orElse, Option.orElse_eq_or, Option.none_or]
    split <;> simp

theorem first?_standardOperators_of_mem {c : Char} (h : c ∈ operatorCharacters) {cs : List Char}
    (hscan : Numeral.scan? (c :: cs) = none) :
    first? standardOperators.keys (c :: cs) = some (.operator [c]) := by
  rw [first?_standardOperators_cons, isBlank_eq_false_of_mem_operatorCharacters h, hscan, if_pos h]
  rfl

/-! ### Cutting by the first character -/

/-- An operator character is cut off, unless it is a minus sign in front of a digit. -/
theorem scan_operator {c : Char} (h : c ∈ operatorCharacters) {cs : List Char}
    (hscan : Numeral.scan? (c :: cs) = none) :
    scan standardOperators.keys (c :: cs) =
      (.operator [c] :: (scan standardOperators.keys cs).1,
        (scan standardOperators.keys cs).2) :=
  @scan_append _ (.operator [c]) cs (List.cons_ne_nil c [])
    (first?_standardOperators_of_mem h hscan)

theorem first?_opening (cs : List Char) :
    first? standardOperators.keys ('(' :: cs) = some .opening := by
  rw [first?_standardOperators_cons, Numeral.scan?_eq_none rfl (by decide)]
  rfl

theorem first?_closing (cs : List Char) :
    first? standardOperators.keys (')' :: cs) = some .closing := by
  rw [first?_standardOperators_cons, Numeral.scan?_eq_none rfl (by decide)]
  rfl

theorem scan_opening (cs : List Char) :
    scan standardOperators.keys ('(' :: cs) =
      (.opening :: (scan standardOperators.keys cs).1, (scan standardOperators.keys cs).2) :=
  @scan_append _ .opening cs (List.cons_ne_nil _ _) (first?_opening cs)

theorem scan_closing (cs : List Char) :
    scan standardOperators.keys (')' :: cs) =
      (.closing :: (scan standardOperators.keys cs).1, (scan standardOperators.keys cs).2) :=
  @scan_append _ .closing cs (List.cons_ne_nil _ _) (first?_closing cs)

/-- No piece starts with a point. -/
theorem scan_point (cs : List Char) :
    scan standardOperators.keys ('.' :: cs) = ([], '.' :: cs) := by
  refine scan_of_first?_eq_none ?_
  rw [first?_standardOperators_cons, Numeral.scan?_eq_none rfl (by decide)]
  rfl

/-- A numeral is cut off as it is read. -/
theorem scan_of_scan? (symbols : List (List Char)) {n : Numeral} {rest : List Char}
    (h : Numeral.scan? (n.text ++ rest) = some n) :
    scan symbols (n.text ++ rest) = (.numeral n :: (scan symbols rest).1, (scan symbols rest).2) :=
  @scan_append _ (.numeral n) rest (Numeral.text_ne_nil (Numeral.proper_of_scan? h))
    (first?_of_scan? symbols h)

end Lexeme

/-! ### Tokens behind an operand -/

/-- **Behind an operand an operator character is an operator**, whatever follows. A minus sign that
was cut as part of a numeral is split off again. -/
theorem Token.ofLexemes_scan_operator {c : Char} (h : c ∈ operatorCharacters) (cs : List Char) :
    Token.ofLexemes true (Lexeme.scan standardOperators.keys (c :: cs)).1 =
        .operator [c] :: Token.ofLexemes false (Lexeme.scan standardOperators.keys cs).1 ∧
      (Lexeme.scan standardOperators.keys (c :: cs)).2 =
        (Lexeme.scan standardOperators.keys cs).2 := by
  cases hscan : Numeral.scan? (c :: cs) with
  | none =>
    rw [Lexeme.scan_operator h hscan]
    exact ⟨rfl, rfl⟩
  | some m =>
    obtain rfl : c = '-' := by
      by_contra hc
      rw [Numeral.scan?_eq_none (isDigit_eq_false_of_mem_operatorCharacters h) hc] at hscan
      cases hscan
    -- the numeral without the sign, which is what is read behind it
    obtain ⟨n, hn, rfl⟩ := Option.map_eq_some_iff.mp hscan
    have hunsigned : n.negative = false := (Numeral.text_of_scanUnsigned? hn).1
    have hread := Numeral.scan?_of_scanUnsigned? hn
    obtain ⟨rest, rfl⟩ := Numeral.text_isPrefix_of_scan? hread
    have htext : '-' :: (n.text ++ rest) = { n with negative := true }.text ++ rest := by
      simp [Numeral.text, hunsigned]
    rw [htext] at hscan ⊢
    rw [Lexeme.scan_of_scan? _ hscan, Lexeme.scan_of_scan? _ hread]
    obtain ⟨negative, whole, fraction⟩ := n
    cases hunsigned
    exact ⟨rfl, rfl⟩

end Expression

end ChatCalculator
