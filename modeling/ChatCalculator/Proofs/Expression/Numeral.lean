import ChatCalculator.Decimal.Basic
import ChatCalculator.Expression.Evaluation
import ChatCalculator.Proofs.Expression.Tokenization
import Mathlib.Algebra.Group.Nat.Hom

/-!
# Numerals that are read back

A numeral is read as far as its text goes, if what follows neither is a digit nor a point. A point
matters only behind a numeral that has none, but then it would be taken as part of it.

Every decimal has a numeral with its digits, and reading that numeral gives the decimal again,
with its number of places. So writing a decimal and reading it loses nothing; what is lost
elsewhere is lost by rounding.

## Main definitions

* `Numeral.Proper`: a numeral that is made of digits
* `EndsNumeral`: a text that cannot continue a numeral
* `Decimal.numeral`: the numeral with the digits of a decimal

## Main results

* `Numeral.scan?_text_append`: a numeral is read back, whatever follows that ends it
* `tokenize_numeral_append`: and what follows is cut as if it stood alone
* `tokenize_numeral_append_of_ok`, `tokenize_numeral_append_of_error`: so it does not matter behind
  which numeral
* `Decimal.text_numeral`, `Decimal.magnitude_numeral`: writing a decimal and reading it
-/

namespace ChatCalculator

namespace Expression

/-- A numeral that is made of digits, at least one of them before the point. -/
structure Numeral.Proper (n : Numeral) : Prop where
  /-- There is a digit before the point. -/
  whole_ne_nil : n.whole ≠ []
  /-- Before the point there are digits only. -/
  isDigit_whole : ∀ c ∈ n.whole, c.isDigit = true
  /-- So are there behind it. -/
  isDigit_fraction : ∀ digits ∈ n.fraction, ∀ c ∈ digits, c.isDigit = true

/-- A text that cannot continue a numeral. -/
def EndsNumeral (rest : List Char) : Prop :=
  ∀ c ∈ rest.head?, c.isDigit = false ∧ c ≠ '.'

theorem endsNumeral_nil : EndsNumeral [] := by
  intro c hc
  cases hc

/-! ### Digits -/

/-- Digits are taken up to the first character that is none. -/
theorem takeWhile_isDigit_append {digits rest : List Char} (h : ∀ c ∈ digits, c.isDigit = true)
    (hrest : ∀ c ∈ rest.head?, c.isDigit = false) :
    (digits ++ rest).takeWhile Char.isDigit = digits ∧
      (digits ++ rest).dropWhile Char.isDigit = rest := by
  rw [List.takeWhile_append_of_pos h, List.dropWhile_append_of_pos h]
  cases rest with
  | nil => simp
  | cons c rest => simp [hrest c rfl]

/-- A digit is the character of a number below ten. -/
theorem exists_digitChar_of_isDigit {c : Char} (h : c.isDigit = true) :
    ∃ k < 10, c = Nat.digitChar k := by
  have hrange : 48 ≤ c.toNat ∧ c.toNat ≤ 57 := by
    rw [Char.isDigit, Bool.and_eq_true, decide_eq_true_eq, decide_eq_true_eq] at h
    exact h
  have hlt : c.toNat - 48 < 10 := by omega
  refine ⟨c.toNat - 48, hlt, Char.toNat_inj.mp ?_⟩
  rw [Nat.toNat_digitChar_of_lt_ten hlt]
  omega

theorem isBlank_eq_false_of_isDigit {c : Char} (h : c.isDigit = true) : isBlank c = false := by
  obtain ⟨k, hk, rfl⟩ := exists_digitChar_of_isDigit h
  have hall : ∀ k < 10, isBlank (Nat.digitChar k) = false := by decide
  exact hall k hk

/-! ### Reading a numeral -/

namespace Numeral

theorem scanFraction_fractionText_append {fraction : Option (List Char)} {rest : List Char}
    (h : ∀ digits ∈ fraction, ∀ c ∈ digits, c.isDigit = true) (hrest : EndsNumeral rest) :
    scanFraction (fractionText fraction ++ rest) = fraction := by
  cases fraction with
  | none =>
    cases rest with
    | nil => rfl
    | cons c rest =>
      have hpoint : c ≠ '.' := (hrest c rfl).2
      simp [fractionText, scanFraction, hpoint]
  | some digits =>
    have hdigits := takeWhile_isDigit_append (h digits rfl) fun c hc => (hrest c hc).1
    rw [fractionText, List.cons_append, scanFraction, hdigits.1]

/-- Behind the digits of a numeral there is no further one. -/
theorem isDigit_head?_fractionText_append {fraction : Option (List Char)} {rest : List Char}
    (hrest : EndsNumeral rest) :
    ∀ c ∈ (fractionText fraction ++ rest).head?, c.isDigit = false := by
  cases fraction with
  | none => exact fun c hc => (hrest c hc).1
  | some digits =>
    rintro c hc
    cases hc
    rfl

theorem scanUnsigned?_append {n : Numeral} (h : n.Proper) {rest : List Char}
    (hrest : EndsNumeral rest) :
    scanUnsigned? (n.whole ++ (fractionText n.fraction ++ rest)) = some n.unsigned := by
  have hwhole := takeWhile_isDigit_append h.isDigit_whole
    (@isDigit_head?_fractionText_append n.fraction rest hrest)
  rw [scanUnsigned?, hwhole.1, hwhole.2, scanFraction_fractionText_append h.isDigit_fraction hrest]
  obtain ⟨negative, whole, fraction⟩ := n
  cases whole with
  | nil => exact absurd rfl h.whole_ne_nil
  | cons c digits => rfl

/-- **A numeral is read back**, whatever follows that ends it. -/
theorem scan?_text_append {n : Numeral} (h : n.Proper) {rest : List Char}
    (hrest : EndsNumeral rest) : scan? (n.text ++ rest) = some n := by
  have hread := scanUnsigned?_append h hrest
  obtain ⟨negative, whole, fraction⟩ := n
  cases negative with
  | true =>
    rw [text, List.append_assoc, List.append_assoc]
    simp only [if_true, List.cons_append, List.nil_append, scan?, hread]
    rfl
  | false =>
    rw [text, List.append_assoc, List.append_assoc]
    simp only [Bool.false_eq_true, if_false, List.nil_append]
    cases whole with
    | nil => exact absurd rfl h.whole_ne_nil
    | cons c digits =>
      have hsign : c ≠ '-' := by
        rintro rfl
        exact absurd (h.isDigit_whole _ (List.mem_cons_self ..)) (by decide)
      rw [List.cons_append] at hread ⊢
      rw [scan?]
      · exact hread
      · intro cs hcs
        exact hsign (List.cons.inj hcs).1

/-- Only numerals that are made of digits are read. -/
theorem proper_of_scan? {cs : List Char} {n : Numeral} (h : scan? cs = some n) : n.Proper := by
  have htake : ∀ (ds : List Char), ∀ c ∈ ds.takeWhile Char.isDigit, c.isDigit = true :=
    fun ds c hc => List.all_eq_true.mp List.all_takeWhile c hc
  have hunsigned : ∀ {ds : List Char} {m : Numeral}, scanUnsigned? ds = some m → m.Proper := by
    intro ds m hm
    rw [scanUnsigned?] at hm
    split at hm
    · cases hm
    · rename_i c digits hd
      cases hm
      refine ⟨List.cons_ne_nil c digits, hd ▸ htake ds, ?_⟩
      intro places hplaces
      unfold scanFraction at hplaces
      split at hplaces
      · cases hplaces
        exact htake _
      · cases hplaces
  unfold scan? at h
  split at h
  · obtain ⟨m, hm, rfl⟩ := Option.map_eq_some_iff.mp h
    exact ⟨(hunsigned hm).whole_ne_nil, (hunsigned hm).isDigit_whole,
      (hunsigned hm).isDigit_fraction⟩
  · exact hunsigned h

/-- The characters of a numeral. -/
theorem Proper.mem_text {n : Numeral} (h : n.Proper) {c : Char} (hc : c ∈ n.text) :
    c.isDigit = true ∨ c = '-' ∨ c = '.' := by
  obtain ⟨negative, whole, fraction⟩ := n
  rw [text, List.mem_append, List.mem_append] at hc
  rcases hc with hc | hc | hc
  · cases negative with
    | true => exact .inr (.inl (List.mem_singleton.mp hc))
    | false => cases hc
  · exact .inl (h.isDigit_whole c hc)
  · cases fraction with
    | none => cases hc
    | some digits =>
      rcases List.mem_cons.mp hc with rfl | hc
      · exact .inr (.inr rfl)
      · exact .inl (h.isDigit_fraction digits rfl c hc)

/-- A numeral does not start with a blank. -/
theorem takeWhile_isBlank_text_append {n : Numeral} (h : n.Proper) (rest : List Char) :
    (n.text ++ rest).takeWhile isBlank = [] := by
  obtain ⟨negative, whole, fraction⟩ := n
  cases negative with
  | true => rfl
  | false =>
    cases whole with
    | nil => exact absurd rfl h.whole_ne_nil
    | cons c digits =>
      have hblank := isBlank_eq_false_of_isDigit (h.isDigit_whole c (List.mem_cons_self ..))
      simp [text, hblank]

theorem text_ne_nil {n : Numeral} (h : n.Proper) : n.text ≠ [] := by
  simp [text, h.whole_ne_nil]

end Numeral

/-! ### Cutting behind a numeral -/

namespace Lexeme

/-- A numeral at the start of a text is its first piece. -/
theorem first?_of_scan? (symbols : List (List Char)) {cs : List Char} {n : Numeral}
    (h : Numeral.scan? cs = some n) : first? symbols cs = some (.numeral n) := by
  obtain ⟨rest, rfl⟩ := Numeral.text_isPrefix_of_scan? h
  have hblank : blank? (n.text ++ rest) = none := by
    rw [blank?, Numeral.takeWhile_isBlank_text_append (Numeral.proper_of_scan? h)]
  rw [first?, hblank, h]
  rfl

theorem first?_numeral_append (symbols : List (List Char)) {n : Numeral} (h : n.Proper)
    {rest : List Char} (hrest : EndsNumeral rest) :
    first? symbols (n.text ++ rest) = some (.numeral n) :=
  first?_of_scan? symbols (Numeral.scan?_text_append h hrest)

/-- **What follows a numeral is cut as if it stood alone.** -/
theorem scan_numeral_append (symbols : List (List Char)) {n : Numeral} (h : n.Proper)
    {rest : List Char} (hrest : EndsNumeral rest) :
    scan symbols (n.text ++ rest) =
      (.numeral n :: (scan symbols rest).1, (scan symbols rest).2) :=
  @scan_append _ (.numeral n) rest (Numeral.text_ne_nil h) (first?_numeral_append symbols h hrest)

end Lexeme

/-- The tokens of an expression that starts with a numeral: its value, and those of the rest behind
an operand. -/
theorem tokenize_numeral_append (table : OperatorTable) {n : Numeral} (h : n.Proper)
    {rest : List Char} (hrest : EndsNumeral rest) :
    tokenize table (n.text ++ rest) =
      match (Lexeme.scan table.keys rest).2 with
      | [] => .ok (.number n.value :: Token.ofLexemes true (Lexeme.scan table.keys rest).1)
      | c :: cs =>
        .error ⟨.invalidCharacter [c] ((n.text ++ rest).length - (c :: cs).length : ℕ),
          some (n.text ++ rest)⟩ := by
  rw [tokenize, Lexeme.scan_numeral_append table.keys h hrest]
  cases (Lexeme.scan table.keys rest).2 with
  | nil => rfl
  | cons c cs => rfl

/-- The numeral of zero. -/
def zeroNumeral : Numeral := ⟨false, ['0'], none⟩

theorem proper_zeroNumeral : zeroNumeral.Proper where
  whole_ne_nil := List.cons_ne_nil _ _
  isDigit_whole := fun c hc => by
    rw [List.mem_singleton.mp hc]
    rfl
  isDigit_fraction := fun _ h => by cases h

variable {table : OperatorTable} {n n' : Numeral} {rest : List Char}

/-- An expression that starts with another numeral has the same tokens behind it. -/
theorem tokenize_numeral_append_of_ok (h : n.Proper) (h' : n'.Proper) (hrest : EndsNumeral rest)
    {ts : List Token} (hts : tokenize table (n'.text ++ rest) = .ok ts) :
    tokenize table (n.text ++ rest) = .ok (.number n.value :: ts.tail) := by
  rw [tokenize_numeral_append table h' hrest] at hts
  rw [tokenize_numeral_append table h hrest]
  cases hscan : (Lexeme.scan table.keys rest).2 with
  | nil =>
    simp only [hscan] at hts ⊢
    cases hts
    rfl
  | cons c cs =>
    simp only [hscan] at hts
    cases hts

/-- And it has the same first character that belongs to no token. -/
theorem tokenize_numeral_append_of_error (h : n.Proper) (h' : n'.Proper) (hrest : EndsNumeral rest)
    {e : Error} (he : tokenize table (n'.text ++ rest) = .error e) :
    ∃ c position position', e.fault = .invalidCharacter [c] position ∧
      tokenize table (n.text ++ rest) =
        .error ⟨.invalidCharacter [c] position', some (n.text ++ rest)⟩ := by
  rw [tokenize_numeral_append table h' hrest] at he
  rw [tokenize_numeral_append table h hrest]
  cases hscan : (Lexeme.scan table.keys rest).2 with
  | nil =>
    simp only [hscan] at he
    cases he
  | cons c cs =>
    simp only [hscan] at he ⊢
    cases he
    exact ⟨c, _, _, rfl, rfl⟩

/-- The value of a numeral alone. -/
theorem solve_numeral (h : n.Proper) : solve standardOperators n.text = .ok n.value := by
  have htokens := tokenize_numeral_append standardOperators h endsNumeral_nil
  have hscan : Lexeme.scan standardOperators.keys [] = ([], []) := by decide +kernel
  rw [hscan, List.append_nil] at htokens
  rw [solve, htokens]
  rfl

end Expression

/-! ### Decimals -/

open Expression

namespace Decimal

/-- The numeral with the digits of a decimal. -/
def numeral (negative : Bool) (d : Decimal) : Numeral where
  negative := negative
  whole := Nat.toDigits 10 (d.coefficient / 10 ^ d.places)
  fraction := if d.places = 0 then none else some (fixedDigits d.coefficient d.places)

theorem isDigit_of_mem_fixedDigits {n w : Nat} {c : Char} (h : c ∈ fixedDigits n w) :
    c.isDigit = true := by
  induction w generalizing n with
  | zero => cases h
  | succ w ih =>
    rw [fixedDigits, List.mem_append] at h
    rcases h with h | h
    · exact ih h
    · rw [List.mem_singleton.mp h, Nat.isDigit_digitChar]
      exact decide_eq_true (Nat.mod_lt n (by decide))

theorem proper_numeral (negative : Bool) (d : Decimal) : (d.numeral negative).Proper where
  whole_ne_nil := Nat.toDigits_ne_nil
  isDigit_whole := fun _ => Nat.isDigit_of_mem_toDigits (by decide) (by decide)
  isDigit_fraction := by
    intro digits hdigits c hc
    simp only [numeral, Option.mem_def] at hdigits
    split at hdigits
    · cases hdigits
    · cases hdigits
      exact isDigit_of_mem_fixedDigits hc

/-- The text of the numeral is that of the decimal. -/
theorem text_numeral (negative : Bool) (d : Decimal) :
    (d.numeral negative).text = Binary64.signed negative d.text := by
  have hfraction : Numeral.fractionText (d.numeral negative).fraction =
      if d.places = 0 then [] else '.' :: fixedDigits d.coefficient d.places := by
    rw [numeral]
    split <;> rfl
  rw [Numeral.text, hfraction]
  cases negative <;> rfl

/-- Digits of a fixed number are read as the last digits of what they were written from. -/
theorem ofDigitChars_fixedDigits (n w init : Nat) :
    Nat.ofDigitChars 10 (fixedDigits n w) init = init * 10 ^ w + n % 10 ^ w := by
  induction w generalizing n with
  | zero => simp [fixedDigits, Nat.mod_one]
  | succ w ih =>
    have hdigit := Nat.mod_lt n (show 0 < 10 by decide)
    have hsplit : n % 10 ^ (w + 1) = n / 10 % 10 ^ w * 10 + n % 10 := by
      rw [Nat.pow_succ, Nat.mul_comm, Nat.mod_mul, Nat.add_comm, Nat.mul_comm]
    rw [fixedDigits, Nat.ofDigitChars_append, ih,
      Nat.ofDigitChars_cons_digitChar_of_lt_ten hdigit, Nat.ofDigitChars_nil, hsplit, Nat.pow_succ,
      ← Nat.mul_assoc]
    omega

/-- **Reading the digits of a decimal gives the decimal**, with its number of places. -/
theorem magnitude_numeral (negative : Bool) (d : Decimal) :
    (d.numeral negative).magnitude = d := by
  obtain ⟨coefficient, places⟩ := d
  have hfraction : (if places = 0 then none else some (fixedDigits coefficient places)).getD [] =
      fixedDigits coefficient places := by
    cases places <;> rfl
  rw [numeral, Numeral.magnitude]
  simp only [hfraction, length_fixedDigits, Nat.ofDigitChars_append, Nat.ofDigitChars_ten_toDigits,
    ofDigitChars_fixedDigits, Nat.div_add_mod']

theorem value_numeral (negative : Bool) (d : Decimal) :
    (d.numeral negative).value = Binary64.ofDecimal negative d := by
  rw [Numeral.value, magnitude_numeral]
  rfl

end Decimal

end ChatCalculator
