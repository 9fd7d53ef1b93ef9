import ChatCalculator.Proofs.Expression.Numeral
import Mathlib.Data.List.DropRight

/-!
# Canonical numerals

A decimal whose last place is not zero has one way to be written: digits that do not start with a
zero, unless that is all there is, and no zero at the end behind the point. Dropping zeros on the
coefficient of a decimal makes the last place of that kind, and it is the same as dropping them
from the text that has all places.

## The zeros that stay

On the text, dropping zeros must stop at the point, and the point must go with the last zero behind
it; a number without point must not be touched at all, since its zeros count. On the coefficient
all of that is the number of places, which is why `Decimal.dropZeros` stops at none. The lemma that
compares them, `rdropWhile_fixedDigits`, is about the text in front of the point only in so far as
that does not end in a point.

## Main definitions

* `Numeral.Canonical`: numerals without superfluous digits or sign
* `Decimal.padded`: a decimal with more places
* `withoutZeros`: a text without zeros at the end behind the point

## Main results

* `Decimal.canonical_numeral`: a decimal that does not end in zeros has a canonical numeral
* `Decimal.withoutZeros_text`: dropping zeros on the text and on the coefficient
-/

namespace ChatCalculator

open Expression

/-- A numeral with at most `places` digits behind the point and nothing superfluous. -/
structure Expression.Numeral.Canonical (places : ℕ) (n : Numeral) : Prop where
  /-- It is made of digits. -/
  proper : n.Proper
  /-- The digits before the point do not start with a zero, unless there is just that one. -/
  whole : n.whole = ['0'] ∨ n.whole.head? ≠ some '0'
  /-- If there is a point, there is a digit behind it, there are not too many, and the last one is
  not a zero. -/
  fraction : ∀ digits ∈ n.fraction,
    1 ≤ digits.length ∧ digits.length ≤ places ∧ digits.getLast? ≠ some '0'
  /-- Zero has no sign. -/
  text_ne : n.text ≠ ['-', '0']

/-! ### Digits -/

/-- The digits of a number do not start with a zero. -/
theorem head?_toDigits_ne {n : ℕ} (h : n ≠ 0) : (Nat.toDigits 10 n).head? ≠ some '0' := by
  induction n using Nat.strong_induction_on with
  | _ n ih =>
    rw [Nat.toDigits_eq_if (by decide)]
    split
    · rw [List.head?_cons, Ne, Option.some.injEq, Nat.digitChar_eq_zero]
      exact h
    · rename_i hge
      rw [List.head?_append_of_ne_nil _ Nat.toDigits_ne_nil]
      exact ih (n / 10) (by omega) (by omega)

theorem toDigits_eq_zero_or (n : ℕ) :
    Nat.toDigits 10 n = ['0'] ∨ (Nat.toDigits 10 n).head? ≠ some '0' := by
  rcases eq_or_ne n 0 with rfl | h
  · exact .inl rfl
  · exact .inr (head?_toDigits_ne h)

theorem eq_zero_of_toDigits {n : ℕ} (h : Nat.toDigits 10 n = ['0']) : n = 0 := by
  by_contra hn
  exact head?_toDigits_ne hn (by rw [h]; rfl)

theorem point_notMem_toDigits (n : ℕ) : '.' ∉ Nat.toDigits 10 n := by
  intro h
  have hdigit : Char.isDigit '.' = true := Nat.isDigit_of_mem_toDigits (by decide) (by decide) h
  exact absurd hdigit (by decide)

namespace Decimal

/-! ### The last place -/

/-- Where zeros have been dropped there is no place left, or the last one is not zero. -/
theorem dropZeros_last (c p : ℕ) :
    (dropZeros c p).places = 0 ∨ (dropZeros c p).coefficient % 10 ≠ 0 := by
  fun_induction dropZeros c p with
  | case1 c => exact .inl rfl
  | case2 c p h ih => exact ih
  | case3 c p h => exact .inr h

/-- Dropping zeros keeps what is before the point. -/
theorem dropZeros_whole (c p : ℕ) :
    (dropZeros c p).coefficient / 10 ^ (dropZeros c p).places = c / 10 ^ p := by
  fun_induction dropZeros c p with
  | case1 c => rfl
  | case2 c p h ih => rw [ih, Nat.div_div_eq_div_mul, Nat.pow_succ, Nat.mul_comm]
  | case3 c p h => rfl

theorem dropZeros_zero (p : ℕ) : dropZeros 0 p = ⟨0, 0⟩ := by
  induction p with
  | zero => rfl
  | succ p ih => rw [dropZeros, if_pos (Nat.zero_mod 10), Nat.zero_div, ih]

theorem dropZeros_mul_pow (c p k : ℕ) : dropZeros (c * 10 ^ k) (p + k) = dropZeros c p := by
  induction k with
  | zero => rw [Nat.pow_zero, Nat.mul_one, Nat.add_zero]
  | succ k ih =>
    have hmod : c * 10 ^ (k + 1) % 10 = 0 := by
      rw [Nat.pow_succ, ← Nat.mul_assoc, Nat.mul_mod_left]
    have hdiv : c * 10 ^ (k + 1) / 10 = c * 10 ^ k := by
      rw [Nat.pow_succ, ← Nat.mul_assoc, Nat.mul_div_cancel _ (by decide)]
    rw [← Nat.add_assoc, dropZeros, if_pos hmod, hdiv, ih]

/-- **A decimal that does not end in zeros has a canonical numeral.** -/
theorem canonical_numeral {d : Decimal} {places : ℕ} {negative : Bool}
    (hlast : d.places = 0 ∨ d.coefficient % 10 ≠ 0) (hplaces : d.places ≤ places)
    (hsign : negative = true → d.coefficient ≠ 0) : (d.numeral negative).Canonical places where
  proper := proper_numeral negative d
  whole := toDigits_eq_zero_or _
  fraction := by
    intro digits hdigits
    rw [numeral, Option.mem_def] at hdigits
    dsimp only at hdigits
    split at hdigits
    · cases hdigits
    · rename_i hne
      cases hdigits
      have hcoefficient := hlast.resolve_left hne
      refine ⟨?_, ?_, ?_⟩
      · rw [length_fixedDigits]
        exact Nat.pos_of_ne_zero hne
      · rwa [length_fixedDigits]
      · obtain ⟨p, hp⟩ := Nat.exists_eq_succ_of_ne_zero hne
        rw [hp, fixedDigits, List.getLast?_concat, Ne, Option.some.injEq, Nat.digitChar_eq_zero]
        exact hcoefficient
  text_ne := by
    intro htext
    rw [text_numeral] at htext
    cases negative with
    | false =>
      -- the first character would be a digit
      obtain ⟨c, digits, hdigits⟩ := List.exists_cons_of_ne_nil
        (Nat.toDigits_ne_nil (n := d.coefficient / 10 ^ d.places) (b := 10))
      have hdigit : c.isDigit = true :=
        Nat.isDigit_of_mem_toDigits (by decide) (by decide) (hdigits ▸ List.mem_cons_self ..)
      rw [Binary64.signed, if_neg Bool.false_ne_true, text, hdigits, List.cons_append] at htext
      rw [(List.cons.inj htext).1] at hdigit
      exact absurd hdigit (by decide)
    | true =>
      rw [Binary64.signed, if_pos rfl, text] at htext
      have hzero := (List.cons.inj htext).2
      split at hzero
      · rename_i hnone
        rw [List.append_nil, hnone, Nat.pow_zero, Nat.div_one] at hzero
        exact hsign rfl (eq_zero_of_toDigits hzero)
      · have hlength := congrArg List.length hzero
        have hpos : 0 < (Nat.toDigits 10 (d.coefficient / 10 ^ d.places)).length :=
          List.length_pos_iff.mpr Nat.toDigits_ne_nil
        rw [List.length_append, List.length_cons, length_fixedDigits, List.length_singleton]
          at hlength
        omega

/-! ### Dropping zeros on the text -/

/-- The same number with zeros behind its places. -/
def padded (d : Decimal) (places : ℕ) : Decimal :=
  ⟨d.coefficient * 10 ^ (places - d.places), places⟩

theorem normalize_padded {d : Decimal} {places : ℕ} (h : d.places ≤ places) :
    (d.padded places).normalize = d.normalize := by
  obtain ⟨k, rfl⟩ := Nat.exists_eq_add_of_le h
  rw [padded, normalize, Nat.add_sub_cancel_left]
  exact dropZeros_mul_pow d.coefficient d.places k

end Decimal

/-- A text without the zeros at its end, if it has a point; the point goes as well if nothing is
left behind it. -/
def withoutZeros (text : List Char) : List Char :=
  if '.' ∈ text then (text.rdropWhile (· = '0')).rdropWhile (· = '.') else text

namespace Decimal

/-- Behind a text that does not end in a point, zeros are dropped as `dropZeros` drops them. -/
theorem rdropWhile_fixedDigits {start : List Char} (h : ∀ c ∈ start.getLast?, c ≠ '.') (c p : ℕ) :
    ((start ++ '.' :: fixedDigits c p).rdropWhile (· = '0')).rdropWhile (· = '.') =
      start ++ if (dropZeros c p).places = 0 then []
        else '.' :: fixedDigits (dropZeros c p).coefficient (dropZeros c p).places := by
  fun_induction dropZeros c p with
  | case1 c =>
    have hstart : start.rdropWhile (· = '.') = start := by
      rw [List.rdropWhile_eq_self_iff]
      intro hne
      simpa using h _ (List.getLast?_eq_getLast_of_ne_nil hne)
    rw [fixedDigits, List.rdropWhile_concat_neg _ _ _ (by decide),
      List.rdropWhile_concat_pos _ _ _ (by decide), hstart, if_pos rfl, List.append_nil]
  | case2 c p hzero ih =>
    rw [fixedDigits, hzero, ← List.cons_append, ← List.append_assoc,
      List.rdropWhile_concat_pos _ _ _ (by decide), ih]
  | case3 c p hlast =>
    rw [if_neg (Nat.succ_ne_zero p), fixedDigits, ← List.cons_append, ← List.append_assoc,
      List.rdropWhile_concat_neg _ _ _ (by simpa using hlast),
      List.rdropWhile_concat_neg _ _ _ (by simp)]

/-- **Dropping zeros on the text is dropping them on the coefficient.** -/
theorem withoutZeros_text (negative : Bool) (d : Decimal) :
    withoutZeros (Binary64.signed negative d.text) = Binary64.signed negative d.normalize.text := by
  have hsigned : ∀ xs ys : List Char,
      Binary64.signed negative (xs ++ ys) = Binary64.signed negative xs ++ ys := by
    intro xs ys
    cases negative <;> rfl
  have hpoint : ∀ n, '.' ∉ Binary64.signed negative (Nat.toDigits 10 n) := by
    intro n hmem
    cases negative with
    | false => exact point_notMem_toDigits n hmem
    | true =>
      rcases List.mem_cons.mp hmem with h | h
      · exact absurd h (by decide)
      · exact point_notMem_toDigits n h
  obtain ⟨coefficient, places⟩ := d
  rw [text, text, hsigned, hsigned, withoutZeros]
  dsimp only [normalize]
  rw [dropZeros_whole]
  cases places with
  | zero =>
    rw [if_pos rfl, List.append_nil, if_neg (hpoint _)]
    simp [dropZeros]
  | succ p =>
    have hstart : ∀ c ∈ (Binary64.signed negative
        (Nat.toDigits 10 (coefficient / 10 ^ (p + 1)))).getLast?, c ≠ '.' := by
      rintro c hc rfl
      exact hpoint _ (List.mem_of_getLast? hc)
    rw [if_neg (Nat.succ_ne_zero p), if_pos (by simp), rdropWhile_fixedDigits hstart]
    rfl

end Decimal

end ChatCalculator
