import ChatCalculator.Proofs.Display.Result
import ChatCalculator.Proofs.Expression.Numeral
import ChatCalculator.Proofs.Outcome

/-!
# Texts of results

The text of a finite result is a numeral, and reading it gives the rounded result: the same number,
with its sign. The sign takes care of itself. It is left out where all digits shown are zero, and
digits that are all zero are read as zero, which a rounded result is without sign only.

## Main results

* `exists_numeral_of_resultText`: the text of a finite result is that of a numeral, which stands
  for the rounded result
* `exists_resultText`: a result has a text, if the places are after the point and fit into 32 bits
-/

namespace ChatCalculator

open Expression Binary64

theorem fixedPlaces_eq_ok_iff {p : ℤ} {places : ℕ} :
    fixedPlaces p = .ok places ↔ 0 ≤ p ∧ p < 2 ^ 31 ∧ p = places := by
  rw [fixedPlaces]
  split
  · simp only [reduceCtorEq, false_iff]
    omega
  · split
    · rw [Except.ok.injEq]
      omega
    · split <;> simp only [reduceCtorEq, false_iff] <;> omega

/-- Digits that are all zero are read as zero. -/
theorem ordinal_eq_zero_of_coefficient_eq_zero {m : Magnitude} {d : Decimal}
    (hd : d.coefficient = 0) (h : ofDecimal false d = finite false m) : m.ordinal = 0 := by
  have hvalue : d.value = Magnitude.zero.toDecimal.value := by
    rw [Magnitude.value_toDecimal, Magnitude.value_zero, Decimal.value, hd, Nat.cast_zero, zero_div]
  rw [ofDecimal_congr hvalue, ofDecimal_toDecimal] at h
  cases h
  rfl

/-- The numeral that shows a number in fixed notation. -/
def fixedNumeral (places : ℕ) (negative : Bool) (m : Magnitude) : Numeral :=
  (m.fixed places).numeral (negative && (m.fixed places).coefficient ≠ 0)

theorem fixedText_finite (places : ℕ) (negative : Bool) (m : Magnitude) :
    fixedText places (finite negative m) = (fixedNumeral places negative m).text :=
  (Decimal.text_numeral _ _).symm

/-- The numeral of a rounded result stands for that result. -/
theorem value_fixedNumeral {places : ℕ} {negative : Bool} {m : Magnitude}
    (hm : ∀ negative : Bool, (finite negative m).round places = finite negative m)
    (hsign : negative = true → m.ordinal ≠ 0) :
    (fixedNumeral places negative m).value = finite negative m := by
  rw [fixedNumeral, Decimal.value_numeral, ofDecimal_fixed hm]
  cases negative with
  | false => rfl
  | true =>
    have hcoefficient : (m.fixed places).coefficient ≠ 0 := fun hzero =>
      hsign rfl (ordinal_eq_zero_of_coefficient_eq_zero hzero (ofDecimal_fixed hm false))
    rw [decide_eq_true hcoefficient]
    rfl

/-- **The text of a finite result is that of a numeral, which stands for the rounded result.** -/
theorem exists_numeral_of_resultText {x : Binary64} {p : ℤ} {text : List Char}
    (hx : x.isFinite = true) (h : resultText x p = .ok text) :
    ∃ n : Numeral, n.Proper ∧ text = n.text ∧ roundedResult x p = .ok n.value := by
  rw [resultText, if_pos hx] at h
  cases hr : roundedResult x p with
  | error fault =>
    rw [hr] at h
    cases h
  | ok r =>
    simp only [hr] at h
    obtain ⟨places, hplaces, rfl⟩ := map_eq_ok_iff.mp h
    obtain ⟨-, -, rfl⟩ := fixedPlaces_eq_ok_iff.mp hplaces
    rcases roundedResult_eq_ok hr with ⟨hinfinite, -⟩ | ⟨negative, m, -, rfl, hsign, hm⟩
    · rw [hx] at hinfinite
      cases hinfinite
    · refine ⟨fixedNumeral places negative m, Decimal.proper_numeral _ _, ?_, ?_⟩
      · exact fixedText_finite places negative m
      · rw [value_fixedNumeral hm hsign]

/-- A result has a text, if the places are after the point and fit into 32 bits. -/
theorem exists_resultText (x : Binary64) {p : ℤ} (hp : 0 ≤ p) (hlt : p < 2 ^ 31) :
    ∃ text, resultText x p = .ok text := by
  rw [resultText]
  split
  · obtain ⟨r, hr⟩ := exists_roundedResult x hp
    have hplaces : fixedPlaces p = .ok p.toNat :=
      fixedPlaces_eq_ok_iff.mpr ⟨hp, hlt, (Int.toNat_of_nonneg hp).symm⟩
    exact ⟨fixedText p.toNat r, by rw [hr, hplaces]; rfl⟩
  · exact ⟨_, rfl⟩

end ChatCalculator
