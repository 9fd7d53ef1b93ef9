import ChatCalculator.Display.Result
import ChatCalculator.Proofs.Binary64.Nearest

/-!
# Rounded results

A result that has been rounded does not change when it is rounded again, and the digits that are
shown of it are read back as the same number. Neither is obvious, because a rounded result is
hardly ever a decimal: it is the number nearest to one, and its exact value may lie on either side.

## The distinction that decides it

What a second rounding needs is not that the number is close to the decimal, but that it is *no
farther* from it than the number that was rounded first. That holds because the latter is itself
among the numbers that the nearest one was chosen from.

With more places than any number has digits to round, the rounding stops having an effect, while
the text is still cut off. There the decimal is so close that only one number can be meant.

## Main results

* `roundedResult_idem`: a rounded result is not changed by rounding it again
* `exists_roundedResult`: with places after the point only, nothing overflows
* `ofDecimal_fixed`: the digits shown of a rounded result are read back as that result
-/

namespace ChatCalculator

/-! ### Zeros without sign -/

namespace Binary64

theorem dropZeroSign_finite (negative : Bool) (m : Magnitude) :
    (finite negative m).dropZeroSign = finite (negative && m.ordinal ≠ 0) m := by
  obtain ⟨ordinal, hordinal⟩ := m
  by_cases h : ordinal = 0
  · subst h
    simp [dropZeroSign, isZero, zero, Magnitude.zero]
  · simp [dropZeroSign, isZero, h]

/-! ### Rounding twice -/

/-- **Rounding to a decimal again gives the same decimal**, if a number has been read from it. -/
theorem value_round_of_decimalOrdinal {m m' : Magnitude} {p : ℤ}
    (h : decimalOrdinal (m.toDecimal.round p) = m'.ordinal) :
    (m'.toDecimal.round p).value = (m.toDecimal.round p).value := by
  have hunit : (0 : ℚ) < 10 ^ (-p) := by positivity
  have hround := m.toDecimal.roundsTo_round p
  rw [m.value_toDecimal] at hround
  have hnearest := abs_unitsAt_decimalOrdinal_sub_le (m.toDecimal.round p) m.ordinal
  rw [h, ← Magnitude.value, ← Magnitude.value, abs_sub_comm, abs_sub_comm m.value] at hnearest
  have hagain := m'.toDecimal.roundsTo_round p
  rw [m'.value_toDecimal] at hagain
  exact hagain.unique hunit (hround.of_abs_sub_le hnearest)

/-- Rounding keeps the sign and is settled after one time, or overflows. -/
theorem round_finite_cases (m : Magnitude) (p : ℤ) :
    (∃ m' : Magnitude, ∀ negative : Bool,
        (finite negative m).round p = finite negative m' ∧
          (finite negative m').round p = finite negative m') ∨
      ∀ negative : Bool, (finite negative m).round p = infinity negative := by
  by_cases hmost : mostPlaces < p
  · exact .inl ⟨m, fun negative => by simp [round, hmost]⟩
  · by_cases hfewest : p < fewestPlaces
    · exact .inl ⟨.zero, fun negative => by simp [round, hmost, hfewest]⟩
    · have hround : ∀ (k : Magnitude) (negative : Bool),
          (finite negative k).round p = ofDecimal negative (k.toDecimal.round p) := by
        intro k negative
        rw [round, if_neg hmost, if_neg hfewest]
      rcases ofDecimal_cases false (m.toDecimal.round p) with ⟨m', hm', -⟩ | ⟨hbeyond, -⟩
      · refine .inl ⟨m', fun negative => ?_⟩
        rw [hround, hround, ofDecimal_congr (value_round_of_decimalOrdinal hm')]
        exact ⟨ofDecimal_eq_finite hm' negative, ofDecimal_eq_finite hm' negative⟩
      · refine .inr fun negative => ?_
        rw [hround]
        exact nearest_eq_infinity hbeyond negative

/-- Zero is rounded to zero. -/
theorem round_zero (negative : Bool) (p : ℤ) :
    (finite negative .zero).round p = finite negative .zero := by
  rw [round]
  split
  · rfl
  · split
    · rfl
    · have hunit : (0 : ℚ) < 10 ^ (-p) := by positivity
      have hround := Magnitude.zero.toDecimal.roundsTo_round p
      have hself := roundsTo_self hunit 0
      rw [Magnitude.value_toDecimal, Magnitude.value_zero] at hround
      rw [Nat.cast_zero, zero_mul] at hself
      have hvalue : (Magnitude.zero.toDecimal.round p).value = Magnitude.zero.toDecimal.value := by
        rw [hround.unique hunit hself, Magnitude.value_toDecimal, Magnitude.value_zero]
      rw [ofDecimal_congr hvalue, ofDecimal_toDecimal]

end Binary64

open Binary64

theorem roundedResult_finite {negative : Bool} {m m' : Magnitude} {p : ℤ}
    (h : (finite negative m).round p = finite negative m') :
    roundedResult (finite negative m) p = .ok (finite (negative && m'.ordinal ≠ 0) m') := by
  rw [roundedResult, h, ← dropZeroSign_finite]
  rfl

theorem roundedResult_zero (p : ℤ) : roundedResult .zero p = .ok .zero :=
  roundedResult_finite (round_zero false p)

/-- **What a rounded result is.** -/
theorem roundedResult_eq_ok {x r : Binary64} {p : ℤ} (h : roundedResult x p = .ok r) :
    x.isFinite = false ∧ r = x ∨
      ∃ (negative : Bool) (m : Magnitude), x.isFinite = true ∧ r = finite negative m ∧
        (negative = true → m.ordinal ≠ 0) ∧
          ∀ negative : Bool, (finite negative m).round p = finite negative m := by
  cases hx : x.isFinite with
  | false =>
    rw [roundedResult_of_isFinite_eq_false hx] at h
    exact .inl ⟨rfl, (Except.ok.inj h).symm⟩
  | true =>
    cases x with
    | nan => cases hx
    | infinity negative => cases hx
    | finite negative m =>
      rcases round_finite_cases m p with ⟨m', hm'⟩ | hover
      · rw [roundedResult_finite (hm' negative).1] at h
        refine .inr ⟨_, m', rfl, (Except.ok.inj h).symm, fun hn => ?_, fun s => (hm' s).2⟩
        simpa using (Bool.and_eq_true_iff.mp hn).2
      · rw [roundedResult, hover] at h
        cases h

/-- **A rounded result is not changed by rounding it again.** -/
theorem roundedResult_idem {x r : Binary64} {p : ℤ} (h : roundedResult x p = .ok r) :
    roundedResult r p = .ok r := by
  rcases roundedResult_eq_ok h with ⟨hx, rfl⟩ | ⟨negative, m, -, rfl, hsign, hm⟩
  · exact h
  · rw [roundedResult_finite (hm negative)]
    cases negative with
    | false => rfl
    | true => simp [hsign rfl]

/-- A rounded result is not a negative zero. -/
theorem ne_negative_zero_of_roundedResult {x r : Binary64} {p : ℤ}
    (h : roundedResult x p = .ok r) : r ≠ finite true .zero := by
  rintro rfl
  rcases roundedResult_eq_ok h with ⟨hx, rfl⟩ | ⟨negative, m, -, hm, hsign, -⟩
  · cases hx
  · cases hm
    exact hsign rfl rfl

/-! ### Places after the point -/

/-- With places after the point only, a decimal is rounded by at most a half. -/
theorem abs_value_sub_round_le (m : Magnitude) {p : ℤ} (hp : 0 ≤ p) :
    |m.value - (m.toDecimal.round p).value| ≤ 1 / 2 := by
  have hround := (m.toDecimal.roundsTo_round p).abs_sub_le
  rw [m.value_toDecimal, abs_sub_comm] at hround
  have hone : (10 : ℚ) ^ (-p) ≤ 1 := zpow_le_one_of_nonpos₀ (by norm_num) (by omega)
  linarith

/-- **With places after the point only, nothing overflows.** -/
theorem exists_roundedResult (x : Binary64) {p : ℤ} (hp : 0 ≤ p) :
    ∃ r, roundedResult x p = .ok r := by
  cases x with
  | nan => exact ⟨_, rfl⟩
  | infinity negative => exact ⟨_, rfl⟩
  | finite negative m =>
    rcases round_finite_cases m p with ⟨m', hm'⟩ | hover
    · exact ⟨_, roundedResult_finite (hm' negative).1⟩
    · exfalso
      have hinfinite := hover negative
      rw [Binary64.round] at hinfinite
      split at hinfinite
      · cases hinfinite
      · split at hinfinite
        · cases hinfinite
        · have hfinite := isFinite_ofDecimal_of_abs_sub_le (abs_value_sub_round_le m hp) negative
          rw [hinfinite] at hfinite
          cases hfinite

/-! ### What is shown -/

/-- With more places than a number is rounded to, the decimal is closer than half a unit. -/
theorem abs_value_sub_round_lt (m : Magnitude) {p : ℕ} (hp : mostPlaces < p) :
    |m.value - (m.toDecimal.round p).value| < Magnitude.unit / 2 := by
  have hround := (m.toDecimal.roundsTo_round p).abs_sub_le
  rw [m.value_toDecimal, abs_sub_comm, zpow_neg, zpow_natCast] at hround
  obtain ⟨k, hk, hlt⟩ : ∃ k, k ≤ p ∧ 2 ^ unitExponent < 10 ^ k := by
    rw [mostPlaces] at hp
    exact ⟨324, by omega, by decide +kernel⟩
  have hsmall : 2 ^ unitExponent < 10 ^ p := hlt.trans_le (Nat.pow_le_pow_right (by decide) hk)
  have hinv : ((10 : ℚ) ^ p)⁻¹ < Magnitude.unit := by
    rw [Magnitude.unit]
    have hunit := Nat.two_pow_pos unitExponent
    generalize 2 ^ unitExponent = u at hsmall hunit ⊢
    exact inv_strictAnti₀ (by exact_mod_cast hunit) (by exact_mod_cast hsmall)
  linarith

theorem value_fixed (m : Magnitude) (p : ℕ) :
    (m.fixed p).value = (m.toDecimal.round p).value :=
  Decimal.value_normalize _

/-- **The digits shown of a rounded result are read back as that result.** -/
theorem ofDecimal_fixed {m : Magnitude} {p : ℕ}
    (h : ∀ negative : Bool, (finite negative m).round p = finite negative m) (negative : Bool) :
    ofDecimal negative (m.fixed p) = finite negative m := by
  rw [ofDecimal_congr (value_fixed m p)]
  by_cases hmost : mostPlaces < p
  · exact ofDecimal_of_abs_sub_lt (abs_value_sub_round_lt m hmost) negative
  · have hfewest : ¬ (p : ℤ) < fewestPlaces := by
      rw [fewestPlaces]
      omega
    have hround := h negative
    rwa [Binary64.round, if_neg hmost, if_neg hfewest] at hround

end ChatCalculator
