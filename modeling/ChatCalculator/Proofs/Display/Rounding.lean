import ChatCalculator.Proofs.Binary64.Rounded
import ChatCalculator.Proofs.Display.Failure

/-!
# Rounding to decimal places is correct, and settled at once

Rounding a number to decimal places is two roundings, first to the nearest decimal and then to the
number nearest to that. Here both are said without a computation, so that there is exactly one
number to be found, or none within the range; and it is found at every precision.

## Two short cuts

For very many places and for very large powers of ten no decimal is computed. Neither short cut
makes a difference, for opposite reasons. With more than `323` places, the decimal is less than half
a unit away from the number, and only that number can be read from it. A power of ten above
`10 ^ 308` is more than twice the largest number, so every number is rounded down to zero.

## Why a result is rounded once

The number read from a decimal may lie on either side of it, and may have other neighbours than the
number rounded first: at a power of two, or next to zero or to the largest number. None of this
matters, because the number rounded first was one of the candidates. What has been chosen is no
farther from the decimal, and what is no farther from it is rounded to it again.

## Main definitions

* `CorrectlyRounded`: a number is rounded to decimal places

## Main results

* `Binary64.round_finite`: the short cuts make no difference
* `correctlyRounded_iff`: `Binary64.round` is correct, and nothing else is
* `Display.settled_of_answer`: a result that has been stored is rounded, whatever was there before
* `roundedResult_settles`: results are rounded correctly, once, and do not overflow when they are
  shown
-/

namespace ChatCalculator

open Binary64

/-! ### The range of numbers -/

namespace Magnitude

theorem value_nonneg (m : Magnitude) : 0 ≤ m.value :=
  mul_nonneg (Nat.cast_nonneg _) unit_pos.le

/-- A power of ten that is more than twice as large as any number. -/
theorem two_mul_value_lt (m : Magnitude) : 2 * m.value < 10 ^ 309 := by
  -- the first place that is not the place of a number
  obtain ⟨s, hend, hpower⟩ : ∃ s, s * 2 ^ 52 + 2 ^ 53 = 2047 * 2 ^ 52 ∧
      2 * (2 ^ 53 * 2 ^ s) < 10 ^ 309 * 2 ^ unitExponent :=
    ⟨2045, by decide, by decide +kernel⟩
  have hlt : unitsAt m.ordinal < 2 ^ 53 * 2 ^ s := by
    rw [← unitsAt_add (.inr (by decide)) le_rfl, hend]
    exact unitsAt_strictMono m.ordinal_lt
  have hunits : 2 * unitsAt m.ordinal < 10 ^ 309 * 2 ^ unitExponent :=
    (Nat.mul_lt_mul_of_pos_left hlt two_pos).trans hpower
  rw [value, unit, ← mul_assoc, ← div_eq_mul_inv,
    div_lt_iff₀ (Nat.cast_pos.mpr (Nat.two_pow_pos unitExponent))]
  exact_mod_cast hunits

end Magnitude

/-! ### The short cuts -/

/-- What is less than half a unit is rounded to zero. -/
theorem roundsTo_zero {unit v : ℚ} (hv : 0 ≤ v) (h : 2 * v < unit) : RoundsTo unit v 0 := by
  have hdistance : |0 - v| = v := by rw [zero_sub, abs_neg, abs_of_nonneg hv]
  refine ⟨0, by rw [Nat.cast_zero, zero_mul], ?_, fun _ => rfl⟩
  rw [hdistance]
  linarith

/-- A number is rounded to zero at a power of ten above all numbers. -/
theorem value_round_of_lt_fewestPlaces (m : Magnitude) {p : ℤ} (hp : p < fewestPlaces) :
    (m.toDecimal.round p).value = 0 := by
  have hround := m.toDecimal.roundsTo_round p
  rw [m.value_toDecimal] at hround
  have hpower : (10 : ℚ) ^ (309 : ℤ) ≤ 10 ^ (-p) := by
    rw [fewestPlaces] at hp
    exact zpow_le_zpow_right₀ (by norm_num) (by omega)
  have hlt : 2 * m.value < 10 ^ (-p) := m.two_mul_value_lt.trans_le (by exact_mod_cast hpower)
  exact hround.unique (by positivity) (roundsTo_zero m.value_nonneg hlt)

/-- **The short cuts make no difference**: at every precision, the number nearest to the rounded
decimal is found. -/
theorem Binary64.round_finite (negative : Bool) (m : Magnitude) (p : ℤ) :
    (finite negative m).round p = ofDecimal negative (m.toDecimal.round p) := by
  rw [Binary64.round]
  split
  · rename_i hmost
    obtain ⟨n, rfl⟩ := Int.eq_ofNat_of_zero_le (show 0 ≤ p by rw [mostPlaces] at hmost; omega)
    exact (ofDecimal_of_abs_sub_lt (abs_value_sub_round_lt m hmost) negative).symm
  · split
    · rename_i hfewest
      have hzero : (m.toDecimal.round p).value = Magnitude.zero.toDecimal.value := by
        rw [value_round_of_lt_fewestPlaces m hfewest, Magnitude.value_toDecimal,
          Magnitude.value_zero]
      rw [ofDecimal_congr hzero, ofDecimal_toDecimal]
    · rfl

/-! ### Correct rounding -/

/-- **A number is rounded to `p` decimal places**: its value to a multiple of a power of ten, half
to even, and that to a number of the same sign, half to even. Beyond the largest number this is an
infinity. Numbers that are not finite stay. -/
inductive CorrectlyRounded (p : ℤ) : Binary64 → Binary64 → Prop
  /-- A finite number, by way of the decimal `w`. -/
  | finite {negative : Bool} {m : Magnitude} {w : ℚ} {y : Binary64}
      (hdecimal : RoundsTo (10 ^ (-p)) m.value w) (hnumber : Rounded negative w y) :
      CorrectlyRounded p (.finite negative m) y
  /-- Any other number. -/
  | same {x : Binary64} (h : x.isFinite = false) : CorrectlyRounded p x x

theorem correctlyRounded_round (p : ℤ) (x : Binary64) : CorrectlyRounded p x (x.round p) := by
  cases x with
  | nan => exact .same rfl
  | infinity negative => exact .same rfl
  | finite negative m =>
    have hdecimal := m.toDecimal.roundsTo_round p
    rw [m.value_toDecimal] at hdecimal
    rw [round_finite]
    exact .finite hdecimal (rounded_ofDecimal negative _)

theorem CorrectlyRounded.unique {p : ℤ} {x y y' : Binary64} (h : CorrectlyRounded p x y)
    (h' : CorrectlyRounded p x y') : y = y' := by
  cases h with
  | finite hdecimal hnumber =>
    cases h' with
    | finite hdecimal' hnumber' =>
      -- the same decimal first, then the same number
      obtain rfl := hdecimal.unique (by positivity) hdecimal'
      exact hnumber.unique hnumber'
    | same hfinite => cases hfinite
  | same hfinite =>
    cases h' with
    | finite _ _ => cases hfinite
    | same _ => rfl

/-- **Numbers are rounded correctly**, and in one way only. -/
theorem correctlyRounded_iff {p : ℤ} {x y : Binary64} :
    CorrectlyRounded p x y ↔ y = x.round p := by
  constructor
  · exact fun h => h.unique (correctlyRounded_round p x)
  · rintro rfl
    exact correctlyRounded_round p x

/-! ### Results -/

theorem isFinite_of_roundedResult {x r : Binary64} {p : ℤ} (h : roundedResult x p = .ok r) :
    r.isFinite = x.isFinite := by
  rcases roundedResult_eq_ok h with ⟨-, rfl⟩ | ⟨_, _, hx, rfl, -, -⟩
  · rfl
  · exact hx.symm

/-- Results are the correctly rounded numbers without the sign of a zero, unless there is none in
the range of numbers. -/
theorem roundedResult_eq_ite (x : Binary64) (p : ℤ) :
    roundedResult x p = if x.isFinite && !(x.round p).isFinite then .error .overflow
      else .ok (x.round p).dropZeroSign := by
  cases x with
  | nan => rfl
  | infinity negative => rfl
  | finite negative m =>
    have hfinite : (Binary64.finite negative m).isFinite = true := rfl
    rw [roundedResult, if_pos hfinite, hfinite]
    dsimp only
    cases ((Binary64.finite negative m).round p).isFinite with
    | false => rfl
    | true => rfl

namespace Display

/-- **A result that has been stored is rounded**, whatever the display was before. -/
theorem settled_of_answer {d : Display} {operation : Operation}
    (hanswers : operation.answers = true)
    (h : (d.perform operation).2 = none) : (d.perform operation).1.Settled := by
  cases operation with
  | press pressed => cases hanswers
  | backspace => cases hanswers
  | clear => cases hanswers
  | evaluate =>
    rw [perform] at h ⊢
    cases heval : d.evaluate with
    | error failure => rw [heval] at h; cases h
    | ok next =>
      obtain ⟨hprecision, value, hresult⟩ := evaluate_result heval
      rw [orStay, Settled, hprecision]
      exact roundedResult_idem hresult
  | enter entered =>
    rw [perform, enter] at h ⊢
    dsimp only at h ⊢
    split at h
    · cases h
    · split at h
      · cases h
      · rename_i hshow
        obtain ⟨result, hresult, rfl⟩ := showValue_eq_ok_iff.mp hshow
        exact roundedResult_idem hresult

/-- Results stay rounded, whatever is done with the display. -/
theorem Settled.run {d : Display} (h : d.Settled) (operations : List Operation) :
    (d.run operations).Settled := by
  induction operations generalizing d with
  | nil => exact h
  | cons operation operations ih => exact ih (h.perform operation)

end Display

/-- **Results are rounded correctly, and once.** At every precision there is one correctly rounded
number, and the result is that number without the sign of a zero, or an overflow if a finite number
has left the range. A result is not changed by rounding it again, is not a negative zero, and is
finite if the number was. So a display on which any operations have been performed can be shown
without an overflow, be it a new one or one that has stored a result. -/
theorem roundedResult_settles (p : ℤ) :
    (∀ x, ∃ y, (∀ y', CorrectlyRounded p x y' ↔ y' = y) ∧
      roundedResult x p = if x.isFinite && !y.isFinite then .error .overflow
        else .ok y.dropZeroSign) ∧
    (∀ x r, roundedResult x p = .ok r →
      roundedResult r p = .ok r ∧ r ≠ .finite true .zero ∧ r.isFinite = x.isFinite) ∧
    (∀ operations, (Display.run { precision := p } operations).output ≠ .error .overflow) ∧
    ∀ (d d' : Display) (operation : Display.Operation), operation.answers = true →
      d.perform operation = (d', none) →
        ∀ operations, (d'.run operations).output ≠ .error .overflow := by
  refine ⟨fun x => ?_, fun x r h => ?_, fun operations => ?_, fun d d' operation hanswers h => ?_⟩
  · exact ⟨x.round p, fun _ => correctlyRounded_iff, roundedResult_eq_ite x p⟩
  · exact ⟨roundedResult_idem h, ne_negative_zero_of_roundedResult h, isFinite_of_roundedResult h⟩
  · exact ((Display.settled_initial p).run operations).output_ne_overflow
  · intro operations
    have hsettled := Display.settled_of_answer hanswers (congrArg Prod.snd h)
    rw [h] at hsettled
    exact (hsettled.run operations).output_ne_overflow

/-- Next to zero, where decimals are as far apart as numbers are: three units are rounded to two. -/
theorem roundedResult_settles_units :
    roundedResult (.finite true ⟨3, by decide⟩) 323 = .ok (.finite true ⟨2, by decide⟩) ∧
      roundedResult (.finite true ⟨2, by decide⟩) 323 = .ok (.finite true ⟨2, by decide⟩) := by
  have hfirst : roundedResult (.finite true ⟨3, by decide⟩) 323 =
      .ok (.finite true ⟨2, by decide⟩) := by
    decide +kernel
  exact ⟨hfirst, ((roundedResult_settles 323).2.1 _ _ hfirst).1⟩

end ChatCalculator
