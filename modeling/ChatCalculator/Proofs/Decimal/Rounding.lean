import ChatCalculator.Decimal.Basic
import Mathlib.Algebra.Order.Field.Power
import Mathlib.Data.Rat.Cast.Order
import Mathlib.Tactic.FieldSimp
import Mathlib.Tactic.Linarith
import Mathlib.Tactic.Positivity
import Mathlib.Tactic.Ring

/-!
# What rounding a decimal means

Rounding is computed on coefficients, with a case for decimals that have fewer places than asked
for and a case for places before the point. What it computes has one description: a multiple of
the unit, at most half a unit away, and an even multiple if it is exactly half a unit away.

## Main definitions

* `Decimal.value`: the rational number that a decimal stands for
* `RoundsTo`: a number is rounded to a multiple of a unit, half to even

## Main results

* `RoundsTo.unique`: there is only one such multiple
* `RoundsTo.of_abs_sub_le`: whatever is no farther from the multiple is rounded to it as well
* `Decimal.roundsTo_round`: decimals are rounded that way
-/

namespace ChatCalculator

/-- The rational number that a decimal stands for. -/
def Decimal.value (d : Decimal) : ℚ :=
  d.coefficient / 10 ^ d.places

/-- The number `v` is rounded to the multiple `w` of `unit`, half to even. -/
def RoundsTo (unit v w : ℚ) : Prop :=
  ∃ c : ℕ, w = c * unit ∧ |w - v| ≤ unit / 2 ∧ (|w - v| = unit / 2 → c % 2 = 0)

/-! ### The nearest integer -/

/-- Different integers are at least one apart. -/
theorem one_le_abs_cast_sub {a b : ℕ} (h : a ≠ b) : (1 : ℚ) ≤ |(a : ℚ) - b| := by
  have hint : (1 : ℤ) ≤ |(a : ℤ) - b| := Int.one_le_abs (sub_ne_zero.mpr (by exact_mod_cast h))
  exact_mod_cast hint

/-- Nothing is close to two different integers. -/
theorem one_le_abs_sub_add_abs_sub {a b : ℕ} (h : a ≠ b) (x : ℚ) : 1 ≤ |a - x| + |b - x| := by
  calc (1 : ℚ) ≤ |(a : ℚ) - b| := one_le_abs_cast_sub h
    _ ≤ |a - x| + |x - b| := abs_sub_le (a : ℚ) x b
    _ = |a - x| + |b - x| := by rw [abs_sub_comm x]

theorem abs_nearestEven_sub_le_half (n : ℕ) {d : ℕ} (hd : 0 < d) :
    |(nearestEven n d : ℚ) - n / d| ≤ 1 / 2 := by
  have hd' : (0 : ℚ) < d := by exact_mod_cast hd
  have hlower : 2 * ((d : ℚ) * nearestEven n d) ≤ 2 * n + d := by
    exact_mod_cast nearestEven_lower n d
  have hupper : 2 * (n : ℚ) ≤ 2 * (d * nearestEven n d) + d := by
    exact_mod_cast nearestEven_upper n hd
  rw [abs_le, neg_le_sub_iff_le_add, sub_le_iff_le_add, div_le_iff₀ hd', ← sub_le_iff_le_add',
    le_div_iff₀ hd']
  constructor <;> linarith

theorem nearestEven_mod_two_of_abs_sub_eq {n d : ℕ} (hd : 0 < d)
    (h : |(nearestEven n d : ℚ) - n / d| = 1 / 2) : nearestEven n d % 2 = 0 := by
  have hd' : (d : ℚ) ≠ 0 := by exact_mod_cast hd.ne'
  refine nearestEven_tie hd ?_
  rcases eq_or_eq_neg_of_abs_eq h with h | h
  · left
    have hq : 2 * ((d : ℚ) * nearestEven n d) = 2 * n + d := by
      field_simp at h
      linarith
    exact_mod_cast hq
  · right
    have hq : 2 * (n : ℚ) = 2 * (d * nearestEven n d) + d := by
      field_simp at h
      linarith
    exact_mod_cast hq

/-- **No integer is nearer** than the nearest one. -/
theorem abs_nearestEven_sub_le (n : ℕ) {d : ℕ} (hd : 0 < d) (k : ℕ) :
    |(nearestEven n d : ℚ) - n / d| ≤ |(k : ℚ) - n / d| := by
  rcases eq_or_ne k (nearestEven n d) with rfl | hk
  · exact le_refl _
  · have hhalf := abs_nearestEven_sub_le_half n hd
    have hone := one_le_abs_sub_add_abs_sub hk (n / d)
    linarith

/-- Only the ratio matters. -/
theorem nearestEven_mul_mul (n : ℕ) {d k : ℕ} (hk : 0 < k) :
    nearestEven (n * k) (d * k) = nearestEven n d := by
  have hdouble : ∀ r : ℕ, 2 * (r * k) = 2 * r * k := fun r => (Nat.mul_assoc 2 r k).symm
  simp only [nearestEven, Nat.mul_div_mul_right _ _ hk, Nat.mul_mod_mul_right, hdouble,
    Nat.mul_lt_mul_right hk]

/-! ### Rounding to multiples of a unit -/

namespace RoundsTo

variable {unit v v' w w' : ℚ}

/-- **There is only one result of rounding.** Two of them would be half a unit away on both sides,
and neighbouring multiples are not both even. -/
theorem unique (hunit : 0 < unit) (h : RoundsTo unit v w) (h' : RoundsTo unit v w') : w = w' := by
  obtain ⟨c, rfl, hc, htie⟩ := h
  obtain ⟨c', rfl, hc', htie'⟩ := h'
  by_contra hne
  have hcc : c ≠ c' := fun h => hne (by rw [h])
  have hone := one_le_abs_cast_sub hcc
  have hdist : |(c : ℚ) * unit - c' * unit| = |(c : ℚ) - c'| * unit := by
    rw [← sub_mul, abs_mul, abs_of_pos hunit]
  have htriangle := abs_sub_le (c * unit) v (c' * unit)
  rw [abs_sub_comm v, hdist] at htriangle
  have hunits : unit ≤ |(c : ℚ) - c'| * unit := le_mul_of_one_le_left hunit.le hone
  have heven := htie (by linarith)
  have heven' := htie' (by linarith)
  have heq : |(c : ℚ) - c'| = 1 := by nlinarith
  have hneighbour : |(c : ℤ) - c'| = 1 := by exact_mod_cast heq
  rcases abs_eq (zero_le_one' ℤ) |>.mp hneighbour with h | h <;> omega

/-- **Whatever is no farther from the result is rounded to it as well.** -/
theorem of_abs_sub_le (h : RoundsTo unit v w) (hle : |w - v'| ≤ |w - v|) : RoundsTo unit v' w := by
  obtain ⟨c, hw, hc, htie⟩ := h
  exact ⟨c, hw, hle.trans hc, fun heq => htie (le_antisymm hc (heq ▸ hle))⟩

theorem abs_sub_le (h : RoundsTo unit v w) : |w - v| ≤ unit / 2 := by
  obtain ⟨c, -, hc, -⟩ := h
  exact hc

end RoundsTo

/-- A multiple of the unit is rounded to itself. -/
theorem roundsTo_self {unit : ℚ} (hunit : 0 < unit) (c : ℕ) :
    RoundsTo unit (c * unit) (c * unit) := by
  refine ⟨c, rfl, ?_, fun h => ?_⟩
  · rw [sub_self, abs_zero]
    positivity
  · rw [sub_self, abs_zero] at h
    linarith

/-- The nearest integer rounds a quotient, in any unit. -/
theorem roundsTo_nearestEven {unit : ℚ} (hunit : 0 < unit) (n : ℕ) {d : ℕ} (hd : 0 < d) :
    RoundsTo unit (n / d * unit) (nearestEven n d * unit) := by
  have hscale : |(nearestEven n d : ℚ) * unit - n / d * unit| =
      |(nearestEven n d : ℚ) - n / d| * unit := by
    rw [← sub_mul, abs_mul, abs_of_pos hunit]
  refine ⟨nearestEven n d, rfl, ?_, fun h => nearestEven_mod_two_of_abs_sub_eq hd ?_⟩
  · rw [hscale]
    have := abs_nearestEven_sub_le_half n hd
    nlinarith
  · rw [hscale] at h
    exact mul_right_cancel₀ hunit.ne' (by linarith)

namespace Decimal

/-- **Decimals are rounded to multiples of a power of ten, half to even.** -/
theorem roundsTo_round (d : Decimal) (p : ℤ) :
    RoundsTo ((10 : ℚ) ^ (-p)) d.value (d.round p).value := by
  have hunit : (0 : ℚ) < 10 ^ (-p) := by positivity
  cases p with
  | ofNat p =>
    simp only [Int.ofNat_eq_natCast, zpow_neg, zpow_natCast] at hunit ⊢
    by_cases h : d.places ≤ p
    · -- nothing is rounded
      rw [← Int.ofNat_eq_natCast, round_ofNat_of_le h]
      have hvalue : d.value = (d.coefficient * 10 ^ (p - d.places) : ℕ) * ((10 : ℚ) ^ p)⁻¹ := by
        obtain ⟨k, rfl⟩ := Nat.exists_eq_add_of_le h
        rw [value, Nat.add_sub_cancel_left, pow_add]
        push_cast
        field_simp
      rw [hvalue]
      exact roundsTo_self hunit _
    · obtain ⟨k, hk⟩ := Nat.exists_eq_add_of_le (Nat.le_of_not_le h)
      have hvalue : d.value = d.coefficient / (10 ^ k : ℕ) * ((10 : ℚ) ^ p)⁻¹ := by
        rw [value, hk, pow_add]
        push_cast
        field_simp
      have hround : (d.round (p : ℤ)).value =
          nearestEven d.coefficient (10 ^ k) * ((10 : ℚ) ^ p)⁻¹ := by
        rw [← Int.ofNat_eq_natCast, round, if_neg h, value, hk, Nat.add_sub_cancel_left]
        rfl
      rw [hround, hvalue]
      exact roundsTo_nearestEven hunit _ (by positivity)
  | negSucc k =>
    rw [Int.neg_negSucc, zpow_natCast] at hunit ⊢
    have hvalue : d.value =
        d.coefficient / (10 ^ (d.places + (k + 1)) : ℕ) * (10 : ℚ) ^ (k + 1) := by
      rw [value, pow_add]
      push_cast
      field_simp
    have hround : (d.round (Int.negSucc k)).value =
        nearestEven d.coefficient (10 ^ (d.places + (k + 1))) * (10 : ℚ) ^ (k + 1) := by
      rw [round, value]
      push_cast
      ring
    rw [hround, hvalue]
    exact roundsTo_nearestEven hunit _ (by positivity)

/-- Dropping zeros keeps the value. -/
theorem value_normalize (d : Decimal) : d.normalize.value = d.value := by
  obtain ⟨k, hk⟩ := Nat.exists_eq_add_of_le d.places_normalize_le
  have h := d.normalize_value
  rw [hk, Nat.add_sub_cancel_left] at h
  rw [value, value, ← h, hk, pow_add]
  push_cast
  field_simp

end Decimal

end ChatCalculator
