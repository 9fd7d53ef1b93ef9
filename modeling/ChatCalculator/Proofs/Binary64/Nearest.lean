import ChatCalculator.Binary64.Nearest
import ChatCalculator.Proofs.Decimal.Rounding
import Mathlib.Data.Nat.Cast.Order.Field
import Mathlib.Order.Monotone.Basic

/-!
# The nearest double precision number is the nearest

The rounding to a magnitude divides by the spacing of one stretch and looks at no other. That
it finds the nearest of *all* magnitudes is a fact about how the stretches lie: the magnitudes
above the start of a stretch are all multiples of its spacing, so the division has compared them,
and those below are farther away than the start itself, which is a multiple as well.

Nothing here depends on there being a largest magnitude. Places are continued without end, and
the bound only decides whether a place is that of a number or beyond the largest one.

## Main definitions

* `Magnitude.unitsAt`, `Magnitude.unit`: the value at a place in units, and the value of a unit
* `Magnitude.value`: the rational number that a magnitude stands for

## Main results

* `Magnitude.unitsAt_strictMono`: places are in ascending order
* `Magnitude.abs_unitsAt_nearestOrdinal_sub_le`: no place is nearer than the one found
* `Binary64.abs_unitsAt_decimalOrdinal_sub_le`: nor is one nearer to a decimal
* `Binary64.ofDecimal_congr`: only the value of a decimal matters
* `Binary64.ofDecimal_of_abs_sub_lt`: a decimal close to a number is read as that number
* `Binary64.isFinite_ofDecimal_of_abs_sub_le`: close to a number, nothing overflows
-/

namespace ChatCalculator

namespace Magnitude

/-- The value in units at a place, places being continued without end. -/
def unitsAt (o : ℕ) : ℕ :=
  (o - (o / 2 ^ 52 - 1) * 2 ^ 52) * 2 ^ (o / 2 ^ 52 - 1)

/-- The value of one unit. -/
def unit : ℚ :=
  ((2 ^ unitExponent : ℕ) : ℚ)⁻¹

/-- The rational number that a magnitude stands for. -/
def value (m : Magnitude) : ℚ :=
  unitsAt m.ordinal * unit

theorem units_eq_unitsAt (m : Magnitude) : m.units = unitsAt m.ordinal := rfl

theorem unit_pos : 0 < unit :=
  inv_pos.mpr (Nat.cast_pos.mpr (Nat.two_pow_pos unitExponent))

/-! ### Places -/

/-- The value at the place of a significand within its stretch. The significand may have reached
the next stretch already. -/
theorem unitsAt_add {s q : ℕ} (hs : s = 0 ∨ 2 ^ 52 ≤ q) (hq : q ≤ 2 ^ 53) :
    unitsAt (s * 2 ^ 52 + q) = q * 2 ^ s := by
  rcases Nat.lt_or_eq_of_le hq with hlt | rfl
  · have hscale : (s * 2 ^ 52 + q) / 2 ^ 52 - 1 = s := by omega
    rw [unitsAt, hscale, Nat.add_sub_cancel_left]
  · have hscale : (s * 2 ^ 52 + 2 ^ 53) / 2 ^ 52 - 1 = s + 1 := by omega
    have hrest : s * 2 ^ 52 + 2 ^ 53 - (s + 1) * 2 ^ 52 = 2 ^ 52 := by omega
    rw [unitsAt, hscale, hrest]
    ring

/-- Every place is that of a significand within its stretch. -/
theorem exists_stretch (o : ℕ) :
    ∃ s q, o = s * 2 ^ 52 + q ∧ (s = 0 ∨ 2 ^ 52 ≤ q) ∧ q < 2 ^ 53 :=
  ⟨o / 2 ^ 52 - 1, o - (o / 2 ^ 52 - 1) * 2 ^ 52, by omega, by omega, by omega⟩

/-- **Places are in ascending order.** -/
theorem unitsAt_strictMono : StrictMono unitsAt := by
  refine strictMono_nat_of_lt_succ fun o => ?_
  obtain ⟨s, q, rfl, hs, hq⟩ := exists_stretch o
  have hnext : s = 0 ∨ 2 ^ 52 ≤ q + 1 := by omega
  rw [Nat.add_assoc, unitsAt_add hs hq.le, unitsAt_add hnext hq]
  exact Nat.mul_lt_mul_of_pos_right (Nat.lt_succ_self q) (Nat.two_pow_pos s)

/-- From one stretch to the next there is at least one step. -/
theorem unitsAt_add_le {s o o' : ℕ} (h : o < s * 2 ^ 52 + 2 ^ 53) (h' : s * 2 ^ 52 + 2 ^ 53 ≤ o') :
    unitsAt o + 2 ^ s ≤ unitsAt o' := by
  have hlast : unitsAt (s * 2 ^ 52 + (2 ^ 53 - 1)) = (2 ^ 53 - 1) * 2 ^ s :=
    unitsAt_add (.inr (by decide)) (by decide)
  have hnext : unitsAt (s * 2 ^ 52 + 2 ^ 53) = 2 ^ 53 * 2 ^ s :=
    unitsAt_add (.inr (by decide)) le_rfl
  have hle := unitsAt_strictMono.monotone (show o ≤ s * 2 ^ 52 + (2 ^ 53 - 1) by omega)
  have hle' := unitsAt_strictMono.monotone h'
  rw [hlast] at hle
  rw [hnext] at hle'
  omega

/-- From the start of a stretch on, all values are multiples of its spacing. -/
theorem dvd_unitsAt {s k : ℕ} (h : 2 ^ 52 * 2 ^ s ≤ unitsAt k) : 2 ^ s ∣ unitsAt k := by
  obtain ⟨s', q, rfl, hs', hq⟩ := exists_stretch k
  rw [unitsAt_add hs' hq.le] at h ⊢
  have hpow : 2 ^ (52 + s) < 2 ^ (53 + s') := by
    rw [pow_add, pow_add]
    exact h.trans_lt (Nat.mul_lt_mul_of_pos_right hq (Nat.two_pow_pos s'))
  have hle : s ≤ s' := by
    have := (Nat.pow_lt_pow_iff_right (by decide)).mp hpow
    omega
  exact (pow_dvd_pow 2 hle).mul_left q

/-! ### The nearest place -/

/-- The stretch in which a quotient lies. -/
theorem nearestScale_spec (n d : ℕ) :
    (nearestScale n d = 0 ∨ 2 ^ 52 * 2 ^ nearestScale n d ≤ n / d) ∧
      n / d < 2 ^ 53 * 2 ^ nearestScale n d := by
  rcases eq_or_ne (n / d) 0 with hzero | hne
  · rw [nearestScale, hzero]
    exact ⟨.inl rfl, by positivity⟩
  · have hlower := Nat.log2_self_le hne
    have hupper := @Nat.lt_log2_self (n / d)
    rw [nearestScale]
    generalize (n / d).log2 = l at hlower hupper ⊢
    rcases Nat.lt_or_ge 52 l with hl | hl
    · obtain ⟨s, rfl⟩ := Nat.exists_eq_add_of_le hl.le
      rw [Nat.add_sub_cancel_left]
      rw [pow_add] at hlower
      rw [show 52 + s + 1 = 53 + s by omega, pow_add] at hupper
      exact ⟨.inr hlower, hupper⟩
    · rw [Nat.sub_eq_zero_of_le hl]
      have hpow : 2 ^ (l + 1) ≤ 2 ^ 53 := Nat.pow_le_pow_right (by decide) (by omega)
      exact ⟨.inl rfl, by omega⟩

/-- The rounded significand is that of the stretch, or has just reached the next one. -/
theorem nearestEven_bounds (n : ℕ) {d : ℕ} (hd : 0 < d) :
    (nearestScale n d = 0 ∨ 2 ^ 52 ≤ nearestEven n (d * 2 ^ nearestScale n d)) ∧
      nearestEven n (d * 2 ^ nearestScale n d) ≤ 2 ^ 53 := by
  obtain ⟨hlower, hupper⟩ := nearestScale_spec n d
  generalize nearestScale n d = s at hlower hupper ⊢
  have hpos : 0 < d * 2 ^ s := by positivity
  have hquot : n / (d * 2 ^ s) < 2 ^ 53 := by
    rw [← Nat.div_div_eq_div_mul]
    exact (Nat.div_lt_iff_lt_mul (Nat.two_pow_pos s)).mpr hupper
  have hround : n / (d * 2 ^ s) ≤ nearestEven n (d * 2 ^ s) ∧
      nearestEven n (d * 2 ^ s) ≤ n / (d * 2 ^ s) + 1 := by
    rw [nearestEven]
    split
    · omega
    · split <;> omega
  refine ⟨hlower.imp_right fun h => ?_, by omega⟩
  have hstart : 2 ^ 52 ≤ n / (d * 2 ^ s) := by
    rw [← Nat.div_div_eq_div_mul]
    exact (Nat.le_div_iff_mul_le (Nat.two_pow_pos s)).mpr h
  omega

theorem unitsAt_nearestOrdinal (n : ℕ) {d : ℕ} (hd : 0 < d) :
    unitsAt (nearestOrdinal n d) =
      nearestEven n (d * 2 ^ nearestScale n d) * 2 ^ nearestScale n d := by
  obtain ⟨hs, hq⟩ := nearestEven_bounds n hd
  exact unitsAt_add hs hq

/-- Distances in units and in spacings. -/
theorem abs_mul_two_pow_sub (n : ℕ) {d : ℕ} (hd : 0 < d) (i s : ℕ) :
    |((i * 2 ^ s : ℕ) : ℚ) - n / d| = |(i : ℚ) - n / (d * 2 ^ s : ℕ)| * 2 ^ s := by
  have hspacing : (0 : ℚ) < 2 ^ s := by positivity
  have hd' : (d : ℚ) ≠ 0 := by exact_mod_cast hd.ne'
  have hsplit : ((i * 2 ^ s : ℕ) : ℚ) - n / d = ((i : ℚ) - n / (d * 2 ^ s : ℕ)) * 2 ^ s := by
    push_cast
    field_simp
  rw [hsplit, abs_mul, abs_of_pos hspacing]

/-- No multiple of the spacing is nearer than the place found. -/
theorem abs_unitsAt_nearestOrdinal_sub_le_mul (n : ℕ) {d : ℕ} (hd : 0 < d) (j : ℕ) :
    |(unitsAt (nearestOrdinal n d) : ℚ) - n / d| ≤
      |((j * 2 ^ nearestScale n d : ℕ) : ℚ) - n / d| := by
  rw [unitsAt_nearestOrdinal n hd]
  generalize nearestScale n d = s
  have hpos : 0 < d * 2 ^ s := by positivity
  rw [abs_mul_two_pow_sub n hd, abs_mul_two_pow_sub n hd]
  exact mul_le_mul_of_nonneg_right (abs_nearestEven_sub_le n hpos j) (by positivity)

/-- **No place is nearer than the one found.** A place below the stretch is farther than the start
of the stretch, and all other places are multiples of the spacing. -/
theorem abs_unitsAt_nearestOrdinal_sub_le (n : ℕ) {d : ℕ} (hd : 0 < d) (k : ℕ) :
    |(unitsAt (nearestOrdinal n d) : ℚ) - n / d| ≤ |(unitsAt k : ℚ) - n / d| := by
  have hmul := abs_unitsAt_nearestOrdinal_sub_le_mul n hd
  obtain ⟨hlower, -⟩ := nearestScale_spec n d
  generalize nearestScale n d = s at hmul hlower
  rcases Nat.lt_or_ge (unitsAt k) (2 ^ 52 * 2 ^ s) with hk | hk
  · rcases hlower with rfl | hstart
    · simpa using hmul (unitsAt k)
    · have hquot : ((2 ^ 52 * 2 ^ s : ℕ) : ℚ) ≤ n / d :=
        (Nat.cast_le.mpr hstart).trans Nat.cast_div_le
      have hbelow : (unitsAt k : ℚ) ≤ (2 ^ 52 * 2 ^ s : ℕ) := Nat.cast_le.mpr hk.le
      refine (hmul (2 ^ 52)).trans ?_
      rw [abs_of_nonpos (sub_nonpos.mpr hquot),
        abs_of_nonpos (sub_nonpos.mpr (hbelow.trans hquot))]
      exact neg_le_neg (sub_le_sub_right hbelow _)
  · obtain ⟨j, hj⟩ := dvd_unitsAt hk
    rw [hj, Nat.mul_comm]
    exact hmul j

/-- A quotient close to the value at a place has that place. -/
theorem nearestOrdinal_eq_of_abs_sub_lt {n d k : ℕ} (hd : 0 < d)
    (h : |(unitsAt k : ℚ) - n / d| < 1 / 2) : nearestOrdinal n d = k := by
  by_contra hne
  have hone := one_le_abs_sub_add_abs_sub (unitsAt_strictMono.injective.ne hne) (n / d)
  have hnearest := abs_unitsAt_nearestOrdinal_sub_le n hd k
  linarith

theorem nearestOrdinal_mul_mul (n : ℕ) {d k : ℕ} (hk : 0 < k) :
    nearestOrdinal (n * k) (d * k) = nearestOrdinal n d := by
  have hscale : nearestScale (n * k) (d * k) = nearestScale n d := by
    rw [nearestScale, Nat.mul_div_mul_right _ _ hk, nearestScale]
  rw [nearestOrdinal, hscale, Nat.mul_right_comm d k, nearestEven_mul_mul _ hk, nearestOrdinal]

/-- Only the ratio matters. -/
theorem nearestOrdinal_congr {n d n' d' : ℕ} (hd : 0 < d) (hd' : 0 < d')
    (h : n * d' = n' * d) : nearestOrdinal n d = nearestOrdinal n' d' := by
  rw [← nearestOrdinal_mul_mul n hd', h, Nat.mul_comm d, nearestOrdinal_mul_mul n' hd]

/-! ### Values -/

theorem value_toDecimal (m : Magnitude) : m.toDecimal.value = m.value := by
  have h := m.toDecimal_value
  rw [units_eq_unitsAt] at h
  rw [Decimal.value, value, unit]
  have hunit := Nat.two_pow_pos unitExponent
  generalize 2 ^ unitExponent = u at h hunit ⊢
  have hq : (m.toDecimal.coefficient : ℚ) * u = unitsAt m.ordinal * 10 ^ m.toDecimal.places := by
    exact_mod_cast h
  rw [← div_eq_mul_inv, div_eq_div_iff (by positivity) (by positivity), hq]

@[simp] theorem value_zero : Magnitude.zero.value = 0 := by
  have hunits : unitsAt Magnitude.zero.ordinal = 0 := by decide
  rw [value, hunits, Nat.cast_zero, zero_mul]

/-- Numbers of which one is more than the units in one away are more than one apart. -/
theorem one_lt_sub_mul_unit {a b : ℕ} (h : a + 2 ^ unitExponent < b) : 1 < b * unit - a * unit := by
  rw [unit]
  have hunit := Nat.two_pow_pos unitExponent
  generalize 2 ^ unitExponent = u at h hunit ⊢
  have hu : (0 : ℚ) < u := Nat.cast_pos.mpr hunit
  have hq : (a : ℚ) + u < b := by exact_mod_cast h
  rw [← sub_mul, ← div_eq_mul_inv, lt_div_iff₀ hu]
  linarith

end Magnitude

/-! ### Decimals as numbers -/

namespace Binary64

open Magnitude (unitsAt unit unit_pos)

theorem nearest_eq_finite {n d : ℕ} {m : Magnitude}
    (h : Magnitude.nearestOrdinal n d = m.ordinal) (negative : Bool) :
    nearest negative n d = .finite negative m := by
  obtain ⟨ordinal, hordinal⟩ := m
  cases h
  exact dif_pos hordinal

theorem nearest_eq_infinity {n d : ℕ} (h : 2047 * 2 ^ 52 ≤ Magnitude.nearestOrdinal n d)
    (negative : Bool) : nearest negative n d = .infinity negative :=
  dif_neg (Nat.not_lt.mpr h)

/-- The place of the number that a decimal is read as. -/
def decimalOrdinal (d : Decimal) : ℕ :=
  Magnitude.nearestOrdinal (d.coefficient * 2 ^ unitExponent) (10 ^ d.places)

theorem ofDecimal_eq_nearest (negative : Bool) (d : Decimal) :
    ofDecimal negative d =
      nearest negative (d.coefficient * 2 ^ unitExponent) (10 ^ d.places) := rfl

theorem ofDecimal_eq_finite {d : Decimal} {m : Magnitude} (h : decimalOrdinal d = m.ordinal)
    (negative : Bool) : ofDecimal negative d = .finite negative m :=
  nearest_eq_finite h negative

/-- A decimal is read as a number of its sign, or lies beyond the largest one. -/
theorem ofDecimal_cases (negative : Bool) (d : Decimal) :
    (∃ m : Magnitude, decimalOrdinal d = m.ordinal ∧ ofDecimal negative d = .finite negative m) ∨
      2047 * 2 ^ 52 ≤ decimalOrdinal d ∧ ofDecimal negative d = .infinity negative := by
  rw [ofDecimal_eq_nearest, decimalOrdinal]
  generalize d.coefficient * 2 ^ unitExponent = n
  rcases Nat.lt_or_ge (Magnitude.nearestOrdinal n (10 ^ d.places)) (2047 * 2 ^ 52) with h | h
  · exact .inl ⟨⟨_, h⟩, rfl, nearest_eq_finite rfl negative⟩
  · exact .inr ⟨h, nearest_eq_infinity h negative⟩

/-- Only the value of a decimal matters. -/
theorem decimalOrdinal_congr {d d' : Decimal} (h : d.value = d'.value) :
    decimalOrdinal d = decimalOrdinal d' := by
  rw [Decimal.value, Decimal.value, div_eq_div_iff (by positivity) (by positivity)] at h
  have hnat : d.coefficient * 10 ^ d'.places = d'.coefficient * 10 ^ d.places := by
    exact_mod_cast h
  rw [decimalOrdinal, decimalOrdinal]
  generalize 2 ^ unitExponent = u
  refine Magnitude.nearestOrdinal_congr (by positivity) (by positivity) ?_
  rw [Nat.mul_right_comm, hnat, Nat.mul_right_comm]

theorem ofDecimal_congr {d d' : Decimal} (h : d.value = d'.value) (negative : Bool) :
    ofDecimal negative d = ofDecimal negative d' := by
  have hordinal := decimalOrdinal_congr h
  rw [decimalOrdinal, decimalOrdinal] at hordinal
  rw [ofDecimal_eq_nearest, ofDecimal_eq_nearest, nearest, nearest]
  simp only [hordinal]

/-- Distances from a decimal in units and in value. -/
theorem abs_unitsAt_sub_mul_unit (d : Decimal) (k : ℕ) :
    |(unitsAt k : ℚ) - (d.coefficient * 2 ^ unitExponent : ℕ) / (10 ^ d.places : ℕ)| * unit =
      |unitsAt k * unit - d.value| := by
  have hvalue : ((d.coefficient * 2 ^ unitExponent : ℕ) : ℚ) / (10 ^ d.places : ℕ) * unit =
      d.value := by
    rw [Decimal.value, unit]
    have hunit := Nat.two_pow_pos unitExponent
    generalize 2 ^ unitExponent = u at hunit ⊢
    push_cast
    field_simp
  rw [← hvalue, ← sub_mul, abs_mul, abs_of_pos unit_pos]

/-- **No place is nearer** to a decimal than the one that it is read at. -/
theorem abs_unitsAt_decimalOrdinal_sub_le (d : Decimal) (k : ℕ) :
    |unitsAt (decimalOrdinal d) * unit - d.value| ≤ |unitsAt k * unit - d.value| := by
  rw [← abs_unitsAt_sub_mul_unit, ← abs_unitsAt_sub_mul_unit]
  exact mul_le_mul_of_nonneg_right
    (Magnitude.abs_unitsAt_nearestOrdinal_sub_le _ (by positivity) k) unit_pos.le

/-- **A decimal close to a number is read as that number.** -/
theorem ofDecimal_of_abs_sub_lt {d : Decimal} {m : Magnitude}
    (h : |m.value - d.value| < unit / 2) (negative : Bool) :
    ofDecimal negative d = .finite negative m := by
  refine nearest_eq_finite (Magnitude.nearestOrdinal_eq_of_abs_sub_lt (by positivity) ?_) negative
  rw [Magnitude.value, ← abs_unitsAt_sub_mul_unit] at h
  exact lt_of_mul_lt_mul_right (by linarith) unit_pos.le

/-- A number is read back from its exact decimal. -/
theorem ofDecimal_toDecimal (m : Magnitude) (negative : Bool) :
    ofDecimal negative m.toDecimal = .finite negative m := by
  refine ofDecimal_of_abs_sub_lt ?_ negative
  rw [m.value_toDecimal, sub_self, abs_zero]
  exact half_pos unit_pos

/-- **Nothing overflows close to a number**: the largest one is much farther from the next place
than twice the distance allowed. -/
theorem isFinite_ofDecimal_of_abs_sub_le {d : Decimal} {m : Magnitude}
    (h : |m.value - d.value| ≤ 1 / 2) (negative : Bool) :
    (ofDecimal negative d).isFinite = true := by
  rcases ofDecimal_cases negative d with ⟨k, -, hk⟩ | ⟨hbeyond, -⟩
  · rw [hk]
    rfl
  · exfalso
    -- where the places of numbers end, one is fewer units than a step
    obtain ⟨s, hend, hs⟩ : ∃ s, s * 2 ^ 52 + 2 ^ 53 = 2047 * 2 ^ 52 ∧ unitExponent < s :=
      ⟨2045, by decide, by decide⟩
    have hlt := m.ordinal_lt
    have hstep : unitsAt m.ordinal + 2 ^ s ≤ unitsAt (decimalOrdinal d) :=
      Magnitude.unitsAt_add_le (by omega) (by omega)
    have hunits : 2 ^ unitExponent < 2 ^ s := Nat.pow_lt_pow_right (by decide) hs
    have hfar := Magnitude.one_lt_sub_mul_unit
      (lt_of_lt_of_le (Nat.add_lt_add_left hunits _) hstep)
    have hnear := abs_unitsAt_decimalOrdinal_sub_le d m.ordinal
    have htriangle := abs_sub_le (unitsAt (decimalOrdinal d) * unit) d.value m.value
    have hself := le_abs_self (unitsAt (decimalOrdinal d) * unit - m.value)
    rw [abs_sub_comm d.value] at htriangle
    rw [← Magnitude.value] at hfar hnear
    linarith

end Binary64

end ChatCalculator
