import ChatCalculator.Proofs.Binary64.Nearest

/-!
# Correct rounding

The number nearest to a decimal is said here without its computation. Among the places of the
format, continued without end, one is nearest, and where two are equally near it is the even one.
The number is the one at that place, with the sign of the decimal, or an infinity if the place is
beyond the largest number. There is exactly one such number, and it is the one that `ofDecimal`
computes.

## Main definitions

* `Magnitude.IsNearestPlace`: the nearest place, the even one of two equally near
* `Binary64.Rounded`: the correctly rounded number

## Main results

* `Magnitude.nearestOrdinal_mod_two_of_tie`: of two equally near places the even one is found
* `Binary64.rounded_iff`: `ofDecimal` is correct, and nothing else is
-/

namespace ChatCalculator

namespace Magnitude

/-- The place nearest to a value, the even one of two equally near places. -/
structure IsNearestPlace (q : ℚ) (o : ℕ) : Prop where
  /-- No place is nearer. -/
  nearest : ∀ k, |unitsAt o * unit - q| ≤ |unitsAt k * unit - q|
  /-- If another one is as near, this one is even. -/
  even : ∀ k ≠ o, |unitsAt k * unit - q| = |unitsAt o * unit - q| → o % 2 = 0

theorem unitsAt_mul_unit_strictMono : StrictMono fun o => (unitsAt o : ℚ) * unit :=
  fun _ _ h => mul_lt_mul_of_pos_right (Nat.cast_lt.mpr (unitsAt_strictMono h)) unit_pos

/-- Of two different even places that are equally near, neither is the nearest: an odd one lies
between them. -/
theorem IsNearestPlace.not_lt {q : ℚ} {o o' : ℕ} (h : IsNearestPlace q o)
    (h' : IsNearestPlace q o') : ¬ o < o' := by
  intro hlt
  have hdistance : |unitsAt o * unit - q| = |unitsAt o' * unit - q| :=
    le_antisymm (h.nearest o') (h'.nearest o)
  have heven := h.even o' hlt.ne' hdistance.symm
  have heven' := h'.even o hlt.ne hdistance
  have hfirst : (unitsAt o : ℚ) * unit < unitsAt (o + 1) * unit :=
    unitsAt_mul_unit_strictMono (Nat.lt_succ_self o)
  have hsecond : (unitsAt (o + 1) : ℚ) * unit < unitsAt o' * unit :=
    unitsAt_mul_unit_strictMono (show o + 1 < o' by omega)
  have hnearest := h.nearest (o + 1)
  -- the value is half way between the two places
  have hmiddle : unitsAt o * unit - q = -(unitsAt o' * unit - q) :=
    (abs_eq_abs.mp hdistance).resolve_left (by linarith)
  rw [abs_of_neg (by linarith : unitsAt o * unit - q < 0)] at hnearest
  have hcloser : |unitsAt (o + 1) * unit - q| < -(unitsAt o * unit - q) :=
    abs_lt.mpr ⟨by linarith, by linarith⟩
  exact absurd hnearest (not_le.mpr hcloser)

theorem IsNearestPlace.unique {q : ℚ} {o o' : ℕ} (h : IsNearestPlace q o)
    (h' : IsNearestPlace q o') : o = o' :=
  Nat.le_antisymm (Nat.not_lt.mp (h'.not_lt h)) (Nat.not_lt.mp (h.not_lt h'))

/-- **Of two equally near places the even one is found.** A place below the stretch is farther than
the start of the stretch, and among the multiples of the spacing the division has seen to it. -/
theorem nearestOrdinal_mod_two_of_tie (n : ℕ) {d k : ℕ} (hd : 0 < d) (hne : k ≠ nearestOrdinal n d)
    (htie : |(unitsAt k : ℚ) - n / d| = |(unitsAt (nearestOrdinal n d) : ℚ) - n / d|) :
    nearestOrdinal n d % 2 = 0 := by
  have hmul := abs_unitsAt_nearestOrdinal_sub_le_mul n hd
  have hunits := unitsAt_nearestOrdinal n hd
  have hunitsNe : unitsAt k ≠ unitsAt (nearestOrdinal n d) := unitsAt_strictMono.injective.ne hne
  obtain ⟨hlower, -⟩ := nearestScale_spec n d
  obtain ⟨j, hj⟩ : ∃ j, unitsAt k = j * 2 ^ nearestScale n d := by
    rcases hlower with hzero | hstart
    · exact ⟨unitsAt k, by rw [hzero, Nat.pow_zero, Nat.mul_one]⟩
    · rcases Nat.lt_or_ge (unitsAt k) (2 ^ 52 * 2 ^ nearestScale n d) with hk | hk
      · exfalso
        have hquot : ((2 ^ 52 * 2 ^ nearestScale n d : ℕ) : ℚ) ≤ n / d :=
          (Nat.cast_le.mpr hstart).trans Nat.cast_div_le
        have hbelow : (unitsAt k : ℚ) < (2 ^ 52 * 2 ^ nearestScale n d : ℕ) := Nat.cast_lt.mpr hk
        have hle := hmul (2 ^ 52)
        rw [← htie, abs_of_nonpos (sub_nonpos.mpr hquot),
          abs_of_nonpos (sub_nonpos.mpr (hbelow.le.trans hquot)), neg_le_neg_iff,
          sub_le_sub_iff_right] at hle
        exact absurd hbelow (not_lt.mpr hle)
      · obtain ⟨j, hj⟩ := dvd_unitsAt hk
        exact ⟨j, by rw [hj, Nat.mul_comm]⟩
  have hpos : 0 < d * 2 ^ nearestScale n d := by positivity
  have hjne : j ≠ nearestEven n (d * 2 ^ nearestScale n d) := by
    rintro rfl
    exact hunitsNe (hj.trans hunits.symm)
  -- the two multiples are half a spacing away
  have hhalf : |(nearestEven n (d * 2 ^ nearestScale n d) : ℚ) -
      n / (d * 2 ^ nearestScale n d : ℕ)| = 1 / 2 := by
    rw [hj, hunits, abs_mul_two_pow_sub n hd, abs_mul_two_pow_sub n hd] at htie
    have hspacing : (2 : ℚ) ^ nearestScale n d ≠ 0 := by positivity
    have heq := mul_right_cancel₀ hspacing htie
    have hone := one_le_abs_sub_add_abs_sub hjne (n / (d * 2 ^ nearestScale n d : ℕ))
    have hle := abs_nearestEven_sub_le_half n hpos
    linarith
  have heven := nearestEven_mod_two_of_abs_sub_eq hpos hhalf
  rw [nearestOrdinal]
  omega

/-- The place at which a decimal is read is the nearest one. -/
theorem isNearestPlace_decimalOrdinal (d : Decimal) :
    IsNearestPlace d.value (Binary64.decimalOrdinal d) where
  nearest := Binary64.abs_unitsAt_decimalOrdinal_sub_le d
  even k hk htie := by
    rw [← Binary64.abs_unitsAt_sub_mul_unit, ← Binary64.abs_unitsAt_sub_mul_unit] at htie
    exact nearestOrdinal_mod_two_of_tie _ (by positivity) hk
      (mul_right_cancel₀ unit_pos.ne' htie)

end Magnitude

namespace Binary64

/-- The correctly rounded number with a sign and a size. -/
inductive Rounded (negative : Bool) (size : ℚ) : Binary64 → Prop
  /-- The nearest place is that of a number. -/
  | finite {m : Magnitude} (h : Magnitude.IsNearestPlace size m.ordinal) :
      Rounded negative size (.finite negative m)
  /-- The nearest place is beyond the largest number. -/
  | infinity {o : ℕ} (h : Magnitude.IsNearestPlace size o) (hbeyond : 2047 * 2 ^ 52 ≤ o) :
      Rounded negative size (.infinity negative)

/-- Only one number is correctly rounded. -/
theorem Rounded.unique {negative : Bool} {size : ℚ} {x y : Binary64}
    (hx : Rounded negative size x) (hy : Rounded negative size y) : x = y := by
  cases hx with
  | @finite m hm =>
    cases hy with
    | @finite m' hm' =>
      obtain ⟨ordinal, hlt⟩ := m
      obtain ⟨ordinal', hlt'⟩ := m'
      obtain rfl : ordinal = ordinal' := hm.unique hm'
      rfl
    | infinity ho hbeyond =>
      rw [ho.unique hm] at hbeyond
      exact absurd m.ordinal_lt (Nat.not_lt.mpr hbeyond)
  | infinity ho hbeyond =>
    cases hy with
    | @finite m hm =>
      rw [ho.unique hm] at hbeyond
      exact absurd m.ordinal_lt (Nat.not_lt.mpr hbeyond)
    | infinity _ _ => rfl

theorem rounded_ofDecimal (negative : Bool) (d : Decimal) :
    Rounded negative d.value (ofDecimal negative d) := by
  have hplace := Magnitude.isNearestPlace_decimalOrdinal d
  rcases ofDecimal_cases negative d with ⟨m, hm, h⟩ | ⟨hbeyond, h⟩
  · rw [h]
    exact .finite (hm ▸ hplace)
  · rw [h]
    exact .infinity hplace hbeyond

/-- **Decimals are rounded correctly**, and in one way only. -/
theorem rounded_iff {negative : Bool} {d : Decimal} {x : Binary64} :
    Rounded negative d.value x ↔ x = ofDecimal negative d := by
  constructor
  · exact fun h => h.unique (rounded_ofDecimal negative d)
  · rintro rfl
    exact rounded_ofDecimal negative d

end Binary64

end ChatCalculator
