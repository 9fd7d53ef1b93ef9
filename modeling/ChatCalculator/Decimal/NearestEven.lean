/-!
# Division to the nearest integer

Every rounding of the calculator, to decimal places, to significant digits or to a binary
significand, is one division of natural numbers whose quotient is taken to the nearest integer,
and of two equally near ones to the even one.

## Main definitions

* `nearestEven n d`: the integer nearest to `n / d`

## Main results

* `nearestEven_lower`, `nearestEven_upper`: the quotient is at most half a unit away
* `nearestEven_tie`: a quotient half a unit away is even
-/

namespace ChatCalculator

/-- The natural number nearest to `n / d`, the even one of two equally near ones. -/
def nearestEven (n d : Nat) : Nat :=
  if 2 * (n % d) < d then n / d
  else if d < 2 * (n % d) then n / d + 1
  else n / d + n / d % 2

theorem nearestEven_lower (n d : Nat) : 2 * (d * nearestEven n d) ≤ 2 * n + d := by
  have h := Nat.div_add_mod n d
  rw [nearestEven]
  split
  · omega
  · split
    · rw [Nat.mul_add]; omega
    · rcases Nat.mod_two_eq_zero_or_one (n / d) with hq | hq <;> rw [hq, Nat.mul_add] <;> omega

theorem nearestEven_upper (n : Nat) {d : Nat} (hd : 0 < d) :
    2 * n ≤ 2 * (d * nearestEven n d) + d := by
  have h := Nat.div_add_mod n d
  have hr := Nat.mod_lt n hd
  rw [nearestEven]
  split
  · omega
  · split
    · rw [Nat.mul_add]; omega
    · rcases Nat.mod_two_eq_zero_or_one (n / d) with hq | hq <;> rw [hq, Nat.mul_add] <;> omega

theorem nearestEven_tie {n d : Nat} (hd : 0 < d)
    (h : 2 * (d * nearestEven n d) = 2 * n + d ∨ 2 * n = 2 * (d * nearestEven n d) + d) :
    nearestEven n d % 2 = 0 := by
  have hn := Nat.div_add_mod n d
  have hr := Nat.mod_lt n hd
  rw [nearestEven] at h ⊢
  split at h
  · omega
  · split at h
    · rw [Nat.mul_add] at h; omega
    · rename_i h₁ h₂
      rw [if_neg h₁, if_neg h₂]
      omega

end ChatCalculator
