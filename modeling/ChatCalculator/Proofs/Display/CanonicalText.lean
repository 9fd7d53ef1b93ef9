import ChatCalculator.Proofs.Decimal.Canonical
import ChatCalculator.Proofs.Display.ResultText

/-!
# Results have canonical texts

The text of a finite result has no digit that could be left out, and it is read back as the rounded
result. So it says which number the result was rounded to, no more and no less: two results have
the same text at a precision exactly if they are rounded to the same number.

A text is made in several steps. The number is rounded, the rounded number is written with all
places, which rounds its exact value once more, and then zeros are dropped. Rounding twice is the
subject of `ofDecimal_fixed`. What is added here is that the steps on the text amount to the
numeral of a decimal without zeros at its end.

## Main definitions

* `fixedNotation`: a number with all its places

## Main results

* `fixedText_eq_withoutZeros`: the text of a number is that notation without zeros at its end
* `canonical_fixedNumeral`: its numeral is canonical
* `resultText_canonical`: the text of a result, read back, and when two results have the same
-/

namespace ChatCalculator

open Expression Binary64

/-- A number in fixed notation with all places, half to even on its exact value. -/
def fixedNotation (places : ℕ) (negative : Bool) (m : Magnitude) : List Char :=
  signed negative ((m.toDecimal.round places).padded places).text

/-- The numeral of a number in fixed notation is canonical. -/
theorem canonical_fixedNumeral (places : ℕ) (negative : Bool) (m : Magnitude) :
    (fixedNumeral places negative m).Canonical places := by
  have hplaces : (m.fixed places).places ≤ places :=
    (Decimal.places_normalize_le _).trans (Decimal.places_round_ofNat_le m.toDecimal places)
  refine Decimal.canonical_numeral (Decimal.dropZeros_last _ _) hplaces fun h => ?_
  rw [Bool.and_eq_true, decide_eq_true_eq] at h
  exact h.2

/-- **The text of a number is its fixed notation without zeros at the end**, except that a zero has
no sign. -/
theorem fixedText_eq_withoutZeros (places : ℕ) (negative : Bool) (m : Magnitude) :
    fixedText places (finite negative m) =
      if withoutZeros (fixedNotation places negative m) = ['-', '0'] then ['0']
      else withoutZeros (fixedNotation places negative m) := by
  have hround : (m.toDecimal.round places).places ≤ places :=
    Decimal.places_round_ofNat_le m.toDecimal places
  have htext : withoutZeros (fixedNotation places negative m) =
      signed negative (m.fixed places).text := by
    rw [fixedNotation, Decimal.withoutZeros_text, Decimal.normalize_padded hround, Magnitude.fixed]
    rfl
  have hcanonical := (canonical_fixedNumeral places negative m).text_ne
  rw [fixedText_finite, htext]
  rw [fixedNumeral, Decimal.text_numeral] at hcanonical ⊢
  by_cases hcoefficient : (m.fixed places).coefficient = 0
  · -- all places are zero, and none of them is left
    have hfixed : m.fixed places = ⟨0, 0⟩ := by
      have hvalue := Decimal.normalize_value (m.toDecimal.round places)
      rw [Magnitude.fixed, Int.ofNat_eq_natCast] at hcoefficient ⊢
      rw [hcoefficient, Nat.zero_mul] at hvalue
      rw [Decimal.normalize, ← hvalue, Decimal.dropZeros_zero]
    rw [hfixed]
    cases negative <;> rfl
  · have hsign : (negative && decide ((m.fixed places).coefficient ≠ 0)) = negative := by
      simp [hcoefficient]
    rw [hsign] at hcanonical ⊢
    rw [if_neg hcanonical]

/-- The text of a finite result is that of the number that it is rounded to. -/
theorem resultText_of_roundedResult {x r : Binary64} {p : ℤ} (hx : x.isFinite = true)
    (hr : roundedResult x p = .ok r) (hp : 0 ≤ p) (hlt : p < 2 ^ 31) :
    resultText x p = .ok (fixedText p.toNat r) := by
  have hplaces : fixedPlaces p = .ok p.toNat :=
    fixedPlaces_eq_ok_iff.mpr ⟨hp, hlt, (Int.toNat_of_nonneg hp).symm⟩
  rw [resultText, if_pos hx, hr, hplaces]
  rfl

/-- The text of a finite result is that of a canonical numeral, which stands for the rounded
result. -/
theorem exists_canonical_of_resultText {x : Binary64} {p : ℤ} (hx : x.isFinite = true)
    (hp : 0 ≤ p) (hlt : p < 2 ^ 31) :
    ∃ n : Numeral, n.Canonical p.toNat ∧ resultText x p = .ok n.text ∧
      roundedResult x p = .ok n.value := by
  obtain ⟨r, hr⟩ := exists_roundedResult x hp
  have htext := resultText_of_roundedResult hx hr hp hlt
  rcases roundedResult_eq_ok hr with ⟨hinfinite, -⟩ | ⟨negative, m, -, rfl, hsign, hm⟩
  · rw [hx] at hinfinite
    cases hinfinite
  · rw [← Int.toNat_of_nonneg hp] at hm
    refine ⟨fixedNumeral p.toNat negative m, canonical_fixedNumeral _ _ _, ?_, ?_⟩
    · rw [htext, fixedText_finite]
    · rw [hr, value_fixedNumeral hm hsign]

/-- **The text of a finite result is canonical and is read back as the rounded result**, for every
number of places that fits into 32 bits. Two finite results have the same text exactly if they are
rounded to the same number. -/
theorem resultText_canonical {x : Binary64} (hx : x.isFinite = true) {p : ℤ} (hp : 0 ≤ p)
    (hlt : p < 2 ^ 31) :
    (∃ n : Numeral, n.Canonical p.toNat ∧ resultText x p = .ok n.text ∧
      Numeral.scan? n.text = some n ∧ roundedResult x p = .ok n.value) ∧
    ∀ y : Binary64, y.isFinite = true →
      (resultText x p = resultText y p ↔ roundedResult x p = roundedResult y p) := by
  obtain ⟨n, hn, htext, hvalue⟩ := exists_canonical_of_resultText hx hp hlt
  have hread : ∀ {k : Numeral}, k.Proper → Numeral.scan? k.text = some k := by
    intro k hk
    have h := Numeral.scan?_text_append hk endsNumeral_nil
    rwa [List.append_nil] at h
  refine ⟨⟨n, hn, htext, hread hn.proper, hvalue⟩, fun y hy => ⟨fun h => ?_, fun h => ?_⟩⟩
  · obtain ⟨k, hk, htext', hvalue'⟩ := exists_canonical_of_resultText hy hp hlt
    rw [htext, htext', Except.ok.injEq] at h
    have hscan := hread hn.proper
    rw [h, hread hk.proper, Option.some.injEq] at hscan
    rw [hvalue, hvalue', hscan]
  · rw [resultText_of_roundedResult hx hvalue hp hlt,
      resultText_of_roundedResult hy (h ▸ hvalue) hp hlt]

/-- A sum and the number it falls short of have the same text. -/
theorem resultText_canonical_tenths :
    (∃ n : Numeral, n.Canonical 8 ∧ resultText (.ofBits 0x3fd3333333333334) 8 = .ok n.text ∧
      Numeral.scan? n.text = some n ∧
        roundedResult (.ofBits 0x3fd3333333333334) 8 = .ok n.value) ∧
      resultText (.ofBits 0x3fd3333333333334) 8 = .ok ['0', '.', '3'] ∧
      resultText (.ofBits 0x3fd3333333333334) 8 = resultText (.ofBits 0x3fd3333333333333) 8 := by
  obtain ⟨hread, hsame⟩ := resultText_canonical (x := .ofBits 0x3fd3333333333334) (by decide)
    (p := 8) (by decide) (by decide)
  refine ⟨hread, by decide +kernel, (hsame (.ofBits 0x3fd3333333333333) (by decide)).mpr ?_⟩
  decide +kernel

end ChatCalculator
