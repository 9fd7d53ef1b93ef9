import ChatCalculator.Binary64.Nearest

/-!
# Numerals

A numeral is written with digits, possibly a minus sign in front, and possibly a point with more
digits behind it. It stands for the nearest number.

## Main definitions

* `Numeral`, `Numeral.text`, `Numeral.value`: a numeral, its text and the number that it stands for
* `Numeral.scan?`: the longest numeral at the start of a text

## Main results

* `Numeral.text_isPrefix_of_scan?`: a numeral that is read is the start of the text
-/

namespace ChatCalculator

namespace Expression

/-- A number as it is written. -/
structure Numeral where
  /-- Whether a minus sign stands in front. -/
  negative : Bool
  /-- The digits before the point. -/
  whole : List Char
  /-- The digits after the point, if there is a point. -/
  fraction : Option (List Char)
deriving DecidableEq

namespace Numeral

/-- The point, if there is one, and the digits behind it. -/
def fractionText : Option (List Char) → List Char
  | none => []
  | some digits => '.' :: digits

/-- The characters of a numeral. -/
def text (n : Numeral) : List Char :=
  (if n.negative then ['-'] else []) ++ (n.whole ++ fractionText n.fraction)

/-- The same numeral without its sign. -/
def unsigned (n : Numeral) : Numeral :=
  { n with negative := false }

/-- The size of a numeral as a decimal. -/
def magnitude (n : Numeral) : Decimal :=
  let places := n.fraction.getD []
  ⟨Nat.ofDigitChars 10 (n.whole ++ places) 0, places.length⟩

/-- The number nearest to a numeral. -/
def value (n : Numeral) : Binary64 :=
  .ofDecimal n.negative n.magnitude

/-- Reads an optional point and the digits behind it. -/
def scanFraction : List Char → Option (List Char)
  | '.' :: cs => some (cs.takeWhile Char.isDigit)
  | _ => none

/-- Reads a numeral without sign at the start of a text. -/
def scanUnsigned? (cs : List Char) : Option Numeral :=
  match cs.takeWhile Char.isDigit with
  | [] => none
  | c :: digits => some ⟨false, c :: digits, scanFraction (cs.dropWhile Char.isDigit)⟩

/-- Reads the longest numeral at the start of a text. -/
def scan? : List Char → Option Numeral
  | '-' :: cs => (scanUnsigned? cs).map fun n => { n with negative := true }
  | cs => scanUnsigned? cs

/-! ### What is read -/

theorem fractionText_scanFraction_isPrefix (cs : List Char) :
    fractionText (scanFraction cs) <+: cs := by
  fun_cases scanFraction cs with
  | case1 cs => exact List.cons_prefix_cons.2 ⟨rfl, List.takeWhile_prefix _⟩
  | case2 => exact List.nil_prefix

theorem text_of_scanUnsigned? {cs : List Char} {n : Numeral} (h : scanUnsigned? cs = some n) :
    n.negative = false ∧ n.whole ++ fractionText n.fraction <+: cs := by
  rw [scanUnsigned?] at h
  split at h
  · cases h
  · rename_i c digits hd
    obtain rfl := Option.some.inj h
    refine ⟨rfl, ?_⟩
    have hsplit : cs.takeWhile Char.isDigit ++ cs.dropWhile Char.isDigit = cs :=
      List.takeWhile_append_dropWhile
    have hfraction := (List.prefix_append_right_inj (c :: digits)).2
      (fractionText_scanFraction_isPrefix (cs.dropWhile Char.isDigit))
    rwa [← hd, hsplit, hd] at hfraction

theorem text_isPrefix_of_scan? {cs : List Char} {n : Numeral} (h : scan? cs = some n) :
    n.text <+: cs := by
  unfold scan? at h
  split at h
  · obtain ⟨m, hm, rfl⟩ := Option.map_eq_some_iff.1 h
    exact List.cons_prefix_cons.2 ⟨rfl, (text_of_scanUnsigned? hm).2⟩
  · obtain ⟨hn, hp⟩ := text_of_scanUnsigned? h
    simpa [text, hn] using hp

end Numeral

end Expression

end ChatCalculator
