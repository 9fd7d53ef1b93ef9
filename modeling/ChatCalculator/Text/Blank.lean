/-!
# Blank characters

Between the parts of an expression stand the blanks of ASCII. Keys pressed and the text after a
mention may hold any white space, of which there is more.

## Main definitions

* `isBlank`: the space, the tab and the four line separators of ASCII
* `isSpace`: white space of all scripts, with the four information separators of ASCII

## Main results

* `isSpace_of_isBlank`: every blank is white space
-/

namespace ChatCalculator

/-- Whether a character is a blank: a space, or a tab, line feed, vertical tab, form feed or
carriage return. -/
def isBlank (c : Char) : Bool :=
  c = ' ' || (0x09 ≤ c.toNat && c.toNat ≤ 0x0d)

/-- White space beyond ASCII. -/
def isWideSpace (c : Char) : Bool :=
  c.toNat ∈ [0x85, 0xa0, 0x1680, 0x2028, 0x2029, 0x202f, 0x205f, 0x3000] ||
    (0x2000 ≤ c.toNat && c.toNat ≤ 0x200a)

/-- Whether a character is white space. -/
def isSpace (c : Char) : Bool :=
  isBlank c || (0x1c ≤ c.toNat && c.toNat ≤ 0x1f) || isWideSpace c

theorem isSpace_of_isBlank {c : Char} (h : isBlank c) : isSpace c := by
  simp [isSpace, h]

end ChatCalculator
