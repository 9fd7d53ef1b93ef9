import ChatCalculator.Expression.Numeral
import ChatCalculator.Text.Blank

/-!
# Lexemes

An expression is cut into blanks, numerals, operator symbols and parentheses, always taking the
first of these kinds that fits; of the symbols, the first in the table. A minus sign in front of a
digit is taken as part of the numeral here, wherever it stands. Cutting ends where nothing fits,
or where only an empty symbol does.

## Main definitions

* `Lexeme`, `Lexeme.text`: the pieces of an expression and their characters
* `Lexeme.first?`: the piece at the start of a text
* `Lexeme.scan`: all pieces, and what is left where cutting ends

## Main results

* `Lexeme.flatMap_text_scan`: the pieces and the rest are the whole text, in order
-/

namespace ChatCalculator

namespace Expression

/-- A piece of an expression. -/
inductive Lexeme
  /-- Blanks, which separate other pieces. -/
  | blank (text : List Char)
  /-- A numeral, with a sign if one stands in front. -/
  | numeral (numeral : Numeral)
  /-- The symbol of an operator. -/
  | operator (symbol : List Char)
  /-- An opening parenthesis. -/
  | opening
  /-- A closing parenthesis. -/
  | closing
deriving DecidableEq

namespace Lexeme

/-- The characters of a piece. -/
def text : Lexeme → List Char
  | .blank cs => cs
  | .numeral n => n.text
  | .operator symbol => symbol
  | .opening => ['(']
  | .closing => [')']

/-- The blanks at the start of a text. -/
def blank? (cs : List Char) : Option Lexeme :=
  match cs.takeWhile isBlank with
  | [] => none
  | c :: blanks => some (.blank (c :: blanks))

/-- The first symbol that a text starts with. If there are no symbols at all, the empty one. -/
def symbol? (symbols : List (List Char)) (cs : List Char) : Option Lexeme :=
  if symbols = [] then some (.operator [])
  else (symbols.find? (·.isPrefixOf cs)).map .operator

/-- The parenthesis at the start of a text. -/
def parenthesis? : List Char → Option Lexeme
  | '(' :: _ => some .opening
  | ')' :: _ => some .closing
  | _ => none

/-- The piece at the start of a text. -/
def first? (symbols : List (List Char)) (cs : List Char) : Option Lexeme :=
  blank? cs <|> (Numeral.scan? cs).map .numeral <|> symbol? symbols cs <|> parenthesis? cs

theorem text_isPrefix_of_first? {symbols : List (List Char)} {cs : List Char} {l : Lexeme}
    (h : first? symbols cs = some l) : l.text <+: cs := by
  simp only [first?, Option.orElse_eq_orElse, Option.orElse_eq_or, Option.or_eq_some_iff] at h
  rcases h with h | ⟨-, h | ⟨-, h | ⟨-, h⟩⟩⟩
  · rw [blank?] at h
    split at h
    · cases h
    · rename_i c blanks hb
      obtain rfl := Option.some.inj h
      exact hb ▸ List.takeWhile_prefix isBlank
  · obtain ⟨n, hn, rfl⟩ := Option.map_eq_some_iff.1 h
    exact Numeral.text_isPrefix_of_scan? hn
  · rw [symbol?] at h
    split at h
    · obtain rfl := Option.some.inj h
      exact List.nil_prefix
    · obtain ⟨s, hs, rfl⟩ := Option.map_eq_some_iff.1 h
      have hp : s.isPrefixOf cs = true :=
        List.find?_some (p := fun x : List Char => x.isPrefixOf cs) hs
      exact List.isPrefixOf_iff_prefix.1 hp
  · unfold parenthesis? at h
    split at h
    · obtain rfl := Option.some.inj h
      exact List.cons_prefix_cons.2 ⟨rfl, List.nil_prefix⟩
    · obtain rfl := Option.some.inj h
      exact List.cons_prefix_cons.2 ⟨rfl, List.nil_prefix⟩
    · cases h

/-- Cuts a text into pieces, and returns what is left where no further piece fits. -/
def scan (symbols : List (List Char)) (cs : List Char) : List Lexeme × List Char :=
  match h : first? symbols cs with
  | none => ([], cs)
  | some l =>
    if ht : l.text = [] then ([], cs)
    else
      have : l.text.length ≤ cs.length ∧ 0 < l.text.length :=
        ⟨(text_isPrefix_of_first? h).length_le, List.length_pos_iff.2 ht⟩
      let (ls, rest) := scan symbols (cs.drop l.text.length)
      (l :: ls, rest)
termination_by cs.length

/-- Cutting loses nothing. -/
theorem flatMap_text_scan (symbols : List (List Char)) (cs : List Char) :
    (scan symbols cs).1.flatMap text ++ (scan symbols cs).2 = cs := by
  fun_induction scan symbols cs with
  | case1 => rfl
  | case2 => rfl
  | case3 cs l h ht _ ls rest hscan ih =>
    rw [hscan] at ih
    rw [List.flatMap_cons, List.append_assoc, ih]
    exact List.prefix_iff_eq_append.1 (text_isPrefix_of_first? h)

end Lexeme

end Expression

end ChatCalculator
