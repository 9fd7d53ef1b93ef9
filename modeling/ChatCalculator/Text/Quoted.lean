import ChatCalculator.Text.Printable

/-!
# Quoted text

A text is quoted to show it inside a message. Single quotes are preferred; a text that holds one,
and no double quote, stands in double quotes. Whatever would not show as it is, is escaped.

## Main definitions

* `escape`: how one character is written between quotes
* `quoted`: a text in quotes
-/

namespace ChatCalculator

/-- A number in lower-case hexadecimal digits, padded with zeros to a width. -/
def hexDigits (width n : Nat) : List Char :=
  let digits := Nat.toDigits 16 n
  List.replicate (width - digits.length) '0' ++ digits

/-- A character as it is written between two of the given quotes. -/
def escape (quote c : Char) : List Char :=
  if c = quote ∨ c = '\\' then ['\\', c]
  else if c = '\t' then ['\\', 't']
  else if c = '\n' then ['\\', 'n']
  else if c = '\r' then ['\\', 'r']
  else if isPrintable c then [c]
  else if c.toNat < 0x100 then '\\' :: 'x' :: hexDigits 2 c.toNat
  else if c.toNat < 0x10000 then '\\' :: 'u' :: hexDigits 4 c.toNat
  else '\\' :: 'U' :: hexDigits 8 c.toNat

/-- The quotes that a text is put in: single ones unless that needs an escape which double ones
do not. -/
def quoteFor (text : List Char) : Char :=
  if '\'' ∈ text ∧ '"' ∉ text then '"' else '\''

/-- A text in quotes. -/
def quoted (text : List Char) : List Char :=
  let quote := quoteFor text
  quote :: (text.flatMap (escape quote) ++ [quote])

end ChatCalculator
