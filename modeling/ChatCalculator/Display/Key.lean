import ChatCalculator.Registry

/-!
# Keys

The calculator has a key for every character of an expression: digits, the point, operators and
parentheses. A key has a value, which is evaluated, and a label, which is shown. The labels of
multiplication and division differ from their values, and there is a label for the minus sign that
no key shows.

## Main definitions

* `keys`, `labels`: labels by values, and values by labels
* `keyLabel`, `labelKey`: the label of a key value, and the value of a label
* `keyValue?`: the value of a key, given by value or label
-/

namespace ChatCalculator

/-- The keys: values with their labels, in the order of the keyboard. -/
def keys : Registry Char Char where
  toList := [
    ('0', '0'), ('1', '1'), ('2', '2'), ('3', '3'), ('4', '4'), ('5', '5'), ('6', '6'), ('7', '7'),
    ('8', '8'), ('9', '9'), ('.', '.'), ('+', '+'), ('-', '-'), ('*', '×'), ('/', '÷'), ('^', '^'),
    ('(', '('), (')', ')')]
  nodup := by decide

/-- The labels with the values that they are read as: those of the keys, and the minus sign. -/
def labels : Registry Char Char where
  toList := keys.toList.map Prod.swap ++ [('−', '-')]
  nodup := by decide

/-- How a character of an expression is shown: a key value by its label. -/
def keyLabel (c : Char) : Char :=
  (keys.find? c).getD c

/-- How a character that is entered is read: a label as its key value. -/
def labelKey (c : Char) : Char :=
  (labels.find? c).getD c

/-- The key value that a character stands for, be it a key value itself or a label. -/
def keyValue? (c : Char) : Option Char :=
  if c ∈ keys.keys then some c else labels.find? c

end ChatCalculator
