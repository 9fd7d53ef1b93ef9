import ChatCalculator.Display.Key
import ChatCalculator.Display.Result
import ChatCalculator.Expression.Evaluation

/-!
# The display of a calculator

A display holds the expression that is being typed, the text that shows it, and the last result.
Keys are appended to the expression; while a result is shown, the first keys pressed start a new
expression from it. Evaluating the expression shows its rounded result.

## Main definitions

* `Display`: expression, text and result
* `Display.press`, `Display.backspace`, `Display.clear`, `Display.evaluate`, `Display.enter`: what
  can be done with a display
* `Operation`, `Display.perform`: the same as data, and a display after one of them
* `Display.output`, `Display.shownText`: what a display shows
-/

namespace ChatCalculator

/-- The expression being typed and the last result. -/
structure Display where
  /-- How many decimal places a result has. -/
  precision : Int
  /-- The key values that are evaluated. -/
  expression : List Char := []
  /-- The labels that are shown. -/
  text : List Char := []
  /-- The last result. -/
  result : Binary64 := .zero
  /-- Whether the result is shown and belongs to the expression. -/
  shown : Bool := false
deriving DecidableEq

namespace Display

/-- Why an operation on a display fails. -/
inductive Failure
  /-- The expression has no value. -/
  | unsolvable (error : Expression.Error)
  /-- A character pressed is neither a key nor white space. -/
  | unknownKey (character : Char)
  /-- A result cannot be rounded or shown. -/
  | result (fault : ResultFault)
deriving DecidableEq

/-- A sentence about a failure. -/
def Failure.message : Failure → String
  | .unsolvable e => e.message
  | .unknownKey c => "Not a calculator key: " ++ .singleton c
  | .result fault => fault.message

/-- The value of an expression, with the operators of the calculator. -/
def solve (expression : List Char) : Except Failure Binary64 :=
  (Expression.solve Expression.standardOperators expression).mapError .unsolvable

/-- The key values of the characters pressed. White space is no key and is passed over; the first
character that is neither is refused. -/
def pressedKeys : List Char → Except Failure (List Char)
  | [] => .ok []
  | c :: cs =>
    if isSpace c then pressedKeys cs
    else
      match keyValue? c with
      | none => .error (.unknownKey c)
      | some key => (key :: ·) <$> pressedKeys cs

/-- Starts over with the same characters as expression and as text. -/
def startWith (d : Display) (initial : List Char) : Display :=
  { d with expression := initial, text := initial, shown := false }

/-- The display that keys are appended to: while a finite result is shown, one that starts with
that result, while another one is shown, an empty one. -/
def resume (d : Display) : Except ResultFault Display :=
  if d.shown then
    if d.result.isFinite then d.startWith <$> resultText d.result d.precision
    else .ok (d.startWith [])
  else .ok d

/-- Presses keys, given by value or label. -/
def press (d : Display) (pressed : List Char) : Except Failure Display :=
  match pressedKeys pressed with
  | .error failure => .error failure
  | .ok values =>
    match d.resume with
    | .error fault => .error (.result fault)
    | .ok start =>
      .ok { start with
        expression := start.expression ++ values
        text := start.text ++ values.map keyLabel }

/-- Deletes the last key and hides the result. -/
def backspace (d : Display) : Display :=
  { d with expression := d.expression.dropLast, text := d.text.dropLast, shown := false }

/-- Deletes all keys and hides the result. -/
def clear (d : Display) : Display :=
  d.startWith []

/-- Rounds a value to the precision of the display and shows it. -/
def showValue (d : Display) (value : Binary64) : Except Failure Display :=
  match roundedResult value d.precision with
  | .error fault => .error (.result fault)
  | .ok result => .ok { d with result := result, shown := true }

/-- Solves the expression and shows its result. -/
def evaluate (d : Display) : Except Failure Display :=
  match solve d.expression with
  | .error failure => .error failure
  | .ok value => d.showValue value

/-- Solves an expression, in which labels are read as keys, and shows it with its result. If it
cannot be solved, the display stays; if its result cannot be rounded, the display has the
expression all the same. -/
def enter (d : Display) (entered : List Char) : Display × Option Failure :=
  let expression := entered.map labelKey
  match solve expression with
  | .error failure => (d, some failure)
  | .ok value =>
    let typed := { d with expression := expression, text := expression.map keyLabel }
    match typed.showValue value with
    | .error failure => (typed, some failure)
    | .ok showing => (showing, none)

/-! ### Operations as data -/

/-- What can be done with a display. -/
inductive Operation
  /-- Press keys. -/
  | press (pressed : List Char)
  /-- Enter a whole expression. -/
  | enter (entered : List Char)
  /-- Evaluate the expression. -/
  | evaluate
  /-- Delete the last key. -/
  | backspace
  /-- Delete all keys. -/
  | clear
deriving DecidableEq

/-- Whether an operation, if it succeeds, answers with the result of the display. -/
def Operation.answers : Operation → Bool
  | .enter _ | .evaluate => true
  | _ => false

/-- A display and no failure, or the failure and the display as it was. -/
def orStay (d : Display) : Except Failure Display → Display × Option Failure
  | .ok next => (next, none)
  | .error failure => (d, some failure)

/-- The display after an operation, and the failure of the operation, if it fails. -/
def perform (d : Display) : Operation → Display × Option Failure
  | .press pressed => d.orStay (d.press pressed)
  | .enter entered => d.enter entered
  | .evaluate => d.orStay d.evaluate
  | .backspace => (d.backspace, none)
  | .clear => (d.clear, none)

/-! ### What is shown -/

/-- The text of the result, empty while none is shown. -/
def output (d : Display) : Except ResultFault (List Char) :=
  if d.shown then resultText d.result d.precision else .ok []

/-- The whole display: the text, and below it the result while one is shown. -/
def shownText (d : Display) : Except ResultFault (List Char) :=
  if d.shown then (d.text ++ ['\n', '=', ' '] ++ ·) <$> d.output else .ok d.text

end Display

end ChatCalculator
