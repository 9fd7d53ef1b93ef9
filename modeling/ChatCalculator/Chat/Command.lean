import ChatCalculator.Chat.Failure

/-!
# Commands

Every command works on one display, that of the user who gives it in the channel where it is
given. It changes the display and answers with an embed: the entered expression and its result, or
the whole display.

## Main definitions

* `Command`: what a user can ask for
* `CommandInfo`, `commandTable`: the names of the commands
* `panel`: the embed that shows a display
* `Command.run`: the display after a command, and the answer or failure
-/

namespace ChatCalculator

namespace Chat

/-- What a user can ask for. -/
inductive Command
  /-- Enter a whole expression. -/
  | calculate (expression : List Char)
  /-- Press keys. -/
  | press (pressed : List Char)
  /-- Delete the last key. -/
  | back
  /-- Delete all keys. -/
  | clear
  /-- Evaluate the expression on the display. -/
  | evaluate
  /-- Look at the display. -/
  | look
deriving DecidableEq

/-- How a command is called. -/
structure CommandInfo where
  /-- The name of the command. -/
  name : String
  /-- Other names for it. -/
  aliases : List String
  /-- Whether parameters beyond those that the command takes are passed over. -/
  ignoresExtra : Bool
deriving DecidableEq

/-- The main command, followed by its subcommands in the order of their names. -/
def commandTable : List CommandInfo := [
  ⟨"calc", ["c"], true⟩,
  ⟨"back", ["backspace", "bksp"], false⟩,
  ⟨"clear", ["ac"], false⟩,
  ⟨"eval", ["equals", "="], false⟩,
  ⟨"press", ["type", "p"], true⟩,
  ⟨"show", [], false⟩]

/-- The field of an embed that shows a text in a fixed-width font; an empty text is a space. -/
def displayField (name : String) (text : List Char) : Field where
  name := name
  value := codeSpan (.ofList (if text = [] then [' '] else text))

/-- The failure of a command that cannot show a result. -/
def Failure.ofResult (fault : ResultFault) : Failure :=
  .ofDisplay (.result fault)

/-- The embed that shows the display of a user. -/
def panel (author : Author) (d : Display) : Except Failure Message :=
  match d.output with
  | .error fault => .error (.ofResult fault)
  | .ok output =>
    .ok (.embed {
      author := some author
      fields := [displayField "Expression" d.text, displayField "Result" output] })

/-- The embed that shows an entered expression and its result. -/
def answer (expression : List Char) (d : Display) : Except Failure Message :=
  match d.output with
  | .error fault => .error (.ofResult fault)
  | .ok output =>
    .ok (.embed {
      description := some (codeSpan (.ofList expression) ++ " = " ++ .ofList output) })

/-- The display after an operation, and the reply that shows it, unless the operation failed. -/
def operate (operation : Display.Operation) (reply : Display → Except Failure Message)
    (d : Display) : Display × Except Failure Message :=
  match d.perform operation with
  | (next, some failure) => (next, .error (.ofDisplay failure))
  | (next, none) => (next, reply next)

/-- The display after a command, and the answer or the failure. Quotes around a parameter are
dropped. -/
def Command.run (author : Author) (d : Display) : Command → Display × Except Failure Message
  | .calculate parameter =>
    let expression := dropQuotes parameter
    operate (.enter expression) (answer expression) d
  | .press parameter => operate (.press (dropQuotes parameter)) (panel author) d
  | .back =>
    if d.expression = [] then (d, .error (.refused "Nothing to delete"))
    else operate .backspace (panel author) d
  | .clear => operate .clear (panel author) d
  | .evaluate => operate .evaluate (panel author) d
  | .look => (d, panel author d)

end Chat

end ChatCalculator
