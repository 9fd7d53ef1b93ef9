import ChatCalculator.Chat.Message
import ChatCalculator.Display.Basic
import ChatCalculator.Text.Quoted

/-!
# Failed commands

A command that fails is answered with one message. Failures that a user can mend are explained;
any other failure is also logged and passed on.

## Main definitions

* `Failure`: why a command fails
* `Failure.message`, `Failure.isExpected`: the answer, and whether nothing else is done
* `Report`, `Failure.report`: all that follows a command
-/

namespace ChatCalculator

namespace Chat

/-- Why a command fails. -/
inductive Failure
  /-- The command is used in a direct message but needs a server. -/
  | serverOnly
  /-- The user may not use the command. -/
  | notAllowed
  /-- There is no such command. -/
  | unknownCommand (text : Option String)
  /-- A parameter is not of the kind that the command takes. -/
  | badParameter (text : String)
  /-- A parameter is missing. -/
  | missingParameter (name : String)
  /-- There are more parameters than the command takes. -/
  | tooManyParameters
  /-- An expression has no value. -/
  | unsolvable (error : Expression.Error)
  /-- The bot refuses, and says why. -/
  | refused (text : String)
  /-- The value of a parameter or of a setting is of no use. -/
  | invalidValue (text : Option String)
  /-- A result is beyond the largest number. -/
  | overflow
  /-- Something is missing that was to be found under a key; the text is that of the key. -/
  | missingKey (key : String)
  /-- The command itself is at fault in some other way. -/
  | badCommand (kind text : String)
  /-- Any other failure, of some kind. -/
  | unexpected (kind text : String)
deriving DecidableEq

namespace Failure

/-- The failure of a command whose operation on a display fails. -/
def ofDisplay : Display.Failure → Failure
  | .unsolvable ⟨.unknownOperator symbol, _⟩ => .missingKey (.ofList (quoted symbol))
  | .unsolvable e => .unsolvable e
  | .result .overflow => .overflow
  | failure => .invalidValue (some failure.message)

/-- The answer to a command that fails. -/
def message : Failure → String
  | .serverOnly => "This command can only be used in a server"
  | .notAllowed => "Error: You do not meet the requirements to use this command"
  | .unknownCommand none => "Error: command not found"
  | .unknownCommand (some text) => text
  | .badParameter text => text ++ "\nSee the help text for valid parameters"
  | .missingParameter name =>
    "Missing parameter: " ++ name ++ "\nSee the help text for valid parameters"
  | .tooManyParameters => "Too many parameters\nSee the help text for valid parameters"
  | .unsolvable e => "Invalid expression: " ++ e.message
  | .refused text => "Error: " ++ text
  | .invalidValue none => "Invalid parameter"
  | .invalidValue (some text) => "Invalid parameter: " ++ text
  | .overflow => "Error: " ++ ResultFault.overflow.message
  | .missingKey key => "Error: " ++ key
  | .badCommand _ text => "Error: " ++ text
  | .unexpected _ text => "Error: " ++ text

/-- Whether a failure is one that users bring about and can mend. -/
def isExpected : Failure → Bool
  | .overflow | .missingKey _ | .badCommand _ _ | .unexpected _ _ => false
  | _ => true

end Failure

/-- What follows a command: messages, a failure that is passed on, and lines in the log. -/
structure Report where
  /-- The messages sent, in order. -/
  sent : List Message
  /-- The failure that is passed on. -/
  raised : Option Failure := none
  /-- The lines added to the log. -/
  log : List String := []
deriving DecidableEq

/-- What follows a command that fails. -/
def Failure.report (command : String) (f : Failure) : Report :=
  if f.isExpected then { sent := [.text f.message] }
  else
    { sent := [.text f.message]
      raised := some f
      log := ["ERROR Unhandled error in " ++ command] }

end Chat

end ChatCalculator
