import ChatCalculator.Expression.Evaluation

/-!
# The command line

The program asks for an expression, reads one line and prints its value. It fails if there is no
line, or if the line cannot be solved.

## Main definitions

* `CommandLine.prompt`: what is printed before the line is read
* `CommandLine.firstLine?`: the line that is read
* `CommandLine.run`: what is printed after it, or why the program fails
-/

namespace ChatCalculator

namespace CommandLine

/-- What is printed before the line is read. -/
def prompt : String := "Eq: "

/-- Why the program fails. -/
inductive Failure
  /-- There is nothing to read. -/
  | endOfInput
  /-- The expression has no value. -/
  | unsolvable (error : Expression.Error)
deriving DecidableEq

/-- The first line of the input without its end, if there is any input. -/
def firstLine? (input : List Char) : Option (List Char) :=
  match input with
  | [] => none
  | cs => some (cs.takeWhile (· ≠ '\n'))

/-- What is printed for the input behind the prompt. -/
def run (input : List Char) : Except Failure String :=
  match firstLine? input with
  | none => .error .endOfInput
  | some line =>
    match Expression.solve Expression.standardOperators line with
    | .error e => .error (.unsolvable e)
    | .ok value => .ok (.ofList (value.shortestText ++ ['\n']))

/-- A sentence about a failure. -/
def Failure.message : Failure → String
  | .endOfInput => "There is nothing to read"
  | .unsolvable e => e.message

end CommandLine

end ChatCalculator
