import ChatCalculator.CommandLine

/-!
# The program

Asks for an expression on standard input and prints its value. A failure is written to standard
error and ends the program with code `1`.
-/

open ChatCalculator

/-- Solves the expression on the first line of standard input. -/
def main : IO UInt32 := do
  let stdout ← IO.getStdout
  stdout.putStr CommandLine.prompt
  stdout.flush
  let line ← (← IO.getStdin).getLine
  match CommandLine.run line.toList with
  | .ok text =>
    stdout.putStr text
    return 0
  | .error failure =>
    IO.eprintln failure.message
    return 1
