import ComparisonRules.CommandLine.Run

/-!
# The program

Runs one command, writes what it prints, and ends with its exit code.
-/

open ComparisonRules.CommandLine

def main (arguments : List String) : IO UInt32 := do
  let outcome := run arguments
  (← IO.getStdout).putStr outcome.output
  match outcome with
  | .printed _ => pure ()
  | .failed report => IO.eprintln (report.headline ++ "\n" ++ report.details)
  | .refused => IO.eprintln (helpText none)
  | .aborted => IO.eprintln "log filter cut inside a character"
  return UInt32.ofNat outcome.exitCode
