/-!
# Outcomes of a run

What a run of the program shows: its exit code and what it writes to the two output
streams.
-/

namespace HandlerLint.CommandLine

/-- How a run ends. -/
inductive ExitCode where
  /-- Nothing that fails the run was found. -/
  | success
  /-- A diagnostic fails the run. -/
  | failed
  /-- The run could not be carried out. -/
  | error
deriving DecidableEq, Repr

/-- The number of an exit code. -/
def ExitCode.toNat : ExitCode → Nat
  | .success => 0
  | .failed => 1
  | .error => 2

/-- What a run shows. -/
structure Outcome where
  exitCode : ExitCode
  stdout : String
  stderr : String
deriving DecidableEq, Repr

namespace Outcome

/-- A run that could not be carried out, and what is said about it. -/
def failure (message : String) : Outcome :=
  { exitCode := .error, stdout := "", stderr := message }

end Outcome

end HandlerLint.CommandLine
