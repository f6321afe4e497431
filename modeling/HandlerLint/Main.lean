import HandlerLint.CommandLine.Run
import HandlerLint.CommandLine.Snapshot

/-!
# The program

    swallowcheck lint PATH < snapshot.json

The command comes from the arguments and what it works on from standard input.  What the
command creates is written to disk.
-/

open HandlerLint
open HandlerLint.CommandLine

/-- How the program is used. -/
def usage : String :=
  "Usage: swallowcheck [-v] lint PATH [-c FILE] [-f pretty|json|sarif] [--show-suppressed]\n" ++
    "       swallowcheck [-v] init [-o FILE]\n"

/-- Answer arguments that are no command. -/
def answerUsage (error : UsageError) : IO UInt32 := do
  match error with
  | .displayHelp => IO.print usage
  | .displayVersion => IO.println ("swallowcheck " ++ Report.toolVersion)
  | _ => IO.eprint usage
  return error.exitCode.toUInt32

/-- Write what a command has created. -/
def writeEntries (entries : List (String × Files.Entry)) : IO Unit := do
  for (path, entry) in entries do
    match entry with
    | .directory => IO.FS.createDirAll path
    | .file bytes => IO.FS.writeBinFile path (ByteArray.mk bytes.toArray)
    | .link _ => pure ()

/-- Carry a command out on a snapshot. -/
def answerCommand (command : Command) (snapshot : Snapshot) : IO UInt32 := do
  let colours ← (← IO.getStdout).isTty
  let (workspace, outcome) := command.run snapshot.workspace snapshot.parser colours
  writeEntries (newEntries snapshot.workspace workspace)
  IO.print outcome.stdout
  IO.eprint outcome.stderr
  return outcome.exitCode.toNat.toUInt32

def main (arguments : List String) : IO UInt32 := do
  match Command.parse arguments with
  | .error error => answerUsage error
  | .ok command =>
      match Snapshot.parse? (← (← IO.getStdin).readToEnd) with
      | some snapshot => answerCommand command snapshot
      | none =>
          IO.eprintln "Error: standard input holds no snapshot"
          return 2
