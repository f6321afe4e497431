import HandlerLint.CommandLine.Outcome
import HandlerLint.Config.Basic
import HandlerLint.Files.Workspace

/-!
# Writing a configuration file

A new configuration file is written where nothing stands yet, and the directories above
it are made.  The directories are made first, and stay even where the file cannot be
written after that.
-/

namespace HandlerLint.CommandLine

open HandlerLint.Files

/-- What is said after a configuration file has been written. -/
def createdMessage (output : String) : String :=
  "Created " ++ output ++ "\n\nNext steps:\n  1. Edit " ++ output ++
    " to customize for your project\n  2. Run: swallowcheck lint . --config " ++ output ++ "\n"

/-- What is said where something stands at the path already. -/
def presentMessage (output : String) : String :=
  "Error: file already exists: " ++ output ++
    "\nRemove it or use --output to specify a different path\n"

/-- Make the directories above a path, unless it has none of its own. -/
def makeParents (workspace : Workspace) (output : String) : Workspace × Option FileError :=
  match Path.parent? output.toList with
  | some parent =>
      if parent = [] ∨ Path.components parent = [.current] then (workspace, none)
      else workspace.makeDirectories (String.ofList parent)
  | none => (workspace, none)

/-- Write a new configuration file to a path. -/
def writeTemplate (workspace : Workspace) (output : String) : Workspace × Outcome :=
  if workspace.isPresent output then (workspace, .failure (presentMessage output))
  else
    match makeParents workspace output with
    | (made, some cause) =>
        (made, .failure ("Error: failed to create directory: " ++ cause.message ++ "\n"))
    | (made, none) =>
        match made.write output (Text.encode Config.template) with
        | .error cause =>
            (made, .failure ("Error: failed to write config: " ++ cause.message ++ "\n"))
        | .ok written =>
            (written, { exitCode := .success, stdout := createdMessage output, stderr := "" })

end HandlerLint.CommandLine
