import HandlerLint.CommandLine.Init
import HandlerLint.CommandLine.Lint

/-!
# Running a command

A command is carried out on a workspace, with a parser for the sources in it, and shows
what comes of it in colours or without.  Linting leaves the workspace as it is.
-/

namespace HandlerLint.CommandLine

open HandlerLint.Files

/-- Carry a command out: the workspace after it, and what it shows. -/
def Command.run
    (command : Command) (workspace : Workspace) (parser : Source.Parser Language)
    (colours : Bool) : Workspace × Outcome :=
  match command with
  | .lint arguments => (workspace, lintPath workspace parser arguments colours)
  | .init output => writeTemplate workspace output

end HandlerLint.CommandLine
