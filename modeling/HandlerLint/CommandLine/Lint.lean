import HandlerLint.Check.Run
import HandlerLint.Check.Selection
import HandlerLint.CommandLine.Arguments
import HandlerLint.CommandLine.Outcome
import HandlerLint.Config.Decode
import HandlerLint.Report.Document
import HandlerLint.Report.Pretty
import HandlerLint.Report.Sarif

/-!
# Linting

A run first settles what it scans: the path is resolved, the configuration is loaded, and
the files are selected.  Any of these may fail, and the run with it.  After that the
files are checked and the result is reported; only diagnostics decide how the run ends.
Whether a report for people has colours is settled by the terminal that it is shown on.
-/

namespace HandlerLint.CommandLine

open HandlerLint.Files

/-- Why a path cannot be linted. -/
inductive LintError where
  /-- The path names nothing. -/
  | path (path : String) (cause : FileError)
  /-- The configuration cannot be used. -/
  | config (cause : ConfigError)
  /-- The files cannot be collected. -/
  | walk (cause : WalkError)
deriving DecidableEq, Repr

/-- A message followed by what lies behind it. -/
def withCause (message : String) : Option String → String
  | some cause => message ++ ": " ++ cause
  | none => message

/-- What is said of a path that cannot be linted. -/
def LintError.message : LintError → String
  | .path given cause =>
      "Error: cannot access path " ++ Text.quote given ++ ": " ++ cause.message
  | .config cause => "Error: invalid config: " ++ withCause cause.message cause.cause?
  | .walk cause => "Error: " ++ withCause cause.message cause.cause?

/-- Read and check the configuration in a file. -/
def readConfig (workspace : Workspace) (path : String) : Except ConfigError Config :=
  match workspace.read path with
  | .error cause => .error (.read path cause)
  | .ok bytes => do
      let config ← Config.ofBytes path bytes
      config.validate
      return config

/-- The configuration file that is found for a resolved path: the one next to what is
scanned, or else the one in the working directory. -/
def configFile? (workspace : Workspace) (root : String) : Option String :=
  let directory :=
    if workspace.isDirectory root then root
    else ((Path.parent? root.toList).map String.ofList).getD "."
  (Config.discover? workspace directory).or (Config.discover? workspace ".")

/-- The configuration for a resolved path: the one that is asked for, the one that is
found, or the empty one. -/
def loadConfig
    (workspace : Workspace) (explicit : Option String) (root : String) :
    Except ConfigError Config :=
  match explicit.or (configFile? workspace root) with
  | some path => readConfig workspace path
  | none => .ok .empty

/-- What a run scans. -/
structure Scan where
  /-- The resolved path. -/
  root : String
  config : Config
  files : List String

/-- Settle what a run scans. -/
def Scan.settle
    (workspace : Workspace) (arguments : LintArguments) : Except LintError Scan := do
  let root ←
    match workspace.resolve arguments.path with
    | .ok location => .ok location.path
    | .error cause => .error (.path arguments.path cause)
  let config ←
    match loadConfig workspace arguments.config? root with
    | .ok config => .ok config
    | .error cause => .error (.config cause)
  if workspace.isDirectory root then
    match config.select workspace root with
    | .ok files => return { root, config, files }
    | .error cause => throw (.walk cause)
  else
    return { root, config, files := [root] }

/-- The report of a scan, in colours or without. -/
def Scan.report
    (scan : Scan) (arguments : LintArguments) (colours : Bool) (result : CheckResult) : String :=
  match arguments.format with
  | .json => Report.jsonText scan.root result scan.config.failOn
  | .sarif => Report.Sarif.text scan.root result scan.config.severity
  | .pretty =>
      Report.Pretty.text
        { base := scan.root
          failOn := scan.config.failOn
          showSuppressed := arguments.showSuppressed
          colours }
        result

/-- What a run over some settled files shows. -/
def Scan.outcome
    (scan : Scan) (workspace : Workspace) (parser : Source.Parser Language)
    (arguments : LintArguments) (colours : Bool) : Outcome :=
  if scan.files.isEmpty then
    { exitCode := .success, stdout := "", stderr := "Warning: no files to scan\n" }
  else
    let setup : Check.Setup := { config := scan.config, workspace, parser }
    let result := setup.check scan.files
    { exitCode := if result.fails scan.config.failOn then .failed else .success
      stdout := scan.report arguments colours result
      stderr := "" }

/-- Lint a path. -/
def lintPath
    (workspace : Workspace) (parser : Source.Parser Language)
    (arguments : LintArguments) (colours : Bool) : Outcome :=
  match Scan.settle workspace arguments with
  | .ok scan => scan.outcome workspace parser arguments colours
  | .error cause => .failure (cause.message ++ "\n")

end HandlerLint.CommandLine
