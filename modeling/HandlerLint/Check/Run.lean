import HandlerLint.Check.Result
import HandlerLint.Config.Basic
import HandlerLint.Diagnosis.Rule
import HandlerLint.Files.Workspace
import HandlerLint.Lowering.Machine

/-!
# Checking files

Each file is checked on its own: it is read, parsed, lowered and diagnosed, and its own
directives decide which of its diagnostics are suppressed.  Files in no known or no
enabled language count for nothing; a file that cannot be read or lowered counts as a
failure.  The results of all files are merged and sorted.
-/

namespace HandlerLint.Check

open HandlerLint.Files

/-- What files are checked with. -/
structure Setup where
  config : Config
  workspace : Workspace
  parser : Source.Parser Language

/-- The result of a file that could not be checked. -/
def failure (file error : String) : CheckResult :=
  { CheckResult.empty with failures := [{ file, error }] }

/-- The result of a file with given content and diagnostics. -/
def diagnosed
    (file : String) (bytes : List UInt8) (diagnostics : List Diagnostic) : CheckResult :=
  if diagnostics.isEmpty then { CheckResult.empty with scanned := 1 }
  else
    let suppressions := Suppression.parse file (Text.decodeLossy bytes)
    let filtered := filterSuppressed suppressions diagnostics
    { CheckResult.empty with
      diagnostics := filtered.active
      suppressed := filtered.suppressed
      scanned := 1 }

namespace Setup

/-- The language that a file is checked in, if there is one. -/
def language? (setup : Setup) (file : String) : Option Language :=
  (Language.ofPath? file).filter (setup.config.enables ·.id)

/-- Check a file in a given language. -/
def checkAs (setup : Setup) (language : Language) (file : String) : CheckResult :=
  match setup.workspace.read file with
  | .error cause => failure file cause.message
  | .ok bytes =>
      match Lowering.lower language file bytes (setup.parser language bytes) with
      | .error cause => failure file (cause.message file)
      | .ok tree => diagnosed file bytes (Rule.run { severity := setup.config.severity } tree)

/-- Check one file. -/
def checkFile (setup : Setup) (file : String) : CheckResult :=
  match setup.language? file with
  | some language => setup.checkAs language file
  | none => .empty

/-- Check some files. -/
def check (setup : Setup) (files : List String) : CheckResult :=
  ((files.map setup.checkFile).foldl CheckResult.merge .empty).sort

end Setup

end HandlerLint.Check
