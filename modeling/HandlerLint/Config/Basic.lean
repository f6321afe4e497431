import HandlerLint.Files.Error
import HandlerLint.Glob.Match
import HandlerLint.Language.Basic
import HandlerLint.Severity
import HandlerLint.Text.Quoted

/-!
# Configuration

A configuration says how serious findings are, which of them fail a run, and which files
are looked at.  Everything in it may be left out.

Patterns and languages are checked when a configuration is loaded.  A configuration that
was not checked is still usable: a pattern that is none excludes nothing.
-/

namespace HandlerLint

open HandlerLint.Files
open HandlerLint.Glob (GlobError)

/-- A configuration. -/
structure Config where
  version : String
  /-- The severity of every diagnostic. -/
  severity? : Option Severity
  /-- The least severity that fails a run. -/
  failOn? : Option Severity
  includeTestFiles? : Option Bool
  /-- Patterns of paths that are not looked at. -/
  excludedPaths : List String
  /-- The identifiers of the languages that are looked at; all of them if there is
  none. -/
  languages : List String
deriving DecidableEq, Repr

/-- Why a configuration cannot be used. -/
inductive ConfigError where
  /-- The file cannot be read. -/
  | read (path : String) (cause : FileError)
  /-- The text is no configuration. -/
  | parse (path : String)
  /-- An excluded path is no pattern. -/
  | invalidGlob (pattern : String) (cause : GlobError)
  /-- A language is not known. -/
  | unknownLanguage (name : String)
deriving DecidableEq, Repr

namespace ConfigError

/-- What lies behind a configuration error. -/
def cause? : ConfigError → Option String
  | .read _ cause => some cause.message
  | .parse _ => none
  | .invalidGlob pattern cause => some (cause.message pattern)
  | .unknownLanguage _ => none

/-- What is said of a configuration error. -/
def message : ConfigError → String
  | .read path cause => "failed to read config " ++ path ++ ": " ++ cause.message
  | .parse path => "failed to parse config " ++ path
  | .invalidGlob pattern cause =>
      "invalid excluded_paths pattern " ++ Text.quote pattern ++ ": " ++
        cause.message pattern
  | .unknownLanguage name =>
      "unknown language " ++ Text.quote name ++ ", expected one of: " ++
        ", ".intercalate (Language.all.map Language.id)

end ConfigError

namespace Config

/-- The configuration that leaves everything out. -/
def empty : Config :=
  { version := ""
    severity? := none
    failOn? := none
    includeTestFiles? := none
    excludedPaths := []
    languages := [] }

/-- The severity of every diagnostic. -/
def severity (config : Config) : Severity :=
  config.severity?.getD .fallback

/-- The least severity that fails a run. -/
def failOn (config : Config) : Severity :=
  config.failOn?.getD .warning

/-- Whether test files are looked at. -/
def includesTests (config : Config) : Bool :=
  config.includeTestFiles?.getD true

/-- Whether a language is looked at. -/
def enables (config : Config) (identifier : String) : Bool :=
  config.languages.isEmpty || config.languages.contains identifier

/-- Whether a path is excluded. -/
def excludes (config : Config) (path : String) : Bool :=
  config.excludedPaths.any (Glob.isMatch · path)

/-- Check that every excluded path is a pattern. -/
def checkPatterns : List String → Except ConfigError Unit
  | [] => .ok ()
  | pattern :: patterns =>
      match Glob.parse pattern with
      | .ok _ => checkPatterns patterns
      | .error cause => .error (.invalidGlob pattern cause)

/-- Check that every language is known. -/
def checkLanguages (names : List String) : Except ConfigError Unit :=
  match names.find? fun name => (Language.ofId? name).isNone with
  | some name => .error (.unknownLanguage name)
  | none => .ok ()

/-- Check a configuration: its patterns first, then its languages. -/
def validate (config : Config) : Except ConfigError Unit := do
  checkPatterns config.excludedPaths
  checkLanguages config.languages

/-- The names of configuration files, in the order in which they are looked for. -/
def fileNames : List String :=
  ["swallowcheck.yaml", ".swallowcheck.yaml"]

/-- The lines of a new configuration file. -/
def templateLines : List String :=
  ["# swallowcheck configuration",
    "version: \"1\"",
    "",
    "# Severity attached to every exception hiding diagnostic: error, warning, info",
    "severity: warning",
    "",
    "# Minimum severity that makes `swallowcheck lint` exit non-zero",
    "fail_on: warning",
    "",
    "# Analyze test sources too",
    "include_test_files: true",
    "",
    "# Glob patterns for paths to skip",
    "excluded_paths:",
    "  - \"**/generated/**\"",
    "",
    "# Restrict analysis to these languages (empty means all):",
    "# cpp, java, javascript, python, tsx, typescript",
    "languages: []"]

/-- The text of a new configuration file. -/
def template : String :=
  String.join (templateLines.map (· ++ "\n"))

end Config

end HandlerLint
