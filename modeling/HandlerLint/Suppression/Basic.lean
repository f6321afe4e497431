import HandlerLint.Suppression.Directive
import HandlerLint.Text.Split
import HandlerLint.Diagnosis.Diagnostic

/-!
# Suppressions

A directive and its place make a suppression: of one line, of the next line, or of
the whole file.  A directive for the whole file is heard on the first lines only;
further down, its line has no directive at all.  A plain `ignore` covers its own
line, or the next one when nothing stands before it.
-/

namespace HandlerLint

open Text
open HandlerLint.Suppression (Directive lineDirective?)

/-- What a suppression covers. -/
inductive Coverage where
  | line
  | nextLine
  | file
deriving DecidableEq, Repr

/-- The name of a coverage in reports. -/
def Coverage.name : Coverage → String
  | .line => "line"
  | .nextLine => "nextline"
  | .file => "file"

/-- A request to keep a rule quiet. -/
structure Suppression where
  /-- A rule, or `*` for every rule. -/
  rule : String
  reason : String
  file : String
  /-- The directive's line, or zero when the file is covered. -/
  line : Nat
  coverage : Coverage
deriving DecidableEq, Repr

namespace Suppression

/-- A directive for a whole file is heard on this many lines. -/
def fileWindow : Nat :=
  10

/-- What a directive on a line covers, given the text before it on the line. -/
def coverage? (line : Nat) (before : List Char) (directive : Directive) :
    Option Coverage :=
  match directive.keyword with
  | .ignoreFile => if line ≤ fileWindow then some .file else none
  | .ignoreNextLine => some .nextLine
  | .ignore => some (if allBlank before then .nextLine else .line)

/-- The suppression that a line of a file asks for. -/
def ofLine? (file : String) (number : Nat) (line : List Char) : Option Suppression :=
  match lineDirective? line with
  | none => none
  | some (before, directive) =>
      (coverage? number before directive).map fun coverage =>
        { rule := String.ofList directive.rule
          reason := String.ofList directive.reason
          file
          line := if coverage = .file then 0 else number
          coverage }

/-- The suppressions that the lines of a file ask for, the first line having the given
number. -/
def ofLines (file : String) : Nat → List (List Char) → List Suppression
  | _, [] => []
  | number, line :: lines =>
      (ofLine? file number line).toList ++ ofLines file (number + 1) lines

/-- The suppressions of a file's content. -/
def parse (file : String) (content : List Char) : List Suppression :=
  ofLines file 1 (lines content)

/-- Whether a suppression covers a diagnostic. -/
def covers (suppression : Suppression) (diagnostic : Diagnostic) : Bool :=
  diagnostic.file == suppression.file &&
    (suppression.rule == "*" || suppression.rule == diagnostic.ruleId) &&
    match suppression.coverage with
    | .file => true
    | .line => diagnostic.line == suppression.line
    | .nextLine => diagnostic.line == suppression.line + 1

end Suppression

/-- A diagnostic that is kept quiet, and the suppression that asks for it. -/
structure SuppressedDiagnostic where
  diagnostic : Diagnostic
  suppression : Suppression
deriving DecidableEq, Repr

/-- Diagnostics divided into the active ones and the suppressed ones. -/
structure Filtered where
  active : List Diagnostic
  suppressed : List SuppressedDiagnostic
deriving DecidableEq, Repr

/-- Divide diagnostics by the first suppression that covers each. -/
def filterSuppressed (suppressions : List Suppression) : List Diagnostic → Filtered
  | [] => { active := [], suppressed := [] }
  | diagnostic :: diagnostics =>
      let rest := filterSuppressed suppressions diagnostics
      match suppressions.find? (·.covers diagnostic) with
      | some suppression =>
          { rest with suppressed := { diagnostic, suppression } :: rest.suppressed }
      | none => { rest with active := diagnostic :: rest.active }

end HandlerLint
