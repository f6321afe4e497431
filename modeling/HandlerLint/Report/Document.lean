import HandlerLint.Check.Result
import HandlerLint.Json.Basic
import HandlerLint.Path.Relative

/-!
# The JSON report

A report as a document of its own, with its encoding as JSON and the decoding of it.
Empty lists of suppressed diagnostics and of failures are left out of the encoding
and read back as empty; a suppression without a reason is written without one.
-/

namespace HandlerLint.Report

/-- The version of the tool. -/
def toolVersion : String :=
  "0.1.0"

/-- A diagnostic in a report. -/
structure DiagnosticEntry where
  rule : String
  severity : String
  file : String
  line : Nat
  column : Nat
  endLine : Nat
  endColumn : Nat
  message : String
  correction : String
deriving DecidableEq, Repr

/-- A suppression in a report. -/
structure SuppressionEntry where
  rule : String
  reason : String
  line : Nat
  coverage : String
deriving DecidableEq, Repr

/-- A suppressed diagnostic in a report. -/
structure SuppressedEntry where
  diagnostic : DiagnosticEntry
  suppression : SuppressionEntry
deriving DecidableEq, Repr

/-- A failure in a report. -/
structure FailureEntry where
  file : String
  error : String
deriving DecidableEq, Repr

/-- A report. -/
structure Document where
  version : String
  path : String
  passed : Bool
  failOn : String
  filesScanned : Nat
  diagnostics : List DiagnosticEntry
  suppressed : List SuppressedEntry
  suppressedCount : Nat
  failures : List FailureEntry
deriving DecidableEq, Repr

/-! ## From a result -/

/-- The entry of a diagnostic. -/
def DiagnosticEntry.ofDiagnostic (base : String) (diagnostic : Diagnostic) :
    DiagnosticEntry :=
  let span := diagnostic.location.span
  { rule := diagnostic.ruleId
    severity := diagnostic.severity.name
    file := Path.relativeName base diagnostic.file
    line := span.startLine
    column := span.startCol
    endLine := span.endLine
    endColumn := span.endCol
    message := diagnostic.message
    correction := diagnostic.correction }

/-- The entry of a suppression. -/
def SuppressionEntry.ofSuppression (suppression : Suppression) : SuppressionEntry :=
  { rule := suppression.rule
    reason := suppression.reason
    line := suppression.line
    coverage := suppression.coverage.name }

/-- The report of a result, with paths relative to what was scanned. -/
def Document.ofResult (base : String) (result : CheckResult) (failOn : Severity) :
    Document :=
  { version := toolVersion
    path := base
    passed := !result.fails failOn
    failOn := failOn.name
    filesScanned := result.scanned
    diagnostics := result.diagnostics.map (.ofDiagnostic base)
    suppressed := result.suppressed.map fun entry =>
      { diagnostic := .ofDiagnostic base entry.diagnostic
        suppression := .ofSuppression entry.suppression }
    suppressedCount := result.suppressedCount
    failures := result.failures.map fun failure =>
      { file := Path.relativeName base failure.file, error := failure.error } }

/-! ## Encoding -/

/-- A diagnostic as JSON. -/
def DiagnosticEntry.toJson (entry : DiagnosticEntry) : Json :=
  .object
    [ ("rule", .string entry.rule)
    , ("severity", .string entry.severity)
    , ("file", .string entry.file)
    , ("line", .number entry.line)
    , ("column", .number entry.column)
    , ("end_line", .number entry.endLine)
    , ("end_column", .number entry.endColumn)
    , ("message", .string entry.message)
    , ("correction", .string entry.correction) ]

/-- A suppression as JSON. -/
def SuppressionEntry.toJson (entry : SuppressionEntry) : Json :=
  .object <|
    [("rule", Json.string entry.rule)] ++
      (if entry.reason.isEmpty then [] else [("reason", .string entry.reason)]) ++
      [("line", .number entry.line), ("type", .string entry.coverage)]

/-- A suppressed diagnostic as JSON. -/
def SuppressedEntry.toJson (entry : SuppressedEntry) : Json :=
  .object
    [("diagnostic", entry.diagnostic.toJson), ("suppression", entry.suppression.toJson)]

/-- A failure as JSON. -/
def FailureEntry.toJson (entry : FailureEntry) : Json :=
  .object [("file", .string entry.file), ("error", .string entry.error)]

/-- A member for a list, left out when the list is empty. -/
def listMember (name : String) (items : List Json) : List (String × Json) :=
  if items.isEmpty then [] else [(name, .array items)]

/-- A report as JSON. -/
def Document.toJson (document : Document) : Json :=
  .object <|
    [ ("version", Json.string document.version)
    , ("path", .string document.path)
    , ("passed", .bool document.passed)
    , ("fail_on", .string document.failOn)
    , ("files_scanned", .number document.filesScanned)
    , ("diagnostics", .array (document.diagnostics.map DiagnosticEntry.toJson)) ] ++
      listMember "suppressed" (document.suppressed.map SuppressedEntry.toJson) ++
      [("suppressed_count", .number document.suppressedCount)] ++
      listMember "failures" (document.failures.map FailureEntry.toJson)

/-! ## Decoding -/

/-- The diagnostic that a JSON value describes. -/
def DiagnosticEntry.ofJson? (json : Json) : Option DiagnosticEntry := do
  return {
    rule := ← (← json.member? "rule").string?
    severity := ← (← json.member? "severity").string?
    file := ← (← json.member? "file").string?
    line := ← (← json.member? "line").number?
    column := ← (← json.member? "column").number?
    endLine := ← (← json.member? "end_line").number?
    endColumn := ← (← json.member? "end_column").number?
    message := ← (← json.member? "message").string?
    correction := ← (← json.member? "correction").string? }

/-- The suppression that a JSON value describes. -/
def SuppressionEntry.ofJson? (json : Json) : Option SuppressionEntry := do
  return {
    rule := ← (← json.member? "rule").string?
    reason := ← (← json.member? "reason").string?
    line := ← (← json.member? "line").number?
    coverage := ← (← json.member? "type").string? }

/-- The suppressed diagnostic that a JSON value describes. -/
def SuppressedEntry.ofJson? (json : Json) : Option SuppressedEntry := do
  return {
    diagnostic := ← DiagnosticEntry.ofJson? (← json.member? "diagnostic")
    suppression := ← SuppressionEntry.ofJson? (← json.member? "suppression") }

/-- The failure that a JSON value describes. -/
def FailureEntry.ofJson? (json : Json) : Option FailureEntry := do
  return {
    file := ← (← json.member? "file").string?
    error := ← (← json.member? "error").string? }

/-- The report that a JSON value describes. -/
def Document.ofJson? (json : Json) : Option Document := do
  return {
    version := ← (← json.member? "version").string?
    path := ← (← json.member? "path").string?
    passed := ← (← json.member? "passed").bool?
    failOn := ← (← json.member? "fail_on").string?
    filesScanned := ← (← json.member? "files_scanned").number?
    diagnostics :=
      ← (← (← json.member? "diagnostics").array?).mapM DiagnosticEntry.ofJson?
    suppressed :=
      ← (← (← json.memberOr? "suppressed" (.array [])).array?).mapM SuppressedEntry.ofJson?
    suppressedCount := ← (← json.member? "suppressed_count").number?
    failures :=
      ← (← (← json.memberOr? "failures" (.array [])).array?).mapM FailureEntry.ofJson? }

/-! ## Text -/

/-- The JSON report of a result. -/
def jsonText (base : String) (result : CheckResult) (failOn : Severity) : String :=
  (Document.ofResult base result failOn).toJson.render ++ "\n"

end HandlerLint.Report
