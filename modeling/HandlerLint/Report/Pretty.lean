import HandlerLint.Check.Result
import HandlerLint.Path.Relative
import HandlerLint.Report.Document
import HandlerLint.Report.Paint
import HandlerLint.Text.Quoted

/-!
# The report for people

A heading, the active diagnostics, the suppressed ones (in full or only counted), the
files that could not be checked, and a last line that says whether the check passed.
-/

namespace HandlerLint.Report.Pretty

open Paint

/-- What a report for people is made from, the result apart. -/
structure Options where
  base : String
  failOn : Severity
  showSuppressed : Bool
  colours : Bool

variable (options : Options)

/-- A text in a style. -/
def painted (paint : Paint) (text : String) : String :=
  paint.apply options.colours text

/-- The tag of a severity. -/
def tag : Severity → String
  | .error => painted options .red "ERROR"
  | .warning => painted options .yellow "WARN "
  | .info => painted options .blue "INFO "

/-- A rule in a column of its own. -/
def ruleColumn (rule : String) : String :=
  Paint.dimmed.padded options.colours 26 rule

/-- A file by its path relative to what was scanned. -/
def filePath (file : String) : String :=
  painted options .blue (Path.relativeName options.base file)

/-- The name and version of the tool, what was scanned, and how many files. -/
def heading (scanned : Nat) : String :=
  "\n  " ++ painted options .boldCyan "swallowcheck" ++ " v" ++ toolVersion ++ "\n\n" ++
    "  " ++ painted options .dimmed "Scanning: " ++ options.base ++ "\n" ++
    "  " ++ painted options .dimmed "Files:    " ++ toString scanned ++ "\n\n"

/-- One active diagnostic. -/
def diagnosticText (diagnostic : Diagnostic) : String :=
  "    " ++ tag options diagnostic.severity ++ "    " ++
    ruleColumn options diagnostic.ruleId ++ filePath options diagnostic.file ++
    painted options .dimmed (":" ++ diagnostic.location.span.position) ++ "\n" ++
    "            " ++ diagnostic.message ++ "\n" ++
    "            " ++ painted options .dimmed diagnostic.correction ++ "\n\n"

/-- The active diagnostics. -/
def diagnosticsText (diagnostics : List Diagnostic) : String :=
  if diagnostics.isEmpty then ""
  else
    "  " ++ painted options .bold "Diagnostics" ++ " (" ++ toString diagnostics.length ++
      "):\n\n" ++ String.join (diagnostics.map (diagnosticText options)) ++ "\n"

/-- One suppressed diagnostic, with the reason if there is one. -/
def suppressedEntryText (entry : SuppressedDiagnostic) : String :=
  let place :=
    if entry.suppression.coverage = .file then ":* (file)"
    else ":" ++ toString entry.diagnostic.line
  let reason :=
    if entry.suppression.reason.isEmpty then ""
    else
      "            " ++
        painted options .dimmed ("reason: " ++ Text.quote entry.suppression.reason) ++
        "\n"
  "    " ++ ruleColumn options entry.diagnostic.ruleId ++
    filePath options entry.diagnostic.file ++ painted options .dimmed place ++ "\n" ++ reason

/-- The suppressed diagnostics. -/
def suppressedText (suppressed : List SuppressedDiagnostic) : String :=
  if suppressed.isEmpty then ""
  else
    let details :=
      if options.showSuppressed then
        "\n" ++ String.join (suppressed.map (suppressedEntryText options))
      else
        "    " ++ painted options .dimmed "(use --show-suppressed to see details)" ++ "\n"
    "  " ++ painted options .dimmed "Suppressed" ++ " (" ++ toString suppressed.length ++
      "):\n" ++ details ++ "\n"

/-- The files that could not be checked. -/
def failuresText (failures : List FileFailure) : String :=
  if failures.isEmpty then ""
  else
    let entry (failure : FileFailure) : String :=
      "    " ++ filePath options failure.file ++ "  " ++
        painted options .dimmed failure.error ++ "\n"
    "  " ++ painted options .yellow "Skipped" ++ " (" ++ toString failures.length ++
      "):\n" ++ String.join (failures.map entry) ++ "\n"

/-- How many diagnostics there are, and whether the check passed. -/
def statusText (result : CheckResult) : String :=
  let count := result.diagnostics.length
  let plural := if count = 1 then "" else "s"
  let status :=
    if result.fails options.failOn then painted options .red "FAILED"
    else painted options .green "PASSED"
  "  " ++ painted options .dimmed (toString count ++ " diagnostic" ++ plural) ++
    "  " ++ painted options .dimmed ("fail on: " ++ options.failOn.name) ++
    "  " ++ status ++ "\n"

/-- The report of a result. -/
def text (result : CheckResult) : String :=
  heading options result.scanned ++ diagnosticsText options result.diagnostics ++
    suppressedText options result.suppressed ++ failuresText options result.failures ++
    statusText options result ++ "\n"

end HandlerLint.Report.Pretty
