import HandlerLint.Severity
import HandlerLint.Model

/-!
# Diagnostics

A diagnostic says that one handler hides the exception it catches.
-/

namespace HandlerLint

/-- The identifier of the rule. -/
def ruleId : String :=
  "avoid_hiding_exceptions"

/-- What every diagnostic says. -/
def ruleMessage : String :=
  "Caught exception is hidden: the handler neither rethrows it nor throws a new error."

/-- What every diagnostic advises. -/
def ruleCorrection : String :=
  "Remove the try/catch or add rethrow/throw to the end of the handler."

/-- A place in a file. -/
structure Location where
  file : String
  span : Span
deriving DecidableEq, Repr

/-- A place as file, line and column. -/
def Location.text (location : Location) : String :=
  location.file ++ ":" ++ location.span.position

/-- A report of one handler. -/
structure Diagnostic where
  ruleId : String
  message : String
  correction : String
  severity : Severity
  location : Location
deriving DecidableEq, Repr

namespace Diagnostic

/-- The file that a diagnostic is about. -/
def file (diagnostic : Diagnostic) : String :=
  diagnostic.location.file

/-- The line that a diagnostic points to. -/
def line (diagnostic : Diagnostic) : Nat :=
  diagnostic.location.span.startLine

/-- The column that a diagnostic points to. -/
def column (diagnostic : Diagnostic) : Nat :=
  diagnostic.location.span.startCol

/-- Whether a diagnostic comes no later than another one in a report: by file, then
line, then column. -/
def le (left right : Diagnostic) : Bool :=
  if left.file = right.file then
    if left.line = right.line then left.column ≤ right.column
    else left.line < right.line
  else
    left.file < right.file

/-- The diagnostic for a handler in a file. -/
def ofClause (severity : Severity) (path : String) (clause : HandlerClause) :
    Diagnostic :=
  { ruleId := HandlerLint.ruleId
    message := ruleMessage
    correction := ruleCorrection
    severity
    location := { file := path, span := clause.span } }

end Diagnostic

end HandlerLint
