/-!
# Severities

Every diagnostic carries one of three severities, ordered by rank.
-/

namespace HandlerLint

/-- How serious a diagnostic is. -/
inductive Severity where
  | error
  | warning
  | info
deriving DecidableEq, Repr, Inhabited

namespace Severity

/-- The position of a severity in the order; a higher rank is more serious. -/
def rank : Severity → Nat
  | .error => 2
  | .warning => 1
  | .info => 0

/-- Whether a severity reaches a threshold. -/
def atLeast (severity threshold : Severity) : Bool :=
  threshold.rank ≤ severity.rank

/-- The severity where none is asked for. -/
def fallback : Severity :=
  .warning

/-- The name of a severity in reports and configuration files. -/
def name : Severity → String
  | .error => "error"
  | .warning => "warning"
  | .info => "info"

/-- The severity with a given name, written exactly. -/
def ofName? : String → Option Severity
  | "error" => some .error
  | "warning" => some .warning
  | "info" => some .info
  | _ => none

/-- The severity with a given name, in any case, or what is said of a text that names none.
The names are ASCII, and no character outside `A` to `Z` has one of their letters as its
lower case. -/
def parse (text : String) : Except String Severity :=
  match ofName? (text.map Char.toLower) with
  | some severity => .ok severity
  | none => .error ("unknown severity: " ++ text)

end Severity

end HandlerLint
