import HandlerLint.Suppression.Basic

/-!
# Results of a check

What a check of some files found: active and suppressed diagnostics, the files that
could not be checked, and how many could.  Results of separate files are merged one
after another and sorted at the end.
-/

namespace HandlerLint

/-- A file that could not be checked, and why. -/
structure FileFailure where
  file : String
  error : String
deriving DecidableEq, Repr

/-- What a check found. -/
structure CheckResult where
  diagnostics : List Diagnostic
  suppressed : List SuppressedDiagnostic
  failures : List FileFailure
  /-- The number of files that were read and understood. -/
  scanned : Nat
deriving DecidableEq, Repr

namespace CheckResult

/-- The result of checking no file. -/
def empty : CheckResult :=
  { diagnostics := [], suppressed := [], failures := [], scanned := 0 }

/-- Two results, one after the other. -/
def merge (left right : CheckResult) : CheckResult :=
  { diagnostics := left.diagnostics ++ right.diagnostics
    suppressed := left.suppressed ++ right.suppressed
    failures := left.failures ++ right.failures
    scanned := left.scanned + right.scanned }

/-- Whether a failure comes no later than another one: by file. -/
def failureLe (left right : FileFailure) : Bool :=
  left.file ≤ right.file

/-- Whether a suppressed diagnostic comes no later than another one. -/
def suppressedLe (left right : SuppressedDiagnostic) : Bool :=
  left.diagnostic.le right.diagnostic

/-- A result with every list in order.  Entries that the order does not tell apart stay
as they are. -/
def sort (result : CheckResult) : CheckResult :=
  { result with
    diagnostics := result.diagnostics.mergeSort Diagnostic.le
    suppressed := result.suppressed.mergeSort suppressedLe
    failures := result.failures.mergeSort failureLe }

/-- How many diagnostics are suppressed. -/
def suppressedCount (result : CheckResult) : Nat :=
  result.suppressed.length

/-- Whether an active diagnostic reaches a threshold. -/
def fails (result : CheckResult) (threshold : Severity) : Bool :=
  result.diagnostics.any (·.severity.atLeast threshold)

@[simp] theorem merge_empty
    (result : CheckResult) :
    result.merge empty = result := by
  simp [merge, empty]

@[simp] theorem empty_merge
    (result : CheckResult) :
    empty.merge result = result := by
  simp [merge, empty]

theorem merge_assoc
    (first second third : CheckResult) :
    (first.merge second).merge third = first.merge (second.merge third) := by
  simp [merge, Nat.add_assoc]

end CheckResult

end HandlerLint
