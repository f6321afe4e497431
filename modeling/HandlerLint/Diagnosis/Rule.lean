import HandlerLint.Diagnosis.Diagnostic
import HandlerLint.Diagnosis.Finding

/-!
# The rule

The rule reports every hiding handler of a file, in source order.
-/

namespace HandlerLint

/-- The exception hiding rule, with the severity of what it reports. -/
structure Rule where
  severity : Severity := .fallback

namespace Rule

/-- Hand the diagnostic of every hiding handler to a consumer, one after another, and
count them. -/
def runInto
    {σ : Type} (rule : Rule) (tree : SyntaxTree) (accept : σ → Diagnostic → σ)
    (start : σ) : σ × Nat :=
  tree.hidingHandlers.foldl
    (fun state finding =>
      (accept state.1 (.ofClause rule.severity tree.path finding.clause), state.2 + 1))
    (start, 0)

/-- The diagnostics of a file. -/
def run (rule : Rule) (tree : SyntaxTree) : List Diagnostic :=
  tree.hidingHandlers.map fun finding => .ofClause rule.severity tree.path finding.clause

end Rule

end HandlerLint
