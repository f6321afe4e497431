import HandlerLint.Model

/-!
# Verdicts

A handler propagates its exception when one of its direct statements throws.
A throw further inside, under a condition or in a nested construct, does not count,
and a handler whose body is unknown hides.
-/

namespace HandlerLint

/-- Whether a handler lets its exception go on. -/
inductive Verdict where
  | propagates
  | hides
deriving DecidableEq, Repr

namespace Verdict

/-- The name of a verdict. -/
def name : Verdict → String
  | .propagates => "propagating"
  | .hides => "hiding"

/-- Whether a verdict is that the exception is hidden. -/
def isHiding : Verdict → Bool
  | .hides => true
  | .propagates => false

end Verdict

/-- Whether a statement itself throws. -/
def Statement.propagates : Statement → Bool
  | .rethrow _ => true
  | .throw _ => true
  | .expressionRethrow _ => true
  | .expressionThrow _ => true
  | .expression _ _ => false
  | .attempt _ => false
  | .other _ _ _ => false

/-- The first of some statements that throws. -/
def firstPropagating? (statements : List Statement) : Option Statement :=
  statements.find? Statement.propagates

/-- The verdict on a handler body. -/
def classifyBody (statements : List Statement) : Verdict :=
  if (firstPropagating? statements).isSome then .propagates else .hides

/-- The verdict on a handler. -/
def HandlerClause.classify (clause : HandlerClause) : Verdict :=
  match clause.body with
  | some statements => classifyBody statements
  | none => .hides

end HandlerLint
