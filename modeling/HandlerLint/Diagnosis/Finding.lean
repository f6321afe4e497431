import HandlerLint.Diagnosis.Verdict

/-!
# Findings

Every handler with a known body gets a finding: its construct, the handler and the
verdict.  Findings come in source order, from try constructs in every position: in
bodies, in handlers, in `else` and `finally` blocks and inside other statements.

They are collected twice over.  `findings` is the recursion that says what they
are; `drain` walks a stack of pending work, so that nesting costs memory only.
-/

namespace HandlerLint

/-- A handler with its construct and its verdict. -/
structure Finding where
  construct : TryConstruct
  clause : HandlerClause
  verdict : Verdict

/-- The finding for a handler, if its body is known. -/
def clauseFinding? (construct : TryConstruct) (clause : HandlerClause) :
    Option Finding :=
  if clause.body.isSome then some { construct, clause, verdict := clause.classify }
  else none

/-! ## By recursion -/

mutual

/-- The findings inside a statement. -/
def Statement.findings : Statement → List Finding
  | .rethrow _ => []
  | .throw _ => []
  | .expressionRethrow _ => []
  | .expressionThrow _ => []
  | .expression _ children => findingsIn children
  | .attempt construct => construct.findings
  | .other _ _ children => findingsIn children

/-- The findings of a construct and inside it: those of the body, then each handler
with what is inside it, then those of the `else` and the `finally` block. -/
def TryConstruct.findings : TryConstruct → List Finding
  | ⟨span, body, handlers, orelse, finalizer⟩ =>
      findingsIn body ++
        handlersFindings ⟨span, body, handlers, orelse, finalizer⟩ handlers ++
        optionalFindings orelse ++ optionalFindings finalizer

/-- The findings inside some statements. -/
def findingsIn : List Statement → List Finding
  | [] => []
  | statement :: statements => statement.findings ++ findingsIn statements

/-- The findings inside a block that may be absent. -/
def optionalFindings : Option (List Statement) → List Finding
  | none => []
  | some statements => findingsIn statements

/-- The findings of some handlers of a construct and inside them. -/
def handlersFindings (construct : TryConstruct) : List HandlerClause → List Finding
  | [] => []
  | clause :: clauses =>
      (clauseFinding? construct clause).toList ++ clause.innerFindings ++
        handlersFindings construct clauses

/-- The findings inside a handler. -/
def HandlerClause.innerFindings : HandlerClause → List Finding
  | ⟨_, _, _, body⟩ => optionalFindings body

end

/-! ## With a stack of work -/

/-- A piece of work still to be done. -/
inductive Work where
  | statement (statement : Statement)
  | clause (construct : TryConstruct) (clause : HandlerClause)

/-- Put statements on the stack, the first one on top. -/
def pushStatements (statements : List Statement) (stack : List Work) : List Work :=
  statements.map Work.statement ++ stack

/-- Put the statements of a block that may be absent on the stack. -/
def pushOptional (block : Option (List Statement)) (stack : List Work) : List Work :=
  pushStatements (block.getD []) stack

/-- Put a handler on the stack, above the statements inside it. -/
def pushClause (construct : TryConstruct) (clause : HandlerClause) (stack : List Work) :
    List Work :=
  .clause construct clause :: pushOptional clause.body stack

/-- Put a construct on the stack: its body on top, then its handlers, then its `else`
and its `finally` block. -/
def pushConstruct (construct : TryConstruct) (stack : List Work) : List Work :=
  pushStatements construct.body
    (construct.handlers.foldr (pushClause construct)
      (pushOptional construct.orelse (pushOptional construct.finalizer stack)))

/-- Do one piece of work: the finding it yields, and the stack after it. -/
def Work.perform (work : Work) (stack : List Work) : Option Finding × List Work :=
  match work with
  | .statement (.attempt construct) => (none, pushConstruct construct stack)
  | .statement other => (none, pushStatements other.nested stack)
  | .clause construct handler => (clauseFinding? construct handler, stack)

/-! ## Termination -/

mutual

/-- A bound on the work that a statement causes. -/
def Statement.weight : Statement → Nat
  | .rethrow _ => 1
  | .throw _ => 1
  | .expressionRethrow _ => 1
  | .expressionThrow _ => 1
  | .expression _ children => 1 + statementsWeight children
  | .attempt construct => 1 + construct.weight
  | .other _ _ children => 1 + statementsWeight children

/-- A bound on the work that a construct causes. -/
def TryConstruct.weight : TryConstruct → Nat
  | ⟨_, body, handlers, orelse, finalizer⟩ =>
      statementsWeight body + handlersWeight handlers + optionalWeight orelse +
        optionalWeight finalizer

/-- A bound on the work that some statements cause. -/
def statementsWeight : List Statement → Nat
  | [] => 0
  | statement :: statements => statement.weight + statementsWeight statements

/-- A bound on the work that a block causes. -/
def optionalWeight : Option (List Statement) → Nat
  | none => 0
  | some statements => statementsWeight statements

/-- A bound on the work that some handlers cause. -/
def handlersWeight : List HandlerClause → Nat
  | [] => 0
  | clause :: clauses => clause.weight + handlersWeight clauses

/-- A bound on the work that a handler causes. -/
def HandlerClause.weight : HandlerClause → Nat
  | ⟨_, _, _, body⟩ => 1 + optionalWeight body

end

/-- A bound on the pieces of work that a piece leads to. -/
def Work.weight : Work → Nat
  | .statement pending => pending.weight
  | .clause _ _ => 1

/-- A bound on the pieces of work that a stack leads to. -/
def stackWeight : List Work → Nat
  | [] => 0
  | work :: stack => work.weight + stackWeight stack

theorem stackWeight_pushStatements
    (statements : List Statement) (stack : List Work) :
    stackWeight (pushStatements statements stack) =
      statementsWeight statements + stackWeight stack := by
  induction statements with
  | nil => simp [pushStatements, statementsWeight]
  | cons statement statements ih =>
      simp only [pushStatements, List.map_cons, List.cons_append, stackWeight,
        Work.weight, statementsWeight] at ih ⊢
      omega

theorem stackWeight_pushOptional
    (block : Option (List Statement)) (stack : List Work) :
    stackWeight (pushOptional block stack) = optionalWeight block + stackWeight stack := by
  cases block with
  | none => simp [pushOptional, stackWeight_pushStatements, statementsWeight, optionalWeight]
  | some statements => simp [pushOptional, stackWeight_pushStatements, optionalWeight]

theorem HandlerClause.weight_eq
    (clause : HandlerClause) :
    clause.weight = 1 + optionalWeight clause.body := by
  cases clause
  rw [HandlerClause.weight]

theorem TryConstruct.weight_eq
    (construct : TryConstruct) :
    construct.weight =
      statementsWeight construct.body + handlersWeight construct.handlers +
        optionalWeight construct.orelse + optionalWeight construct.finalizer := by
  cases construct
  rw [TryConstruct.weight]

theorem stackWeight_pushClauses
    (construct : TryConstruct) (clauses : List HandlerClause) (stack : List Work) :
    stackWeight (clauses.foldr (pushClause construct) stack) =
      handlersWeight clauses + stackWeight stack := by
  induction clauses with
  | nil => simp [handlersWeight]
  | cons clause clauses ih =>
      simp only [List.foldr_cons, pushClause, stackWeight, Work.weight,
        stackWeight_pushOptional, handlersWeight, HandlerClause.weight_eq, ih]
      omega

theorem stackWeight_pushConstruct
    (construct : TryConstruct) (stack : List Work) :
    stackWeight (pushConstruct construct stack) =
      construct.weight + stackWeight stack := by
  simp only [pushConstruct, stackWeight_pushStatements, stackWeight_pushClauses,
    stackWeight_pushOptional, TryConstruct.weight_eq]
  omega

/-- A piece of work leaves a stack that is lighter by one. -/
theorem Work.stackWeight_perform
    (work : Work) (stack : List Work) :
    stackWeight (work.perform stack).2 + 1 = stackWeight (work :: stack) := by
  cases work with
  | clause construct clause =>
      simp only [Work.perform, stackWeight, Work.weight]
      omega
  | statement statement =>
      cases statement with
      | attempt construct =>
          simp only [Work.perform, stackWeight, Work.weight, Statement.weight,
            stackWeight_pushConstruct]
          omega
      | _ =>
          simp only [Work.perform, stackWeight, Work.weight, Statement.weight,
            Statement.nested, stackWeight_pushStatements, statementsWeight]
          omega

theorem Work.stackWeight_perform_lt
    (work : Work) (stack : List Work) :
    stackWeight (work.perform stack).2 < stackWeight (work :: stack) := by
  have := work.stackWeight_perform stack
  omega

/-- The findings of a stack of work. -/
def drain : List Work → List Finding
  | [] => []
  | work :: stack =>
      have := work.stackWeight_perform_lt stack
      match (work.perform stack).1 with
      | some finding => finding :: drain (work.perform stack).2
      | none => drain (work.perform stack).2
termination_by stack => stackWeight stack

/-! ## Findings of a file -/

namespace SyntaxTree

/-- Every handler of a file that has a known body, with its verdict. -/
def classifyAll (tree : SyntaxTree) : List Finding :=
  drain (pushStatements tree.statements [])

/-- The handlers of a file that hide their exception. -/
def hidingHandlers (tree : SyntaxTree) : List Finding :=
  tree.classifyAll.filter (·.verdict.isHiding)

end SyntaxTree

end HandlerLint
