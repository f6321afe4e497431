import HandlerLint.Proofs.Diagnosis.Findings

/-!
# Outlines of a model

A model holds texts that no verdict looks at: the exception types of handlers, the names
that they bind, and whether a throw raises the caught exception or another one.  An
outline of a model forgets such texts and keeps the statements, their spans and their
order.

The findings of an outline are the outlines of the findings, with the same verdicts.  Two
models with one outline therefore have the same reports.
-/

namespace HandlerLint

/-- How much an outline keeps. -/
inductive Detail where
  /-- All but the exception types. -/
  | names
  /-- Neither exception types, nor bound names, nor whether a throw is a rethrow. -/
  | shape

namespace Detail

/-- What is kept of a bound name. -/
def binding : Detail → Option String → Option String
  | .names, binding => binding
  | .shape, _ => none

/-- What is kept of whether a throw is a rethrow. -/
def rethrow : Detail → Bool → Bool
  | .names, rethrow => rethrow
  | .shape, _ => false

theorem rethrow_false
    (detail : Detail) :
    detail.rethrow false = false := by
  cases detail <;> rfl

end Detail

variable (detail : Detail)

mutual

/-- The outline of a statement. -/
def Statement.outline : Statement → Statement
  | .rethrow span => if detail.rethrow true then .rethrow span else .throw span
  | .throw span => .throw span
  | .expressionRethrow span =>
      if detail.rethrow true then .expressionRethrow span else .expressionThrow span
  | .expressionThrow span => .expressionThrow span
  | .expression span children => .expression span (outlineIn children)
  | .attempt construct => .attempt construct.outline
  | .other span kind children => .other span kind (outlineIn children)

/-- The outline of a try construct. -/
def TryConstruct.outline : TryConstruct → TryConstruct
  | ⟨span, body, handlers, orelse, finalizer⟩ =>
      ⟨span, outlineIn body, handlersOutline handlers, optionalOutline orelse,
        optionalOutline finalizer⟩

/-- The outlines of some statements. -/
def outlineIn : List Statement → List Statement
  | [] => []
  | statement :: statements => statement.outline :: outlineIn statements

/-- The outline of a block that may be absent. -/
def optionalOutline : Option (List Statement) → Option (List Statement)
  | none => none
  | some statements => some (outlineIn statements)

/-- The outlines of some handlers. -/
def handlersOutline : List HandlerClause → List HandlerClause
  | [] => []
  | clause :: clauses => clause.outline :: handlersOutline clauses

/-- The outline of a handler. -/
def HandlerClause.outline : HandlerClause → HandlerClause
  | ⟨span, _, binding, body⟩ => ⟨span, [], detail.binding binding, optionalOutline body⟩

end

/-- The outline of a finding. -/
def Finding.outline (finding : Finding) : Finding :=
  { construct := finding.construct.outline detail
    clause := finding.clause.outline detail
    verdict := finding.verdict }

/-- The outline of a file. -/
def SyntaxTree.outline (tree : SyntaxTree) : SyntaxTree :=
  { tree with statements := outlineIn detail tree.statements }

/-! ## Outlines part by part -/

theorem HandlerClause.outline_eq
    (clause : HandlerClause) :
    clause.outline detail =
      { span := clause.span
        types := []
        binding := detail.binding clause.binding
        body := optionalOutline detail clause.body } := by
  cases clause
  rw [HandlerClause.outline]

theorem TryConstruct.outline_eq
    (construct : TryConstruct) :
    construct.outline detail =
      { span := construct.span
        body := outlineIn detail construct.body
        handlers := handlersOutline detail construct.handlers
        orelse := optionalOutline detail construct.orelse
        finalizer := optionalOutline detail construct.finalizer } := by
  cases construct
  rw [TryConstruct.outline]

theorem outlineIn_append
    (left right : List Statement) :
    outlineIn detail (left ++ right) = outlineIn detail left ++ outlineIn detail right := by
  induction left with
  | nil => rw [List.nil_append, outlineIn, List.nil_append]
  | cons statement left ih => rw [List.cons_append, outlineIn, outlineIn, ih, List.cons_append]

theorem handlersOutline_append
    (left right : List HandlerClause) :
    handlersOutline detail (left ++ right) =
      handlersOutline detail left ++ handlersOutline detail right := by
  induction left with
  | nil => rw [List.nil_append, handlersOutline, List.nil_append]
  | cons clause left ih =>
      rw [List.cons_append, handlersOutline, handlersOutline, ih, List.cons_append]

theorem outline_throw
    (rethrow : Bool) (span : Span) :
    (if rethrow then Statement.rethrow span else .throw span).outline detail =
      if detail.rethrow rethrow then .rethrow span else .throw span := by
  cases rethrow with
  | true => rw [if_pos rfl, Statement.outline]
  | false => simp only [Statement.outline, Detail.rethrow_false, Bool.false_eq_true, if_false]

theorem outline_expressionThrow
    (rethrow : Bool) (span : Span) :
    (if rethrow then Statement.expressionRethrow span
        else .expressionThrow span).outline detail =
      if detail.rethrow rethrow then .expressionRethrow span else .expressionThrow span := by
  cases rethrow with
  | true => rw [if_pos rfl, Statement.outline]
  | false => simp only [Statement.outline, Detail.rethrow_false, Bool.false_eq_true, if_false]

/-! ## Verdicts -/

theorem Statement.propagates_outline
    (statement : Statement) :
    (statement.outline detail).propagates = statement.propagates := by
  cases statement with
  | rethrow span =>
      rw [Statement.outline]
      split <;> rfl
  | expressionRethrow span =>
      rw [Statement.outline]
      split <;> rfl
  | _ => simp only [Statement.outline, Statement.propagates]

theorem classifyBody_outlineIn
    (statements : List Statement) :
    classifyBody (outlineIn detail statements) = classifyBody statements := by
  have hany :
      (outlineIn detail statements).any Statement.propagates =
        statements.any Statement.propagates := by
    induction statements with
    | nil => rw [outlineIn]
    | cons statement statements ih =>
        rw [outlineIn, List.any_cons, List.any_cons, ih, statement.propagates_outline]
  unfold classifyBody firstPropagating?
  rw [List.isSome_find?, List.isSome_find?, hany]

theorem clauseFinding?_outline
    (construct : TryConstruct) (clause : HandlerClause) :
    clauseFinding? (construct.outline detail) (clause.outline detail) =
      (clauseFinding? construct clause).map (Finding.outline detail) := by
  rw [clause.outline_eq]
  unfold clauseFinding? HandlerClause.classify
  cases hbody : clause.body with
  | none => rfl
  | some statements =>
      simp only [optionalOutline, Option.isSome_some, if_true, Option.map_some,
        Finding.outline, clause.outline_eq, hbody, classifyBody_outlineIn]

/-! ## Findings -/

mutual

theorem Statement.findings_outline : ∀ statement : Statement,
    (statement.outline detail).findings =
      statement.findings.map (Finding.outline detail)
  | .rethrow _ => by
      rw [Statement.outline]
      split <;> simp only [Statement.findings, List.map_nil]
  | .throw _ => by simp only [Statement.outline, Statement.findings, List.map_nil]
  | .expressionRethrow _ => by
      rw [Statement.outline]
      split <;> simp only [Statement.findings, List.map_nil]
  | .expressionThrow _ => by simp only [Statement.outline, Statement.findings, List.map_nil]
  | .expression _ children => by
      rw [Statement.outline, Statement.findings, Statement.findings]
      exact findingsIn_outlineIn children
  | .attempt construct => by
      rw [Statement.outline, Statement.findings, Statement.findings]
      exact construct.findings_outline
  | .other _ _ children => by
      rw [Statement.outline, Statement.findings, Statement.findings]
      exact findingsIn_outlineIn children

theorem TryConstruct.findings_outline : ∀ construct : TryConstruct,
    (construct.outline detail).findings =
      construct.findings.map (Finding.outline detail)
  | ⟨span, body, handlers, orelse, finalizer⟩ => by
      have hhandlers :=
        handlersFindings_outline ⟨span, body, handlers, orelse, finalizer⟩ handlers
      rw [TryConstruct.outline] at hhandlers ⊢
      rw [TryConstruct.findings, TryConstruct.findings, List.map_append, List.map_append,
        List.map_append, findingsIn_outlineIn body, hhandlers,
        optionalFindings_outline orelse, optionalFindings_outline finalizer]

theorem findingsIn_outlineIn : ∀ statements : List Statement,
    findingsIn (outlineIn detail statements) =
      (findingsIn statements).map (Finding.outline detail)
  | [] => by simp only [outlineIn, findingsIn, List.map_nil]
  | statement :: statements => by
      rw [outlineIn, findingsIn, findingsIn, List.map_append, statement.findings_outline,
        findingsIn_outlineIn statements]

theorem optionalFindings_outline : ∀ block : Option (List Statement),
    optionalFindings (optionalOutline detail block) =
      (optionalFindings block).map (Finding.outline detail)
  | none => by simp only [optionalOutline, optionalFindings, List.map_nil]
  | some statements => by
      rw [optionalOutline, optionalFindings, optionalFindings]
      exact findingsIn_outlineIn statements

theorem handlersFindings_outline
    (construct : TryConstruct) : ∀ clauses : List HandlerClause,
    handlersFindings (construct.outline detail) (handlersOutline detail clauses) =
      (handlersFindings construct clauses).map (Finding.outline detail)
  | [] => by simp only [handlersOutline, handlersFindings, List.map_nil]
  | clause :: clauses => by
      rw [handlersOutline, handlersFindings, handlersFindings, List.map_append,
        List.map_append, clauseFinding?_outline, clause.innerFindings_outline,
        handlersFindings_outline construct clauses, Option.toList_map]

theorem HandlerClause.innerFindings_outline : ∀ clause : HandlerClause,
    (clause.outline detail).innerFindings =
      clause.innerFindings.map (Finding.outline detail)
  | ⟨_, _, _, body⟩ => by
      rw [HandlerClause.outline, HandlerClause.innerFindings, HandlerClause.innerFindings]
      exact optionalFindings_outline body

end

/-! ## Reports -/

namespace SyntaxTree

theorem classifyAll_outline
    (tree : SyntaxTree) :
    (tree.outline detail).classifyAll =
      tree.classifyAll.map (Finding.outline detail) := by
  rw [classifyAll_eq_findingsIn, classifyAll_eq_findingsIn]
  exact findingsIn_outlineIn detail tree.statements

theorem run_outline
    (rule : Rule) (tree : SyntaxTree) :
    rule.run (tree.outline detail) = rule.run tree := by
  unfold Rule.run hidingHandlers
  rw [classifyAll_outline, List.filter_map, List.map_map]
  have hreport :
      ∀ finding : Finding,
        Diagnostic.ofClause rule.severity tree.path (finding.outline detail).clause =
          Diagnostic.ofClause rule.severity tree.path finding.clause := by
    intro finding
    unfold Diagnostic.ofClause
    rw [Finding.outline, HandlerClause.outline_eq]
  exact List.map_congr_left fun finding _ => hreport finding

variable {detail}

/-- Models with one outline have findings with one outline. -/
theorem map_outline_classifyAll_eq
    {first second : SyntaxTree} (h : first.outline detail = second.outline detail) :
    first.classifyAll.map (Finding.outline detail) =
      second.classifyAll.map (Finding.outline detail) := by
  rw [← classifyAll_outline, ← classifyAll_outline, h]

/-- Models with one outline have the same reports. -/
theorem run_eq_of_outline_eq
    {first second : SyntaxTree} (h : first.outline detail = second.outline detail)
    (rule : Rule) :
    rule.run first = rule.run second := by
  rw [← run_outline detail rule first, h, run_outline]

end SyntaxTree

end HandlerLint
