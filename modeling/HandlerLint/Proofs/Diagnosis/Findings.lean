import HandlerLint.Diagnosis.Rule

/-!
# The findings of a file

A stack of work stands for the findings of its pieces, one piece after another.  Doing
one piece of work leaves what the stack stands for as it is, so draining the stack
gives what the recursion gives, in the same order.

The constructs of a file are listed here on their own, without their verdicts.  Up to
order, the findings are the clauses with a known body of all these constructs.
-/

namespace HandlerLint

/-! ## The stack stands for its findings -/

/-- The findings that a piece of work leads to. -/
def Work.findings : Work → List Finding
  | .statement pending => pending.findings
  | .clause construct handler => (clauseFinding? construct handler).toList

/-- The findings that a stack of work leads to. -/
def stackFindings (stack : List Work) : List Finding :=
  stack.flatMap Work.findings

theorem stackFindings_cons
    (work : Work) (stack : List Work) :
    stackFindings (work :: stack) = work.findings ++ stackFindings stack :=
  List.flatMap_cons

theorem stackFindings_pushStatements
    (statements : List Statement) (stack : List Work) :
    stackFindings (pushStatements statements stack) =
      findingsIn statements ++ stackFindings stack := by
  induction statements with
  | nil => rfl
  | cons statement statements ih =>
      unfold pushStatements at ih ⊢
      rw [List.map_cons, List.cons_append, stackFindings_cons, ih, findingsIn,
        List.append_assoc]
      rfl

theorem stackFindings_pushOptional
    (block : Option (List Statement)) (stack : List Work) :
    stackFindings (pushOptional block stack) =
      optionalFindings block ++ stackFindings stack := by
  unfold pushOptional
  rw [stackFindings_pushStatements]
  cases block with
  | none => rfl
  | some statements => rfl

theorem HandlerClause.innerFindings_eq
    (clause : HandlerClause) :
    clause.innerFindings = optionalFindings clause.body := by
  cases clause
  rw [HandlerClause.innerFindings]

theorem TryConstruct.findings_eq
    (construct : TryConstruct) :
    construct.findings =
      findingsIn construct.body ++ handlersFindings construct construct.handlers ++
        optionalFindings construct.orelse ++ optionalFindings construct.finalizer := by
  cases construct
  rw [TryConstruct.findings]

theorem stackFindings_pushClauses
    (construct : TryConstruct) (clauses : List HandlerClause) (stack : List Work) :
    stackFindings (clauses.foldr (pushClause construct) stack) =
      handlersFindings construct clauses ++ stackFindings stack := by
  induction clauses with
  | nil => rfl
  | cons clause clauses ih =>
      rw [List.foldr_cons, pushClause, stackFindings_cons, stackFindings_pushOptional,
        ih, handlersFindings, HandlerClause.innerFindings_eq]
      simp only [Work.findings, List.append_assoc]

theorem stackFindings_pushConstruct
    (construct : TryConstruct) (stack : List Work) :
    stackFindings (pushConstruct construct stack) =
      construct.findings ++ stackFindings stack := by
  rw [pushConstruct, stackFindings_pushStatements, stackFindings_pushClauses,
    stackFindings_pushOptional, stackFindings_pushOptional, TryConstruct.findings_eq]
  simp only [List.append_assoc]

/-- Outside of try constructs, the findings are those of the nested statements. -/
theorem Statement.findings_eq_findingsIn_nested
    {statement : Statement} (h : ∀ construct, statement ≠ .attempt construct) :
    statement.findings = findingsIn statement.nested := by
  cases statement with
  | attempt construct => exact absurd rfl (h construct)
  | expression span children => rw [Statement.findings, Statement.nested]
  | other span kind children => rw [Statement.findings, Statement.nested]
  | _ => simp only [Statement.findings, Statement.nested, findingsIn]

/-- Doing a piece of work yields the first of the findings that the stack stands for,
or leaves them as they are. -/
theorem Work.stackFindings_perform
    (work : Work) (stack : List Work) :
    (work.perform stack).1.toList ++ stackFindings (work.perform stack).2 =
      stackFindings (work :: stack) := by
  rw [stackFindings_cons]
  cases work with
  | clause construct clause => rfl
  | statement statement =>
      by_cases hattempt : ∃ construct, statement = .attempt construct
      · obtain ⟨construct, rfl⟩ := hattempt
        rw [Work.findings, Statement.findings]
        exact stackFindings_pushConstruct construct stack
      · have hother : ∀ construct, statement ≠ .attempt construct := by
          intro construct heq
          exact hattempt ⟨construct, heq⟩
        rw [Work.findings, Statement.findings_eq_findingsIn_nested hother,
          ← stackFindings_pushStatements]
        cases statement with
        | attempt construct => exact absurd rfl (hother construct)
        | _ => rfl

/-- Draining a stack gives the findings that it stands for. -/
theorem drain_eq_stackFindings
    (stack : List Work) :
    drain stack = stackFindings stack := by
  fun_induction drain stack with
  | case1 => rfl
  | case2 work stack _ finding hfinding ih =>
      rw [ih, ← work.stackFindings_perform stack, hfinding]
      rfl
  | case3 work stack _ hnone ih =>
      rw [ih, ← work.stackFindings_perform stack, hnone]
      rfl

theorem SyntaxTree.classifyAll_eq_findingsIn
    (tree : SyntaxTree) :
    tree.classifyAll = findingsIn tree.statements := by
  unfold SyntaxTree.classifyAll
  rw [drain_eq_stackFindings, stackFindings_pushStatements]
  exact List.append_nil _

/-! ## The constructs of a file -/

mutual

/-- The try constructs of a statement, each before those inside it. -/
def Statement.constructs : Statement → List TryConstruct
  | .rethrow _ => []
  | .throw _ => []
  | .expressionRethrow _ => []
  | .expressionThrow _ => []
  | .expression _ children => constructsIn children
  | .attempt construct => construct :: construct.innerConstructs
  | .other _ _ children => constructsIn children

/-- The try constructs inside a construct: in the body, in the handlers, in the `else`
and in the `finally` block. -/
def TryConstruct.innerConstructs : TryConstruct → List TryConstruct
  | ⟨_, body, handlers, orelse, finalizer⟩ =>
      constructsIn body ++ handlersConstructs handlers ++ optionalConstructs orelse ++
        optionalConstructs finalizer

/-- The try constructs of some statements. -/
def constructsIn : List Statement → List TryConstruct
  | [] => []
  | statement :: statements => statement.constructs ++ constructsIn statements

/-- The try constructs of a block that may be absent. -/
def optionalConstructs : Option (List Statement) → List TryConstruct
  | none => []
  | some statements => constructsIn statements

/-- The try constructs inside some handlers. -/
def handlersConstructs : List HandlerClause → List TryConstruct
  | [] => []
  | clause :: clauses => clause.innerConstructs ++ handlersConstructs clauses

/-- The try constructs inside a handler. -/
def HandlerClause.innerConstructs : HandlerClause → List TryConstruct
  | ⟨_, _, _, body⟩ => optionalConstructs body

end

theorem HandlerClause.innerConstructs_eq
    (clause : HandlerClause) :
    clause.innerConstructs = optionalConstructs clause.body := by
  cases clause
  rw [HandlerClause.innerConstructs]

theorem TryConstruct.innerConstructs_eq
    (construct : TryConstruct) :
    construct.innerConstructs =
      constructsIn construct.body ++ handlersConstructs construct.handlers ++
        optionalConstructs construct.orelse ++ optionalConstructs construct.finalizer := by
  cases construct
  rw [TryConstruct.innerConstructs]

/-- Outside of try constructs, the constructs are those of the nested statements. -/
theorem Statement.constructs_eq_constructsIn_nested
    {statement : Statement} (h : ∀ construct, statement ≠ .attempt construct) :
    statement.constructs = constructsIn statement.nested := by
  cases statement with
  | attempt construct => exact absurd rfl (h construct)
  | expression span children => rw [Statement.constructs, Statement.nested]
  | other span kind children => rw [Statement.constructs, Statement.nested]
  | _ => simp only [Statement.constructs, Statement.nested, constructsIn]

theorem findingsIn_append
    (left right : List Statement) :
    findingsIn (left ++ right) = findingsIn left ++ findingsIn right := by
  induction left with
  | nil => rw [findingsIn, List.nil_append, List.nil_append]
  | cons statement left ih =>
      rw [List.cons_append, findingsIn, findingsIn, ih, List.append_assoc]

theorem constructsIn_append
    (left right : List Statement) :
    constructsIn (left ++ right) = constructsIn left ++ constructsIn right := by
  induction left with
  | nil => rw [constructsIn, List.nil_append, List.nil_append]
  | cons statement left ih =>
      rw [List.cons_append, constructsIn, constructsIn, ih, List.append_assoc]

/-- The findings for the clauses of a construct itself: one for each clause with a
known body. -/
def TryConstruct.ownFindings (construct : TryConstruct) : List Finding :=
  (construct.handlers.filter (·.body.isSome)).map fun clause =>
    { construct, clause, verdict := clause.classify }

theorem toList_clauseFinding?
    (construct : TryConstruct) (clause : HandlerClause) :
    (clauseFinding? construct clause).toList =
      ([clause].filter (·.body.isSome)).map fun clause =>
        { construct, clause, verdict := clause.classify } := by
  unfold clauseFinding?
  split
  · next hbody => simp [hbody]
  · next hbody => simp [hbody]

mutual

theorem Statement.findings_perm : ∀ statement : Statement,
    statement.findings.Perm (statement.constructs.flatMap TryConstruct.ownFindings)
  | .rethrow _ => .refl _
  | .throw _ => .refl _
  | .expressionRethrow _ => .refl _
  | .expressionThrow _ => .refl _
  | .expression _ children => by
      rw [Statement.findings, Statement.constructs]
      exact findingsIn_perm children
  | .attempt construct => by
      rw [Statement.findings, Statement.constructs, List.flatMap_cons]
      exact construct.findings_perm
  | .other _ _ children => by
      rw [Statement.findings, Statement.constructs]
      exact findingsIn_perm children

theorem TryConstruct.findings_perm : ∀ construct : TryConstruct,
    construct.findings.Perm
      (construct.ownFindings ++
        construct.innerConstructs.flatMap TryConstruct.ownFindings)
  | ⟨span, body, handlers, orelse, finalizer⟩ => by
      rw [TryConstruct.findings, TryConstruct.innerConstructs]
      simp only [List.flatMap_append]
      have hbody := findingsIn_perm body
      have hhandlers :=
        handlersFindings_perm ⟨span, body, handlers, orelse, finalizer⟩ handlers
      have horelse := optionalFindings_perm orelse
      have hfinalizer := optionalFindings_perm finalizer
      -- The construct's own findings move in front of those inside its body.
      refine (((hbody.append hhandlers).append horelse).append hfinalizer).trans ?_
      simp only [TryConstruct.ownFindings, List.append_assoc]
      exact List.perm_append_comm_assoc _ _ _

/-- Up to order, the findings inside some statements are the own findings of their
constructs. -/
theorem findingsIn_perm : ∀ statements : List Statement,
    (findingsIn statements).Perm
      ((constructsIn statements).flatMap TryConstruct.ownFindings)
  | [] => .refl _
  | statement :: statements => by
      rw [findingsIn, constructsIn, List.flatMap_append]
      exact statement.findings_perm.append (findingsIn_perm statements)

theorem optionalFindings_perm : ∀ block : Option (List Statement),
    (optionalFindings block).Perm
      ((optionalConstructs block).flatMap TryConstruct.ownFindings)
  | none => .refl _
  | some statements => by
      rw [optionalFindings, optionalConstructs]
      exact findingsIn_perm statements

theorem handlersFindings_perm
    (construct : TryConstruct) : ∀ clauses : List HandlerClause,
    (handlersFindings construct clauses).Perm
      (((clauses.filter (·.body.isSome)).map fun clause =>
          { construct, clause, verdict := clause.classify }) ++
        (handlersConstructs clauses).flatMap TryConstruct.ownFindings)
  | [] => .refl _
  | clause :: clauses => by
      rw [handlersFindings, handlersConstructs, ← List.singleton_append,
        List.filter_append, List.map_append, List.flatMap_append,
        toList_clauseFinding?]
      have hinner := clause.innerFindings_perm
      have hrest := handlersFindings_perm construct clauses
      refine ((hinner.append_left _).append hrest).trans ?_
      simp only [List.append_assoc]
      exact (List.perm_append_comm_assoc _ _ _).append_left _

theorem HandlerClause.innerFindings_perm : ∀ clause : HandlerClause,
    clause.innerFindings.Perm
      (clause.innerConstructs.flatMap TryConstruct.ownFindings)
  | ⟨_, _, _, body⟩ => by
      rw [HandlerClause.innerFindings, HandlerClause.innerConstructs]
      exact optionalFindings_perm body

end

/-! ## Reports -/

/-- Running the rule hands over the report of each hiding handler in order, and counts
them. -/
theorem Rule.runInto_eq
    {σ : Type} (rule : Rule) (tree : SyntaxTree) (accept : σ → Diagnostic → σ)
    (start : σ) :
    rule.runInto tree accept start =
      ((rule.run tree).foldl accept start, (rule.run tree).length) := by
  have hfold :
      ∀ (findings : List Finding) (state : σ) (count : Nat),
        findings.foldl
            (fun state finding =>
              (accept state.1 (.ofClause rule.severity tree.path finding.clause),
                state.2 + 1))
            (state, count) =
          ((findings.map fun finding =>
              Diagnostic.ofClause rule.severity tree.path finding.clause).foldl
              accept state,
            count + findings.length) := by
    intro findings
    induction findings with
    | nil =>
        intro state count
        rfl
    | cons finding findings ih =>
        intro state count
        rw [List.foldl_cons, ih, List.map_cons, List.foldl_cons, List.length_cons]
        congr 1
        omega
  unfold Rule.runInto Rule.run
  rw [hfold, List.length_map, Nat.zero_add]

/-- The findings of a file are those of the recursion, in its order: each clause with a
known body once, with the construct that it belongs to, and no clause without a body.
The hiding handlers are the hiding ones among them in the same order, and the rule
hands their reports over in that order, into any consumer, and counts them. -/
theorem classifyAll_lists_each_clause_once
    (tree : SyntaxTree) :
    tree.classifyAll = findingsIn tree.statements ∧
      tree.classifyAll.Perm
        ((constructsIn tree.statements).flatMap TryConstruct.ownFindings) ∧
      (∀ finding ∈ tree.classifyAll, finding.clause.body.isSome) ∧
      tree.hidingHandlers =
        tree.classifyAll.filter (fun finding => finding.verdict = .hides) ∧
      ∀ (rule : Rule) (σ : Type) (accept : σ → Diagnostic → σ) (start : σ),
        rule.runInto tree accept start =
          ((tree.hidingHandlers.map fun finding =>
              Diagnostic.ofClause rule.severity tree.path finding.clause).foldl
              accept start,
            tree.hidingHandlers.length) := by
  have hrecursion := tree.classifyAll_eq_findingsIn
  have hperm :
      tree.classifyAll.Perm
        ((constructsIn tree.statements).flatMap TryConstruct.ownFindings) := by
    rw [hrecursion]
    exact findingsIn_perm tree.statements
  refine ⟨hrecursion, hperm, ?_, ?_, ?_⟩
  · intro finding hfinding
    obtain ⟨construct, _, hown⟩ := List.mem_flatMap.mp (hperm.mem_iff.mp hfinding)
    obtain ⟨clause, hclause, rfl⟩ := List.mem_map.mp hown
    exact (List.mem_filter.mp hclause).2
  · unfold SyntaxTree.hidingHandlers
    congr 1
    funext finding
    cases finding.verdict <;> rfl
  · intro rule σ accept start
    rw [rule.runInto_eq]
    simp only [Rule.run, List.length_map]

end HandlerLint
