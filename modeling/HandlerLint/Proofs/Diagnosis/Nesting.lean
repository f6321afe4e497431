import HandlerLint.Proofs.Diagnosis.Findings

/-!
# Well nested models

A model is well nested when whatever a statement, a clause or a construct holds lies inside
its span, one thing after another.  The parts of a construct take turns in the same way:
first the body, then the handlers, then the `else` and the `finally` block.

The findings of a well nested model come in source order.  A clause starts no later than
what is inside it, and what follows a clause starts where the clause has ended.
-/

namespace HandlerLint

namespace Span

/-- A stretch of bytes that lies inside another one. -/
def Inside (inner outer : Span) : Prop :=
  outer.startByte ≤ inner.startByte ∧ inner.startByte ≤ inner.endByte ∧
    inner.endByte ≤ outer.endByte

/-- A stretch of bytes that has ended where another one starts. -/
def Before (left right : Span) : Prop :=
  left.endByte ≤ right.startByte

instance (inner outer : Span) : Decidable (inner.Inside outer) :=
  inferInstanceAs (Decidable (_ ∧ _ ∧ _))

instance (left right : Span) : Decidable (left.Before right) :=
  inferInstanceAs (Decidable (_ ≤ _))

theorem Inside.trans
    {inner between outer : Span} (h : inner.Inside between) (houter : between.Inside outer) :
    inner.Inside outer := by
  unfold Inside at *
  omega

theorem Before.of_inside
    {left right first second : Span} (h : left.Before right)
    (hfirst : first.Inside left) (hsecond : second.Inside right) :
    first.Before second := by
  unfold Inside at hfirst hsecond
  unfold Before at *
  omega

/-- Spans that lie inside a span, one after another. -/
structure Holds (outer : Span) (spans : List Span) : Prop where
  inside : ∀ span ∈ spans, span.Inside outer
  ordered : spans.Pairwise Before

instance (outer : Span) (spans : List Span) : Decidable (outer.Holds spans) :=
  decidable_of_iff ((∀ span ∈ spans, span.Inside outer) ∧ spans.Pairwise Before)
    ⟨fun h => ⟨h.1, h.2⟩, fun h => ⟨h.inside, h.ordered⟩⟩

theorem Holds.nil
    (outer : Span) :
    outer.Holds [] :=
  ⟨fun _ hspan => (by cases hspan), .nil⟩

theorem Holds.widen
    {inner outer : Span} {spans : List Span} (h : inner.Holds spans)
    (hinner : inner.Inside outer) :
    outer.Holds spans :=
  ⟨fun span hspan => (h.inside span hspan).trans hinner, h.ordered⟩

end Span

/-- Where the parts of a construct are: the statements of its body, its handlers, and the
statements of its `else` and `finally` blocks. -/
def TryConstruct.partSpans (construct : TryConstruct) : List Span :=
  construct.body.map Statement.span ++ construct.handlers.map HandlerClause.span ++
    (construct.orelse.getD []).map Statement.span ++
    (construct.finalizer.getD []).map Statement.span

mutual

/-- Whether all that a statement holds is inside it and in order. -/
def Statement.WellNested : Statement → Prop
  | .rethrow _ => True
  | .throw _ => True
  | .expressionRethrow _ => True
  | .expressionThrow _ => True
  | .expression span children =>
      span.Holds (children.map Statement.span) ∧ WellNestedIn children
  | .attempt construct => construct.WellNested
  | .other span _ children =>
      span.Holds (children.map Statement.span) ∧ WellNestedIn children

/-- Whether all that a construct holds is inside it and in order. -/
def TryConstruct.WellNested : TryConstruct → Prop
  | ⟨span, body, handlers, orelse, finalizer⟩ =>
      span.Holds (TryConstruct.partSpans ⟨span, body, handlers, orelse, finalizer⟩) ∧
        WellNestedIn body ∧ HandlersWellNested handlers ∧ OptionalWellNested orelse ∧
        OptionalWellNested finalizer

/-- Whether some statements are well nested, each for itself. -/
def WellNestedIn : List Statement → Prop
  | [] => True
  | statement :: statements => statement.WellNested ∧ WellNestedIn statements

/-- Whether the statements of a block that may be absent are well nested. -/
def OptionalWellNested : Option (List Statement) → Prop
  | none => True
  | some statements => WellNestedIn statements

/-- Whether some handlers are well nested, each for itself. -/
def HandlersWellNested : List HandlerClause → Prop
  | [] => True
  | clause :: clauses => clause.WellNested ∧ HandlersWellNested clauses

/-- Whether all that a handler holds is inside it and in order. -/
def HandlerClause.WellNested : HandlerClause → Prop
  | ⟨span, _, _, body⟩ =>
      span.Holds ((body.getD []).map Statement.span) ∧ OptionalWellNested body

end

theorem TryConstruct.wellNested_iff
    (construct : TryConstruct) :
    construct.WellNested ↔
      construct.span.Holds construct.partSpans ∧ WellNestedIn construct.body ∧
        HandlersWellNested construct.handlers ∧ OptionalWellNested construct.orelse ∧
        OptionalWellNested construct.finalizer := by
  cases construct
  rw [TryConstruct.WellNested]

theorem HandlerClause.wellNested_iff
    (clause : HandlerClause) :
    clause.WellNested ↔
      clause.span.Holds ((clause.body.getD []).map Statement.span) ∧
        OptionalWellNested clause.body := by
  cases clause
  rw [HandlerClause.WellNested]

theorem handlersWellNested_iff
    {clauses : List HandlerClause} :
    HandlersWellNested clauses ↔ ∀ clause ∈ clauses, clause.WellNested := by
  induction clauses with
  | nil =>
      rw [HandlersWellNested]
      exact ⟨fun _ _ hmem => (by cases hmem), fun _ => trivial⟩
  | cons clause clauses ih => rw [HandlersWellNested, ih, List.forall_mem_cons]

theorem wellNestedIn_iff
    {statements : List Statement} :
    WellNestedIn statements ↔ ∀ statement ∈ statements, statement.WellNested := by
  induction statements with
  | nil =>
      rw [WellNestedIn]
      exact ⟨fun _ _ hmem => (by cases hmem), fun _ => trivial⟩
  | cons statement statements ih => rw [WellNestedIn, ih, List.forall_mem_cons]

/-- A statement other than a try construct is well nested when the statements directly
inside it are. -/
theorem Statement.wellNested_of_nested
    {statement : Statement} (hattempt : ∀ construct, statement ≠ .attempt construct)
    (hholds : statement.span.Holds (statement.nested.map Statement.span))
    (hnested : WellNestedIn statement.nested) :
    statement.WellNested := by
  cases statement with
  | attempt construct => exact absurd rfl (hattempt construct)
  | expression span children =>
      rw [Statement.WellNested]
      exact ⟨hholds, hnested⟩
  | other span kind children =>
      rw [Statement.WellNested]
      exact ⟨hholds, hnested⟩
  | _ =>
      rw [Statement.WellNested]
      trivial

/-! ## Findings in pieces -/

/-- Findings whose clauses lie inside a span and start no earlier than those before them. -/
structure Span.Covers (outer : Span) (findings : List Finding) : Prop where
  inside : ∀ finding ∈ findings, finding.clause.span.Inside outer
  ordered : findings.Pairwise fun left right =>
    left.clause.span.startByte ≤ right.clause.span.startByte

/-- Findings that come piece by piece, each piece inside a span of its own. -/
theorem covers_of_pieces
    {outer : Span} {pieces : List (Span × List Finding)}
    (hholds : outer.Holds (pieces.map Prod.fst))
    (hpieces : ∀ piece ∈ pieces, piece.1.Covers piece.2) :
    outer.Covers (pieces.flatMap Prod.snd) := by
  constructor
  · intro finding hfinding
    obtain ⟨piece, hpiece, hmem⟩ := List.mem_flatMap.mp hfinding
    exact ((hpieces piece hpiece).inside finding hmem).trans
      (hholds.inside _ (List.mem_map_of_mem hpiece))
  · rw [List.pairwise_flatMap]
    refine ⟨fun piece hpiece => (hpieces piece hpiece).ordered, ?_⟩
    have hordered := List.pairwise_map.mp hholds.ordered
    refine hordered.imp_of_mem ?_
    intro left right hleft hright hbefore first hfirst second hsecond
    have hfirstInside := (hpieces left hleft).inside first hfirst
    have hsecondInside := (hpieces right hright).inside second hsecond
    have hspans := hbefore.of_inside hfirstInside hsecondInside
    unfold Span.Before at hspans
    unfold Span.Inside at hfirstInside
    omega

theorem findingsIn_eq_flatMap
    (statements : List Statement) :
    findingsIn statements = statements.flatMap Statement.findings := by
  induction statements with
  | nil => rw [findingsIn, List.flatMap_nil]
  | cons statement statements ih => rw [findingsIn, List.flatMap_cons, ih]

theorem optionalFindings_eq_flatMap
    (block : Option (List Statement)) :
    optionalFindings block = (block.getD []).flatMap Statement.findings := by
  cases block with
  | none => rw [optionalFindings, Option.getD_none, List.flatMap_nil]
  | some statements => rw [optionalFindings, Option.getD_some, findingsIn_eq_flatMap]

/-- The findings of a clause and inside it. -/
def clauseFindings (construct : TryConstruct) (clause : HandlerClause) : List Finding :=
  (clauseFinding? construct clause).toList ++ clause.innerFindings

theorem handlersFindings_eq_flatMap
    (construct : TryConstruct) (clauses : List HandlerClause) :
    handlersFindings construct clauses = clauses.flatMap (clauseFindings construct) := by
  induction clauses with
  | nil => rw [handlersFindings, List.flatMap_nil]
  | cons clause clauses ih => rw [handlersFindings, List.flatMap_cons, ih, clauseFindings]

/-- A statement with its findings. -/
def Statement.piece (statement : Statement) : Span × List Finding :=
  (statement.span, statement.findings)

/-- The parts of a construct with their findings. -/
def TryConstruct.pieces (construct : TryConstruct) : List (Span × List Finding) :=
  construct.body.map Statement.piece ++
    construct.handlers.map (fun clause => (clause.span, clauseFindings construct clause)) ++
    (construct.orelse.getD []).map Statement.piece ++
    (construct.finalizer.getD []).map Statement.piece

theorem TryConstruct.map_fst_pieces
    (construct : TryConstruct) :
    construct.pieces.map Prod.fst = construct.partSpans := by
  unfold TryConstruct.pieces TryConstruct.partSpans
  simp only [List.map_append, List.map_map]
  rfl

theorem TryConstruct.findings_eq_pieces
    (construct : TryConstruct) :
    construct.findings = construct.pieces.flatMap Prod.snd := by
  rw [construct.findings_eq]
  unfold TryConstruct.pieces
  simp only [List.flatMap_append, List.flatMap_map, findingsIn_eq_flatMap,
    handlersFindings_eq_flatMap, optionalFindings_eq_flatMap]
  rfl

/-- A clause with what is inside it: the clause itself starts first. -/
theorem covers_clauseFindings
    {construct : TryConstruct} {clause : HandlerClause}
    (hproper : clause.span.Inside construct.span)
    (hinner : clause.span.Covers clause.innerFindings) :
    clause.span.Covers (clauseFindings construct clause) := by
  have hown :
      ∀ finding ∈ (clauseFinding? construct clause).toList, finding.clause = clause := by
    intro finding hfinding
    rw [Option.mem_toList] at hfinding
    unfold clauseFinding? at hfinding
    split at hfinding
    · cases hfinding
      rfl
    · cases hfinding
  have hself : clause.span.Inside clause.span := by
    unfold Span.Inside at *
    omega
  constructor
  · intro finding hfinding
    rcases List.mem_append.mp hfinding with hfirst | hrest
    · rw [hown finding hfirst]
      exact hself
    · exact hinner.inside finding hrest
  · apply List.pairwise_append.mpr
    refine ⟨?_, hinner.ordered, ?_⟩
    · cases clauseFinding? construct clause with
      | none => exact .nil
      | some finding => exact List.pairwise_singleton _ _
    · intro first hfirst second hsecond
      rw [hown first hfirst]
      exact (hinner.inside second hsecond).1

/-! ## Findings of well nested models -/

theorem covers_statements
    {outer : Span} {statements : List Statement}
    (hholds : outer.Holds (statements.map Statement.span))
    (hcovers : ∀ statement ∈ statements, statement.span.Covers statement.findings) :
    outer.Covers (findingsIn statements) := by
  have hpieces :
      findingsIn statements = (statements.map Statement.piece).flatMap Prod.snd := by
    rw [findingsIn_eq_flatMap, List.flatMap_map]
    rfl
  rw [hpieces]
  apply covers_of_pieces
  · rw [List.map_map]
    exact hholds
  · intro piece hpiece
    obtain ⟨statement, hstatement, rfl⟩ := List.mem_map.mp hpiece
    exact hcovers statement hstatement

theorem covers_construct
    {construct : TryConstruct} (hholds : construct.span.Holds construct.partSpans)
    (hbody : ∀ statement ∈ construct.body, statement.span.Covers statement.findings)
    (hhandlers : ∀ clause ∈ construct.handlers, clause.span.Covers clause.innerFindings)
    (horelse : ∀ statement ∈ construct.orelse.getD [],
      statement.span.Covers statement.findings)
    (hfinalizer : ∀ statement ∈ construct.finalizer.getD [],
      statement.span.Covers statement.findings) :
    construct.span.Covers construct.findings := by
  rw [construct.findings_eq_pieces]
  apply covers_of_pieces
  · rw [construct.map_fst_pieces]
    exact hholds
  · intro piece hpiece
    unfold TryConstruct.pieces at hpiece
    simp only [List.mem_append, List.mem_map] at hpiece
    rcases hpiece with ((⟨statement, hmem, rfl⟩ | ⟨clause, hmem, rfl⟩) |
      ⟨statement, hmem, rfl⟩) | ⟨statement, hmem, rfl⟩
    · exact hbody statement hmem
    · have hinside : clause.span ∈ construct.partSpans := by
        unfold TryConstruct.partSpans
        simp only [List.mem_append, List.mem_map]
        exact .inl (.inl (.inr ⟨clause, hmem, rfl⟩))
      exact covers_clauseFindings (hholds.inside _ hinside) (hhandlers clause hmem)
    · exact horelse statement hmem
    · exact hfinalizer statement hmem

mutual

theorem Statement.WellNested.covers : ∀ {statement : Statement},
    statement.WellNested → statement.span.Covers statement.findings
  | .rethrow _, _ | .throw _, _ | .expressionRethrow _, _ | .expressionThrow _, _ => by
      rw [Statement.findings]
      exact ⟨fun _ hmem => (by cases hmem), .nil⟩
  | .expression span children, h => by
      rw [Statement.WellNested] at h
      rw [Statement.findings]
      exact covers_statements h.1 (WellNestedIn.covers h.2)
  | .attempt construct, h => by
      rw [Statement.WellNested] at h
      rw [Statement.findings]
      exact h.covers
  | .other span kind children, h => by
      rw [Statement.WellNested] at h
      rw [Statement.findings]
      exact covers_statements h.1 (WellNestedIn.covers h.2)

theorem TryConstruct.WellNested.covers : ∀ {construct : TryConstruct},
    construct.WellNested → construct.span.Covers construct.findings
  | ⟨span, body, handlers, orelse, finalizer⟩, h => by
      rw [TryConstruct.WellNested] at h
      obtain ⟨hholds, hbody, hhandlers, horelse, hfinalizer⟩ := h
      exact covers_construct hholds (WellNestedIn.covers hbody)
        (HandlersWellNested.covers hhandlers) (OptionalWellNested.covers horelse)
        (OptionalWellNested.covers hfinalizer)

theorem WellNestedIn.covers : ∀ {statements : List Statement}, WellNestedIn statements →
    ∀ statement ∈ statements, statement.span.Covers statement.findings
  | [], _, _, hmem => by cases hmem
  | first :: rest, h, statement, hmem => by
      rw [WellNestedIn] at h
      have hfirst := h.1.covers
      have hrest := WellNestedIn.covers h.2
      rcases List.mem_cons.mp hmem with rfl | hmem
      · exact hfirst
      · exact hrest statement hmem

theorem OptionalWellNested.covers : ∀ {block : Option (List Statement)},
    OptionalWellNested block →
      ∀ statement ∈ block.getD [], statement.span.Covers statement.findings
  | none, _, _, hmem => by cases hmem
  | some statements, h, statement, hmem => by
      rw [OptionalWellNested] at h
      exact WellNestedIn.covers h statement hmem

theorem HandlersWellNested.covers : ∀ {clauses : List HandlerClause},
    HandlersWellNested clauses →
      ∀ clause ∈ clauses, clause.span.Covers clause.innerFindings
  | [], _, _, hmem => by cases hmem
  | first :: rest, h, clause, hmem => by
      rw [HandlersWellNested] at h
      have hfirst := h.1.covers
      have hrest := HandlersWellNested.covers h.2
      rcases List.mem_cons.mp hmem with rfl | hmem
      · exact hfirst
      · exact hrest clause hmem

theorem HandlerClause.WellNested.covers : ∀ {clause : HandlerClause},
    clause.WellNested → clause.span.Covers clause.innerFindings
  | ⟨span, _, _, body⟩, h => by
      rw [HandlerClause.WellNested] at h
      rw [HandlerClause.innerFindings, optionalFindings_eq_flatMap, ← findingsIn_eq_flatMap]
      exact covers_statements h.1 (OptionalWellNested.covers h.2)

end

/-- The findings of a well nested file come in source order. -/
theorem SyntaxTree.pairwise_startByte_classifyAll
    {tree : SyntaxTree} {outer : Span}
    (hholds : outer.Holds (tree.statements.map Statement.span))
    (hnested : WellNestedIn tree.statements) :
    (tree.classifyAll.map (·.clause.span.startByte)).Pairwise (· ≤ ·) := by
  rw [tree.classifyAll_eq_findingsIn, List.pairwise_map]
  exact (covers_statements hholds hnested.covers).ordered

end HandlerLint
