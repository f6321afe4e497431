import HandlerLint.Proofs.Search.Report

/-!
# Where findings come from

Whatever is found in a model was found about a handler of a try node that the search
visits.  Unlike the full account of what the rule reports, this holds of untidy try nodes
too: of several `else` clauses lowering keeps one, and what it keeps still comes from the
parse tree.
-/

namespace HandlerLint.Search

open Source
open Lowering

variable {context : Context}

/-- A handler of a try node that the search visits. -/
def VisitedHandler (language : Language) (start : List Site) (handler : Site) : Prop :=
  ∃ attempt, Visited language start attempt ∧ attempt.role = .attempt ∧
    handler ∈ attempt.childrenAs language .handler

/-- A finding about a handler of a try node that the search visits. -/
def ComesFrom (language : Language) (start : List Site) (finding : Finding) : Prop :=
  ∃ handler, VisitedHandler language start handler ∧
    finding.clause.span = handler.node.span

theorem ComesFrom.trans
    {language : Language} {start between : List Site} {finding : Finding}
    (h : ComesFrom language between finding)
    (hbetween : ∀ site ∈ between, Visited language start site) :
    ComesFrom language start finding := by
  obtain ⟨handler, ⟨attempt, hvisited, hattempt⟩, hspan⟩ := h
  exact ⟨handler, ⟨attempt, hvisited.trans hbetween, hattempt⟩, hspan⟩

/-- What is found in the statements lowered from a stage comes from some sites. -/
def StageComesFrom (context : Context) (start : List Site) (stage : Stage) : Prop :=
  ∀ flatten depth binding statements,
    lowerItems context flatten depth binding (stage.sites.map Site.item) = .ok statements →
      ∀ finding ∈ findingsIn statements, ComesFrom context.language start finding

/-! ## Clauses -/

theorem exists_of_mem_right
    {α β : Type} {relation : α → β → Prop} {left : List α} {right : List β} {value : β}
    (h : List.Forall₂ relation left right) (hvalue : value ∈ right) :
    ∃ other ∈ left, relation other value := by
  induction h with
  | nil => cases hvalue
  | @cons first second _ _ hfirst _ ih =>
      rcases List.mem_cons.mp hvalue with rfl | hrest
      · exact ⟨first, List.mem_cons_self, hfirst⟩
      · obtain ⟨other, hother, hrelated⟩ := ih hrest
        exact ⟨other, List.mem_cons_of_mem _ hother, hrelated⟩

/-- A finding of some clauses is about one of them or inside one of them. -/
theorem mem_handlersFindings
    {construct : TryConstruct} {clauses : List HandlerClause} {finding : Finding}
    (h : finding ∈ handlersFindings construct clauses) :
    ∃ clause ∈ clauses, finding.clause = clause ∨ finding ∈ clause.innerFindings := by
  induction clauses with
  | nil => simp [handlersFindings] at h
  | cons clause clauses ih =>
      rw [handlersFindings, List.mem_append, List.mem_append] at h
      rcases h with (hown | hinner) | hrest
      · refine ⟨clause, List.mem_cons_self, Or.inl ?_⟩
        rw [toList_clauseFinding?] at hown
        obtain ⟨other, hother, rfl⟩ := List.mem_map.mp hown
        exact List.mem_singleton.mp (List.mem_filter.mp hother).1
      · exact ⟨clause, List.mem_cons_self, Or.inr hinner⟩
      · obtain ⟨other, hother, hfound⟩ := ih hrest
        exact ⟨other, List.mem_cons_of_mem _ hother, hfound⟩

theorem comesFrom_inside_handler
    {depth : Nat} {start : List Site} {handler : Site} {clause : HandlerClause}
    (hrole : handler.role = .handler)
    (hstage : StageComesFrom context start (clauseStage context.language handler))
    (h : LoweredClause context depth handler.node clause) :
    ∀ finding ∈ clause.innerFindings, ComesFrom context.language start finding := by
  intro finding hfinding
  rw [HandlerClause.innerFindings_eq] at hfinding
  cases hbody : presentBody?
      (context.language.handlerParts context.source handler.node) with
  | none =>
      rw [h.noBody hbody, optionalFindings] at hfinding
      cases hfinding
  | some body =>
      obtain ⟨statements, hstatements, hlowered⟩ := h.body body hbody
      rw [hstatements, optionalFindings] at hfinding
      refine hstage false (depth + 1) clause.binding statements ?_ finding hfinding
      rw [map_item_clauseStage_of_handler hrole, hbody]
      exact hlowered

/-- A finding of a block is inside the last `else` or `finally` clause. -/
theorem comesFrom_block
    {depth : Nat} {binding : Option String} {start : List Site} {site : Site} {role : Role}
    {blocks : List (List Statement)}
    (hrole : role ≠ .handler)
    (hstages : ∀ clause ∈ site.childrenAs context.language role,
      StageComesFrom context start (clauseStage context.language clause))
    (h : List.Forall₂ (LoweredBlock context depth binding)
      (childrenAs context.language role site.node) blocks) :
    ∀ finding ∈ optionalFindings blocks.getLast?,
      ComesFrom context.language start finding := by
  intro finding hfinding
  rw [← map_node_childrenAs, List.forall₂_map_left_iff] at h
  cases hlast : blocks.getLast? with
  | none =>
      rw [hlast, optionalFindings] at hfinding
      cases hfinding
  | some statements =>
      rw [hlast, optionalFindings] at hfinding
      obtain ⟨clause, hclause, hlowered⟩ := exists_of_mem_right h (List.mem_of_getLast? hlast)
      refine hstages clause hclause false (depth + 1) binding statements ?_ finding hfinding
      have hclauseRole : clause.role ≠ .handler := by
        rw [(mem_below_of_mem_childrenAs hclause).2]
        exact hrole
      rw [map_item_clauseStage_of_ne_handler hclauseRole]
      exact hlowered

/-- A finding of a construct is about a handler of its try node, or comes from a stage. -/
theorem comesFrom_try
    {depth : Nat} {binding : Option String} {start : List Site} {site : Site}
    {construct : TryConstruct}
    (hvisited : Visited context.language start site) (hrole : site.role = .attempt)
    (hstages : ∀ stage ∈ stages context.language site, StageComesFrom context start stage)
    (h : LoweredTry context depth binding site.node construct) :
    ∀ finding ∈ construct.findings, ComesFrom context.language start finding := by
  have hstage : stages context.language site = tryStages context.language site := by
    rw [stages, hrole]
    rfl
  rw [hstage] at hstages
  have hclauses :
      ∀ clause ∈ site.clauses context.language,
        StageComesFrom context start (clauseStage context.language clause) := by
    intro clause hclause
    exact hstages _ (mem_tryStages_iff.mpr (.inr (.inr ⟨clause, hclause, rfl⟩)))
  intro finding hfinding
  rw [TryConstruct.findings_eq, List.mem_append, List.mem_append, List.mem_append] at hfinding
  rcases hfinding with ((hbody | hhandlers) | horelse) | hfinalizer
  · obtain ⟨before, hbefore, hrest⟩ := bind_eq_ok_iff.mp (lowerItems_append .. ▸ h.body)
    obtain ⟨inside, hinside, hrest⟩ := bind_eq_ok_iff.mp hrest
    have hsplit : construct.body = before ++ inside := (Except.ok.inj hrest).symm
    rw [hsplit, findingsIn_append, List.mem_append] at hbody
    rcases hbody with hleading | hwithin
    · refine hstages _ (mem_tryStages_iff.mpr (.inl rfl)) false (depth + 1) binding before ?_
        finding hleading
      rw [map_item_leading]
      exact hbefore
    · refine hstages _ (mem_tryStages_iff.mpr (.inr (.inl rfl))) false (depth + 1) binding
        inside ?_ finding hwithin
      rw [map_item_within]
      exact hinside
  · obtain ⟨clause, hclause, hfound⟩ := mem_handlersFindings hhandlers
    have hlowered := h.handlers
    rw [← map_node_childrenAs, List.forall₂_map_left_iff] at hlowered
    obtain ⟨handler, hhandler, hclauseLowered⟩ := exists_of_mem_right hlowered hclause
    rcases hfound with rfl | hinner
    · exact ⟨handler, ⟨site, hvisited, hrole, hhandler⟩,
        congrArg HandlerClause.span hclauseLowered.head⟩
    · exact comesFrom_inside_handler (mem_below_of_mem_childrenAs hhandler).2
        (hclauses handler (List.mem_append_left _ (List.mem_append_left _ hhandler)))
        hclauseLowered finding hinner
  · obtain ⟨elses, helses, hlast⟩ := h.orelse
    rw [hlast] at horelse
    refine comesFrom_block (by decide) ?_ helses finding horelse
    intro clause hclause
    exact hclauses clause (List.mem_append_left _ (List.mem_append_right _ hclause))
  · obtain ⟨finals, hfinals, hlast⟩ := h.finalizer
    rw [hlast] at hfinalizer
    refine comesFrom_block (by decide) ?_ hfinals finding hfinalizer
    intro clause hclause
    exact hclauses clause (List.mem_append_right _ hclause)

/-! ## Every list of sites -/

/-- A finding in what has been lowered from some nodes is found in the construct of the
first node, if it is a try node, or in what has been lowered from the nodes opened from it,
or in what has been lowered from the other nodes. -/
theorem mem_findingsIn_of_lowerItems_cons
    {flatten : Bool} {depth : Nat} {binding : Option String} {item : Placed}
    {items : List Placed} {statements : List Statement} {finding : Finding}
    (h : lowerItems context flatten depth binding (item :: items) = .ok statements)
    (hfinding : finding ∈ findingsIn statements) :
    (item.role = .attempt ∧
        ∃ construct, LoweredTry context depth binding item.node construct ∧
          finding ∈ construct.findings) ∨
      (item.role ≠ .attempt ∧
        ∃ flatten depth found,
          lowerItems context flatten depth binding (openedItems context.language item) =
              .ok found ∧
            finding ∈ findingsIn found) ∨
      ∃ rest, lowerItems context flatten depth binding items = .ok rest ∧
        finding ∈ findingsIn rest := by
  by_cases hthrough : (flatten && item.role == .other) = true
  · -- The node is replaced by the statements found below it.
    rw [lowerItems_cons_of_through hthrough] at h
    obtain ⟨found, hfound, h⟩ := bind_eq_ok_iff.mp h
    obtain ⟨rest, hrest, h⟩ := bind_eq_ok_iff.mp h
    cases h
    rw [Bool.and_eq_true, beq_iff_eq] at hthrough
    have hopened :
        openedItems context.language item = context.language.significant item.node := by
      rw [openedItems, hthrough.2]
    rw [findingsIn_append, List.mem_append] at hfinding
    rcases hfinding with hbelow | hlater
    · refine Or.inr (Or.inl ⟨?_, flatten, depth, found, ?_, hbelow⟩)
      · rw [hthrough.2]
        decide
      · rw [hopened]
        exact hfound
    · exact Or.inr (Or.inr ⟨rest, hrest, hlater⟩)
  · rw [lowerItems_cons_of_kept hthrough] at h
    obtain ⟨statement, hstatement, h⟩ := bind_eq_ok_iff.mp h
    obtain ⟨rest, hrest, h⟩ := bind_eq_ok_iff.mp h
    cases h
    rw [findingsIn, List.mem_append] at hfinding
    rcases hfinding with hbelow | hlater
    · by_cases hrole : item.role = .attempt
      · obtain ⟨construct, rfl, hlowered⟩ := lowerItem_eq_ok_of_attempt hrole hstatement
        rw [Statement.findings] at hbelow
        exact Or.inl ⟨hrole, construct, hlowered, hbelow⟩
      · obtain ⟨hother, _, inner, below, hnested⟩ :=
          lowerItem_eq_ok_of_ne_attempt hrole hstatement
        rw [Statement.findings_eq_findingsIn_nested hother] at hbelow
        exact Or.inr (Or.inl ⟨hrole, inner, below, statement.nested, hnested, hbelow⟩)
    · exact Or.inr (Or.inr ⟨rest, hrest, hlater⟩)

/-- Away from try nodes there is one stage, the opened sites. -/
theorem comesFrom_opened
    {flatten : Bool} {depth : Nat} {binding : Option String} {start : List Site}
    {site : Site} {statements : List Statement}
    (hrole : site.role ≠ .attempt)
    (hstages : ∀ stage ∈ stages context.language site, StageComesFrom context start stage)
    (h : lowerItems context flatten depth binding (openedItems context.language site.item) =
      .ok statements) :
    ∀ finding ∈ findingsIn statements, ComesFrom context.language start finding := by
  have hstage :
      stages context.language site =
        [{ clause := none, sites := openedSites context.language site }] := by
    rw [stages, beq_eq_false_iff_ne.mpr hrole]
    rfl
  rw [← map_item_openedSites] at h
  rw [hstage] at hstages
  exact hstages _ (List.mem_singleton_self _) flatten depth binding statements h

/-- Whatever is found in what has been lowered from some sites comes from these sites. -/
theorem comesFrom_of_lowerItems_eq_ok
    {flatten : Bool} {depth : Nat} {binding : Option String} {sites : List Site}
    {statements : List Statement}
    (h : lowerItems context flatten depth binding (sites.map Site.item) =
      .ok statements) :
    ∀ finding ∈ findingsIn statements, ComesFrom context.language sites finding := by
  induction sites using sites_induction context.language
    generalizing flatten depth binding statements with
  | nil =>
      rw [List.map_nil, lowerItems_nil] at h
      cases h
      intro finding hfinding
      rw [findingsIn] at hfinding
      cases hfinding
  | cons site sites ihStages ihRest =>
      have hsite : Visited context.language (site :: sites) site :=
        .start List.mem_cons_self
      have hstages :
          ∀ stage ∈ stages context.language site,
            StageComesFrom context (site :: sites) stage := by
        intro stage hstage flatten depth binding statements hlowered finding hfinding
        refine (ihStages stage hstage hlowered finding hfinding).trans ?_
        intro next hnext
        exact .onward hsite hstage hnext
      intro finding hfinding
      rw [List.map_cons] at h
      rcases mem_findingsIn_of_lowerItems_cons h hfinding with
        ⟨hrole, construct, hlowered, hfound⟩ | ⟨hrole, _, _, found, hlowered, hfound⟩ |
          ⟨rest, hlowered, hfound⟩
      · exact comesFrom_try hsite hrole hstages hlowered finding hfound
      · exact comesFrom_opened hrole hstages hlowered finding hfound
      · refine (ihRest hlowered finding hfound).trans ?_
        intro next hnext
        exact .start (List.mem_cons_of_mem _ hnext)

/-- Every report of the rule is about a handler of a visited try node, at its span. -/
theorem exists_handler_of_mem_run
    {language : Language} {path : String} {source : List UInt8} {tree : Tree}
    {model : SyntaxTree} {rule : Rule} {diagnostic : Diagnostic}
    (h : lower language path source tree = .ok model)
    (hmem : diagnostic ∈ rule.run model) :
    ∃ handler, VisitedHandler language (rootSites language tree.root) handler ∧
      diagnostic.location.span = handler.node.span := by
  obtain ⟨finding, hfinding, rfl⟩ := List.mem_map.mp hmem
  have hfound := (List.mem_filter.mp hfinding).1
  rw [model.classifyAll_eq_findingsIn] at hfound
  unfold lower at h
  rw [lowerRoot_eq_statementsOf] at h
  cases hstatements : statementsOf { language, source } tree.root with
  | error error =>
      rw [hstatements] at h
      cases h
  | ok statements =>
      rw [hstatements] at h
      cases h
      unfold statementsOf at hstatements
      rw [← map_item_sitesBelow language []] at hstatements
      exact comesFrom_of_lowerItems_eq_ok hstatements finding hfound

end HandlerLint.Search
