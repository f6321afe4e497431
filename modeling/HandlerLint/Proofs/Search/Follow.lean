import HandlerLint.Proofs.Diagnosis.Findings
import HandlerLint.Proofs.Search.Distinct

/-!
# The model follows the tour

Lowering drops most of a parse tree, but nothing that the search passes: the try
constructs of the statements are the try nodes on the tour, in the order of the tour,
and the hiding clauses are the handlers on the tour that hide their exception, in the
same order.

The proof goes with the search.  A list of sites falls apart into the stages of its
first site and the other sites, and what was lowered from it falls apart in the same way.
-/

namespace HandlerLint.Search

open Source
open Lowering

variable {context : Context}

/-! ## Stops and what becomes of them -/

/-- Whether a handler hides its exception, read off the parse tree: its body is there,
was not made up by the parser, and none of the significant children of the body throws
by itself. -/
def hidesException (context : Context) (handler : Node) : Bool :=
  (presentBody? (context.language.handlerParts context.source handler)).any fun body =>
    (context.language.significant body).all fun item =>
      ! throwsItself context.language item

/-- The handler at a stop, if it hides its exception. -/
def Stop.hiding? (context : Context) : Stop → Option Site
  | .node _ => none
  | .clause _ handler => if hidesException context handler.node then some handler else none

/-- A construct that stands for a try node: it has the span of the node, and a clause for
each handler of the node, in order, with its span, types and binding, and with a body
where the handler has one. -/
structure Renders (context : Context) (site : Site) (construct : TryConstruct) :
    Prop where
  span : construct.span = site.node.span
  handlers :
    List.Forall₂
      (fun handler clause =>
        { clause with body := none } =
            blankClause handler.node
              (context.language.handlerParts context.source handler.node) ∧
          clause.body.isSome =
            (presentBody?
              (context.language.handlerParts context.source handler.node)).isSome)
      (site.childrenAs context.language .handler) construct.handlers

/-- Findings and constructs that agree with what the search passes. -/
structure Follows
    (context : Context) (stops : List Stop) (findings : List Finding)
    (constructs : List TryConstruct) : Prop where
  findings :
    (findings.filter (·.verdict.isHiding)).map (·.clause.span) =
      (stops.filterMap (Stop.hiding? context)).map (·.node.span)
  constructs :
    List.Forall₂ (Renders context) (stops.filterMap Stop.attempt?) constructs

theorem Follows.nil : Follows context [] [] [] :=
  ⟨rfl, .nil⟩

theorem Follows.append
    {firstStops secondStops : List Stop} {firstFindings secondFindings : List Finding}
    {firstConstructs secondConstructs : List TryConstruct}
    (hfirst : Follows context firstStops firstFindings firstConstructs)
    (hsecond : Follows context secondStops secondFindings secondConstructs) :
    Follows context (firstStops ++ secondStops) (firstFindings ++ secondFindings)
      (firstConstructs ++ secondConstructs) := by
  constructor
  · rw [List.filter_append, List.map_append, List.filterMap_append, List.map_append,
      hfirst.findings, hsecond.findings]
  · rw [List.filterMap_append]
    exact List.rel_append hfirst.constructs hsecond.constructs

theorem follows_node
    {site : Site} (hrole : site.role ≠ .attempt) :
    Follows context [.node site] [] [] := by
  refine ⟨rfl, ?_⟩
  have hnone : (Stop.node site).attempt? = none := by
    rw [Stop.attempt?, if_neg hrole]
  rw [List.filterMap_cons, hnone]
  exact .nil

theorem follows_attempt
    {site : Site} {construct : TryConstruct} (hrole : site.role = .attempt)
    (hrenders : Renders context site construct) :
    Follows context [.node site] [] [construct] := by
  refine ⟨rfl, ?_⟩
  have hsome : (Stop.node site).attempt? = some site := by
    rw [Stop.attempt?, if_pos hrole]
  rw [List.filterMap_cons, hsome]
  exact .cons hrenders .nil

/-! ## Handlers -/

theorem classifyBody_isHiding
    (statements : List Statement) :
    (classifyBody statements).isHiding = ! statements.any Statement.propagates := by
  unfold classifyBody firstPropagating?
  rw [List.isSome_find?]
  cases statements.any Statement.propagates with
  | true => rfl
  | false => rfl

theorem renders_of_loweredTry
    {depth : Nat} {binding : Option String} {site : Site} {construct : TryConstruct}
    (h : LoweredTry context depth binding site.node construct) :
    Renders context site construct := by
  refine ⟨h.span, ?_⟩
  have hhandlers := h.handlers
  rw [← map_node_childrenAs, List.forall₂_map_left_iff] at hhandlers
  refine hhandlers.imp ?_
  intro handler clause hclause
  refine ⟨hclause.head, ?_⟩
  cases hbody : presentBody?
      (context.language.handlerParts context.source handler.node) with
  | none =>
      rw [hclause.noBody hbody]
      rfl
  | some body =>
      obtain ⟨statements, hstatements, _⟩ := hclause.body body hbody
      rw [hstatements]
      rfl

/-- A clause hides its exception when its handler does. -/
theorem follows_clause
    {depth : Nat} {site handler : Site} {construct : TryConstruct} {clause : HandlerClause}
    (h : LoweredClause context depth handler.node clause) :
    Follows context [.clause site handler] (clauseFinding? construct clause).toList [] := by
  refine ⟨?_, .nil⟩
  have hspan : clause.span = handler.node.span := congrArg HandlerClause.span h.head
  rw [List.filterMap_cons, Stop.hiding?, hidesException, clauseFinding?]
  cases hbody : presentBody?
      (context.language.handlerParts context.source handler.node) with
  | none =>
      rw [h.noBody hbody]
      rfl
  | some body =>
      obtain ⟨statements, hstatements, hlowered⟩ := h.body body hbody
      have hthrows := any_propagates_of_lowerItems_eq_ok hlowered
      have hverdict :
          clause.classify.isHiding =
            (context.language.significant body).all fun item =>
              ! throwsItself context.language item := by
        rw [HandlerClause.classify, hstatements]
        rw [classifyBody_isHiding, hthrows, List.not_any_eq_all_not]
      rw [hstatements, Option.any_some, ← hverdict]
      cases hhides : clause.classify.isHiding with
      | true => simp [hhides, hspan]
      | false => simp [hhides]

/-- What has been lowered from the sites of a stage agrees with what the search passes
from there. -/
def StageFollows (context : Context) (stage : Stage) : Prop :=
  ∀ flatten depth binding statements,
    lowerItems context flatten depth binding (stage.sites.map Site.item) = .ok statements →
      Follows context (tour context.language stage.sites) (findingsIn statements)
        (constructsIn statements)

theorem map_item_clauseStage_of_handler
    {handler : Site} (hrole : handler.role = .handler) :
    (clauseStage context.language handler).sites.map Site.item =
      blockItems context.language
        (presentBody? (context.language.handlerParts context.source handler.node)) := by
  have hindex :
      clauseBodyIndex? context.language handler =
        presentBodyIndex? context.language handler.node :=
    if_pos hrole
  rw [presentBody?_eq, ← hindex]
  exact map_item_within ..

/-- The inside of a handler. -/
theorem follows_inside_handler
    {depth : Nat} {handler : Site} {clause : HandlerClause}
    (hrole : handler.role = .handler)
    (hstage : StageFollows context (clauseStage context.language handler))
    (h : LoweredClause context depth handler.node clause) :
    Follows context (tour context.language (clauseStage context.language handler).sites)
      clause.innerFindings clause.innerConstructs := by
  have hitems := @map_item_clauseStage_of_handler context handler hrole
  rw [HandlerClause.innerFindings_eq, HandlerClause.innerConstructs_eq]
  cases hbody : presentBody?
      (context.language.handlerParts context.source handler.node) with
  | none =>
      have hsites : (clauseStage context.language handler).sites = [] := by
        rw [hbody] at hitems
        exact List.map_eq_nil_iff.mp hitems
      rw [h.noBody hbody, hsites, tour_nil, optionalFindings, optionalConstructs]
      exact .nil
  | some body =>
      obtain ⟨statements, hstatements, hlowered⟩ := h.body body hbody
      rw [hstatements, optionalFindings, optionalConstructs]
      apply hstage
      rw [hitems, hbody]
      exact hlowered

/-- The handlers of a try node, one after another. -/
theorem follows_handlers
    {depth : Nat} {site : Site} {construct : TryConstruct} {handlers : List Site}
    {clauses : List HandlerClause}
    (hrole : ∀ handler ∈ handlers, handler.role = .handler)
    (hstages : ∀ handler ∈ handlers,
      StageFollows context (clauseStage context.language handler))
    (h : List.Forall₂ (fun handler clause =>
      LoweredClause context depth handler.node clause) handlers clauses) :
    Follows context
      ((handlers.map (clauseStage context.language)).flatMap
        (stageStops context.language site))
      (handlersFindings construct clauses) (handlersConstructs clauses) := by
  induction h with
  | nil =>
      rw [handlersFindings, handlersConstructs]
      exact .nil
  | @cons handler clause handlers clauses hclause _ ih =>
      have hinner :=
        follows_inside_handler (hrole handler List.mem_cons_self)
          (hstages handler List.mem_cons_self) hclause
      have hrest :=
        ih (fun other hother => hrole other (List.mem_cons_of_mem _ hother))
          (fun other hother => hstages other (List.mem_cons_of_mem _ hother))
      have hentry :
          (clauseStage context.language handler).entry site = [.clause site handler] := by
        rw [Stage.entry, clauseStage, if_pos (hrole handler List.mem_cons_self)]
        rfl
      rw [List.map_cons, List.flatMap_cons, stageStops, hentry, handlersFindings,
        handlersConstructs]
      exact ((follows_clause hclause).append hinner).append hrest

/-! ## The other parts of a try node -/

theorem map_item_clauseStage_of_ne_handler
    {clause : Site} (hrole : clause.role ≠ .handler) :
    (clauseStage context.language clause).sites.map Site.item =
      blockItems context.language (clauseBlock? context.language clause.node) := by
  have hindex :
      clauseBodyIndex? context.language clause = bodyIndex? context.language clause.node :=
    if_neg hrole
  rw [clauseBlock?_eq_bodyOf?, bodyOf?, ← hindex]
  exact map_item_within ..

/-- The only `else` clause, or the only `finally` clause, of a try node. -/
theorem follows_block
    {depth : Nat} {binding : Option String} {site : Site} {role : Role}
    {blocks : List (List Statement)}
    (hrole : role ≠ .handler)
    (honly : (childrenAs context.language role site.node).length ≤ 1)
    (hstages : ∀ clause ∈ site.childrenAs context.language role,
      StageFollows context (clauseStage context.language clause))
    (h : List.Forall₂ (LoweredBlock context depth binding)
      (childrenAs context.language role site.node) blocks) :
    Follows context
      (((site.childrenAs context.language role).map
          (clauseStage context.language)).flatMap (stageStops context.language site))
      (optionalFindings blocks.getLast?) (optionalConstructs blocks.getLast?) := by
  rw [← map_node_childrenAs] at honly h
  have hroles :
      ∀ clause ∈ site.childrenAs context.language role, clause.role ≠ .handler := by
    intro clause hclause
    rw [(mem_below_of_mem_childrenAs hclause).2]
    exact hrole
  cases hclauses : site.childrenAs context.language role with
  | nil =>
      rw [hclauses] at h
      cases h
      rw [List.getLast?_nil, optionalFindings, optionalConstructs]
      exact .nil
  | cons clause rest =>
      rw [hclauses] at honly h hstages hroles
      have hrest : rest = [] := by
        rw [List.map_cons, List.length_cons, List.length_map] at honly
        exact List.length_eq_zero_iff.mp (by omega)
      subst hrest
      obtain ⟨statements, others, hlowered, hnone, rfl⟩ := List.forall₂_cons_left_iff.mp h
      cases hnone
      have hentry : (clauseStage context.language clause).entry site = [] := by
        rw [Stage.entry, clauseStage, if_neg (hroles clause List.mem_cons_self)]
        rfl
      rw [List.map_cons, List.flatMap_cons, stageStops, hentry, List.getLast?_singleton,
        optionalFindings, optionalConstructs, List.map_nil, List.flatMap_nil,
        List.nil_append, List.append_nil]
      apply hstages clause List.mem_cons_self
      rw [map_item_clauseStage_of_ne_handler (hroles clause List.mem_cons_self)]
      exact hlowered

/-- A try node with all its stages. -/
theorem follows_try
    {depth : Nat} {binding : Option String} {site : Site} {construct : TryConstruct}
    (hrole : site.role = .attempt)
    (htidy : TidyTry context.language site.node)
    (hstages : ∀ stage ∈ stages context.language site, StageFollows context stage)
    (h : LoweredTry context depth binding site.node construct) :
    Follows context
      (.node site ::
        (stages context.language site).flatMap (stageStops context.language site))
      construct.findings (construct :: construct.innerConstructs) := by
  have hstage : stages context.language site = tryStages context.language site := by
    rw [stages, hrole]
    rfl
  rw [hstage] at hstages ⊢
  have hclauses :
      ∀ clause ∈ site.clauses context.language,
        StageFollows context (clauseStage context.language clause) := by
    intro clause hclause
    exact hstages _ (mem_tryStages_iff.mpr (.inr (.inr ⟨clause, hclause, rfl⟩)))
  -- The leading children and the body make up the body of the construct.
  obtain ⟨before, hbefore, hbody⟩ := bind_eq_ok_iff.mp (lowerItems_append .. ▸ h.body)
  obtain ⟨inside, hinside, hbody⟩ := bind_eq_ok_iff.mp hbody
  have hbody : construct.body = before ++ inside := (Except.ok.inj hbody).symm
  have hleading :
      Follows context (tour context.language (site.leading context.language))
        (findingsIn before) (constructsIn before) := by
    apply hstages _ (mem_tryStages_iff.mpr (.inl rfl))
    rw [map_item_leading]
    exact hbefore
  have hwithin :
      Follows context
        (tour context.language
          (site.within context.language (bodyIndex? context.language site.node)))
        (findingsIn inside) (constructsIn inside) := by
    apply hstages _ (mem_tryStages_iff.mpr (.inr (.inl rfl)))
    rw [map_item_within]
    exact hinside
  have hhandlers :
      Follows context
        (((site.childrenAs context.language .handler).map
            (clauseStage context.language)).flatMap (stageStops context.language site))
        (handlersFindings construct construct.handlers)
        (handlersConstructs construct.handlers) := by
    have hlowered := h.handlers
    rw [← map_node_childrenAs, List.forall₂_map_left_iff] at hlowered
    apply follows_handlers _ _ hlowered
    · intro handler hhandler
      exact (mem_below_of_mem_childrenAs hhandler).2
    · intro handler hhandler
      exact hclauses handler (List.mem_append_left _ (List.mem_append_left _ hhandler))
  obtain ⟨elses, helses, horelse⟩ := h.orelse
  have helse := follows_block (by decide) htidy.orelse
    (fun clause hclause =>
      hclauses clause (List.mem_append_left _ (List.mem_append_right _ hclause))) helses
  obtain ⟨finals, hfinals, hfinalizer⟩ := h.finalizer
  have hfinal := follows_block (by decide) htidy.finalizer
    (fun clause hclause => hclauses clause (List.mem_append_right _ hclause)) hfinals
  have hall :=
    (follows_attempt hrole (renders_of_loweredTry h)).append
      (((((hleading.append hwithin).append hhandlers).append helse).append hfinal))
  rw [TryConstruct.findings_eq, TryConstruct.innerConstructs_eq, hbody, horelse,
    hfinalizer, findingsIn_append, constructsIn_append]
  rw [tryStages, Site.clauses]
  simp only [List.flatMap_cons, List.map_append, List.flatMap_append, stageStops,
    Stage.entry, Option.map_none, Option.toList_none, List.nil_append,
    List.append_assoc, List.singleton_append] at hall ⊢
  exact hall

/-! ## Every list of sites -/

/-- The opened sites are those of the opened nodes. -/
theorem map_item_openedSites
    (language : Language) (site : Site) :
    (openedSites language site).map Site.item = openedItems language site.item := by
  have hbelow : ∀ other : Site,
      (other.below language).map Site.item = language.significant other.node :=
    fun other => map_item_sitesBelow ..
  unfold openedSites openedItems Site.role
  cases site.item.role with
  | throw => rfl
  | expressionStatement =>
      have hitems := hbelow site
      rw [Site.node] at hitems
      rw [← hitems]
      cases site.below language with
      | nil => rfl
      | cons expression rest =>
          by_cases hthrow : (expression.item.role == .throw) = true
          · simp only [List.map_cons, hthrow, if_true, List.map_nil]
          · simp only [List.map_cons, hthrow]
            exact hbelow expression
  | _ => exact hbelow site

/-- Away from try nodes there is one stage, the opened sites. -/
theorem follows_opened
    {site : Site} {statements : List Statement}
    (hrole : site.role ≠ .attempt)
    (hstages : ∀ stage ∈ stages context.language site, StageFollows context stage)
    (h : ∃ flatten depth binding, lowerItems context flatten depth binding
      (openedItems context.language site.item) = .ok statements) :
    Follows context
      (.node site ::
        (stages context.language site).flatMap (stageStops context.language site))
      (findingsIn statements) (constructsIn statements) := by
  have hstage :
      stages context.language site =
        [{ clause := none, sites := openedSites context.language site }] := by
    rw [stages, beq_eq_false_iff_ne.mpr hrole]
    rfl
  obtain ⟨flatten, depth, binding, hlowered⟩ := h
  rw [← map_item_openedSites] at hlowered
  rw [hstage] at hstages ⊢
  rw [List.flatMap_singleton]
  exact (follows_node hrole).append
    (hstages _ (List.mem_singleton_self _) flatten depth binding statements hlowered)

/-- What has been lowered from some sites, through tidy try nodes, agrees with what the
search passes from there. -/
theorem follows_of_lowerItems_eq_ok
    {flatten : Bool} {depth : Nat} {binding : Option String} {sites : List Site}
    {statements : List Statement}
    (htidy : TidyTries context.language sites)
    (h : lowerItems context flatten depth binding (sites.map Site.item) =
      .ok statements) :
    Follows context (tour context.language sites) (findingsIn statements)
      (constructsIn statements) := by
  induction sites using sites_induction context.language
    generalizing flatten depth binding statements with
  | nil =>
      rw [List.map_nil, lowerItems_nil] at h
      cases h
      rw [tour_nil, findingsIn, constructsIn]
      exact .nil
  | cons site sites ihStages ihRest =>
      have hstages : ∀ stage ∈ stages context.language site, StageFollows context stage := by
        intro stage hstage flatten depth binding statements hlowered
        exact ihStages stage hstage (htidy.of_stage hstage) hlowered
      rw [tour_cons, ← List.cons_append]
      rw [List.map_cons] at h
      by_cases hthrough : (flatten && site.item.role == .other) = true
      · -- The node is replaced by the statements found below it.
        rw [lowerItems_cons_of_through hthrough] at h
        obtain ⟨found, hfound, h⟩ := bind_eq_ok_iff.mp h
        obtain ⟨rest, hrest, h⟩ := bind_eq_ok_iff.mp h
        cases h
        rw [Bool.and_eq_true, beq_iff_eq] at hthrough
        have hrole : site.role ≠ .attempt := by
          rw [Site.role, hthrough.2]
          decide
        have hopened :
            openedItems context.language site.item =
              context.language.significant site.item.node := by
          rw [openedItems, hthrough.2]
        rw [findingsIn_append, constructsIn_append]
        refine (follows_opened hrole hstages ⟨flatten, depth, binding, ?_⟩).append
          (ihRest htidy.of_tail hrest)
        rw [hopened]
        exact hfound
      · rw [lowerItems_cons_of_kept hthrough] at h
        obtain ⟨statement, hstatement, h⟩ := bind_eq_ok_iff.mp h
        obtain ⟨rest, hrest, h⟩ := bind_eq_ok_iff.mp h
        cases h
        rw [findingsIn, constructsIn]
        refine Follows.append ?_ (ihRest htidy.of_tail hrest)
        by_cases hrole : site.role = .attempt
        · have htidySite := htidy site (.start List.mem_cons_self) hrole
          obtain ⟨construct, rfl, hlowered⟩ := lowerItem_eq_ok_of_attempt hrole hstatement
          rw [Statement.findings, Statement.constructs]
          exact follows_try hrole htidySite hstages hlowered
        · obtain ⟨hother, _, inner, depth, hnested⟩ :=
            lowerItem_eq_ok_of_ne_attempt hrole hstatement
          rw [Statement.findings_eq_findingsIn_nested hother,
            Statement.constructs_eq_constructsIn_nested hother]
          exact follows_opened hrole hstages ⟨inner, depth, binding, hnested⟩

end HandlerLint.Search
