import HandlerLint.Proofs.Lowering.Depth
import HandlerLint.Proofs.Search.Thrown

/-!
# Which throws are rethrows

The throws of a model are the throwing nodes that the search visits, without those in
`else` and `finally` clauses that a later clause of the same kind replaces.  Each is lowered
as the innermost handler around it says, just as in the log of the run.

The bindings of other handlers have no say in it: the innermost handler around a throw is
the last one into whose body the search has gone on its way there.  What follows a handler
is again inside the handler around it, or inside none.
-/

namespace HandlerLint

/-! ## The throws of a model -/

theorem statementsWeight_append
    (left right : List Statement) :
    statementsWeight (left ++ right) = statementsWeight left + statementsWeight right := by
  induction left with
  | nil => simp [statementsWeight]
  | cons statement left ih =>
      rw [List.cons_append, statementsWeight, statementsWeight, ih, Nat.add_assoc]

theorem statementsWeight_getD_le
    (block : Option (List Statement)) :
    statementsWeight (block.getD []) ≤ optionalWeight block := by
  cases block with
  | none => simp [statementsWeight, optionalWeight]
  | some statements => simp [optionalWeight]

theorem statementsWeight_handlers_le
    (handlers : List HandlerClause) :
    statementsWeight (handlers.flatMap fun clause => clause.body.getD []) ≤
      handlersWeight handlers := by
  induction handlers with
  | nil => simp [statementsWeight, handlersWeight]
  | cons clause handlers ih =>
      have hbody := statementsWeight_getD_le clause.body
      rw [List.flatMap_cons, statementsWeight_append, handlersWeight,
        HandlerClause.weight_eq]
      omega

/-- The statements inside a statement are lighter than the statement. -/
theorem Statement.statementsWeight_inside_lt
    (statement : Statement) :
    statementsWeight statement.inside < statement.weight := by
  cases statement with
  | attempt construct =>
      have hhandlers := statementsWeight_handlers_le construct.handlers
      have horelse := statementsWeight_getD_le construct.orelse
      have hfinalizer := statementsWeight_getD_le construct.finalizer
      rw [Statement.inside, TryConstruct.inside, statementsWeight_append,
        statementsWeight_append, statementsWeight_append, Statement.weight,
        TryConstruct.weight_eq]
      omega
  | _ =>
      simp only [Statement.inside, Statement.nested, Statement.weight, statementsWeight]
      omega

/-- The throws and rethrows among some statements and inside them, each ahead of the later
ones. -/
def throwsIn : List Statement → List Statement
  | [] => []
  | statement :: statements =>
      (if statement.propagates then [statement] else []) ++ throwsIn statement.inside ++
        throwsIn statements
termination_by statements => statementsWeight statements
decreasing_by
  · have := statement.statementsWeight_inside_lt
    rw [statementsWeight]
    omega
  · have := statement.statementsWeight_inside_lt
    rw [statementsWeight]
    omega

theorem throwsIn_append
    (left right : List Statement) :
    throwsIn (left ++ right) = throwsIn left ++ throwsIn right := by
  induction left with
  | nil => rw [throwsIn, List.nil_append, List.nil_append]
  | cons statement left ih =>
      rw [List.cons_append, throwsIn, throwsIn, ih]
      simp only [List.append_assoc]

theorem throwsIn_flatMap
    {α : Type} (values : List α) (f : α → List Statement) :
    throwsIn (values.flatMap f) = values.flatMap fun value => throwsIn (f value) := by
  induction values with
  | nil => rw [List.flatMap_nil, throwsIn, List.flatMap_nil]
  | cons value values ih =>
      rw [List.flatMap_cons, throwsIn_append, ih, List.flatMap_cons]

end HandlerLint

namespace HandlerLint.Search

open Source
open Lowering

variable {context : Context}

/-- Whether the node of a visit throws, and a statement is what it was lowered to. -/
def Throws (context : Context) (visit : Visit) (statement : Statement) : Prop :=
  LoweredThrow context visit.handler visit.site.item statement

theorem forall₂_throws_singleton
    {depth : Nat} {handler : Option Site} {site : Site} {statement : Statement}
    (h : lowerItem context depth (bindingOf context handler) site.item = .ok statement) :
    List.Forall₂ (Throws context) (throwing context [{ handler, site }])
      (if statement.propagates then [statement] else []) := by
  unfold throwing
  rw [List.filter_singleton, lowerItem_eq_ok_propagates h]
  cases hthrows : throwsItself context.language site.item with
  | false => exact .nil
  | true =>
      obtain ⟨thrown, htask, hlowered⟩ := @exists_loweredThrow context handler _ hthrows
      rw [lowerItem_eq_perform, htask] at h
      cases h
      exact .cons hlowered .nil

/-! ## Stages -/

/-- The throws in what has been lowered from the sites of a stage are those that the search
visits there. -/
def StageThrows (context : Context) (handler : Option Site) (stage : Stage) : Prop :=
  ∀ flatten depth statements,
    lowerItems context flatten depth (bindingOf context (stage.clause.or handler))
        (stage.sites.map Site.item) = .ok statements →
      List.Forall₂ (Throws context)
        (throwing context ((keptItinerary context.language).stageVisits handler stage))
        (throwsIn statements)

/-- The throws inside a handler. -/
theorem forall₂_throws_handler
    {depth : Nat} {handler : Option Site} {site : Site} {clause : HandlerClause}
    (hrole : site.role = .handler)
    (hstage : StageThrows context handler (clauseStage context.language site))
    (h : LoweredClause context depth site.node clause) :
    List.Forall₂ (Throws context)
      (throwing context ((keptItinerary context.language).stageVisits handler
        (clauseStage context.language site)))
      (throwsIn (clause.body.getD [])) := by
  have hitems := @map_item_clauseStage_of_handler context site hrole
  have hclause : (clauseStage context.language site).clause = some site := if_pos hrole
  have hbinding :
      clause.binding =
        bindingOf context ((clauseStage context.language site).clause.or handler) := by
    rw [hclause, Option.some_or]
    exact congrArg HandlerClause.binding h.head
  cases hbody : presentBody?
      (context.language.handlerParts context.source site.node) with
  | none =>
      apply hstage false 0
      rw [hitems, hbody, h.noBody hbody]
      exact lowerItems_nil ..
  | some body =>
      obtain ⟨statements, hstatements, hlowered⟩ := h.body body hbody
      rw [hstatements]
      apply hstage false (depth + 1)
      rw [hitems, hbody, ← hbinding]
      exact hlowered

/-- The throws inside the last `else` or `finally` clause. -/
theorem forall₂_throws_last
    {depth : Nat} {handler : Option Site} {site : Site} {role : Role}
    {blocks : List (List Statement)} (hrole : role ≠ .handler)
    (hstages : ∀ clause ∈ site.childrenAs context.language role,
      StageThrows context handler (clauseStage context.language clause))
    (h : List.Forall₂ (LoweredBlock context depth (bindingOf context handler))
      (childrenAs context.language role site.node) blocks) :
    List.Forall₂ (Throws context)
      (throwing context
        (((site.childrenAs context.language role).getLast?.toList.map
          (clauseStage context.language)).flatMap
            ((keptItinerary context.language).stageVisits handler)))
      (throwsIn (blocks.getLast?.getD [])) := by
  rw [← map_node_childrenAs, List.forall₂_map_left_iff, ← List.forall₂_reverse_iff] at h
  rw [List.getLast?_eq_head?_reverse, List.getLast?_eq_head?_reverse]
  cases hclauses : (site.childrenAs context.language role).reverse with
  | nil =>
      rw [hclauses, List.forall₂_nil_left_iff] at h
      simp only [h, List.head?_nil, Option.getD_none, throwsIn]
      exact .nil
  | cons clause rest =>
      rw [hclauses] at h
      obtain ⟨statements, others, hlowered, _, hblocks⟩ := List.forall₂_cons_left_iff.mp h
      have hmem : clause ∈ site.childrenAs context.language role := by
        rw [← List.mem_reverse, hclauses]
        exact List.mem_cons_self
      have hclauseRole : clause.role ≠ .handler := by
        rw [(mem_below_of_mem_childrenAs hmem).2]
        exact hrole
      have hclause : (clauseStage context.language clause).clause = none := if_neg hclauseRole
      rw [hblocks, List.head?_cons, List.head?_cons, Option.toList_some, List.map_singleton,
        List.flatMap_singleton]
      apply hstages clause hmem false (depth + 1)
      rw [map_item_clauseStage_of_ne_handler hclauseRole, hclause]
      exact hlowered

/-- The throws inside a try construct. -/
theorem forall₂_throws_try
    {depth : Nat} {handler : Option Site} {site : Site} {construct : TryConstruct}
    (hrole : site.role = .attempt)
    (hstages : ∀ stage ∈ stages context.language site, StageThrows context handler stage)
    (h : LoweredTry context depth (bindingOf context handler) site.node construct) :
    List.Forall₂ (Throws context)
      (throwing context (((keptItinerary context.language).onward site).flatMap
        ((keptItinerary context.language).stageVisits handler)))
      (throwsIn construct.inside) := by
  have hstage : stages context.language site = tryStages context.language site := by
    rw [stages, hrole]
    rfl
  rw [hstage] at hstages
  have hclauses :
      ∀ clause ∈ site.clauses context.language,
        StageThrows context handler (clauseStage context.language clause) := by
    intro clause hclause
    exact hstages _ (mem_tryStages_iff.mpr (.inr (.inr ⟨clause, hclause, rfl⟩)))
  obtain ⟨before, hbefore, hbody⟩ := bind_eq_ok_iff.mp (lowerItems_append .. ▸ h.body)
  obtain ⟨inside, hinside, hbody⟩ := bind_eq_ok_iff.mp hbody
  have hbody : construct.body = before ++ inside := (Except.ok.inj hbody).symm
  have hleading :=
    hstages _ (mem_tryStages_iff.mpr (.inl rfl)) false (depth + 1) before
      (map_item_leading context.language site ▸ hbefore)
  have hwithin :=
    hstages _ (mem_tryStages_iff.mpr (.inr (.inl rfl))) false (depth + 1) inside
      (map_item_within context.language site _ ▸ hinside)
  have hhandlers :
      List.Forall₂ (Throws context)
        (throwing context
          (((site.childrenAs context.language .handler).map
            (clauseStage context.language)).flatMap
              ((keptItinerary context.language).stageVisits handler)))
        (throwsIn (construct.handlers.flatMap fun clause => clause.body.getD [])) := by
    have hlowered := h.handlers
    rw [← map_node_childrenAs, List.forall₂_map_left_iff] at hlowered
    have hinside :
        ∀ clause ∈ site.childrenAs context.language .handler,
          clause.role = .handler ∧
            StageThrows context handler (clauseStage context.language clause) :=
      fun clause hclause => ⟨(mem_below_of_mem_childrenAs hclause).2,
        hclauses clause (List.mem_append_left _ (List.mem_append_left _ hclause))⟩
    rw [throwing_flatMap, List.flatMap_map, throwsIn_flatMap]
    refine List.rel_flatMap ((List.forall₂_and_left _ _).mpr ⟨hinside, hlowered⟩) ?_
    rintro clause lowered ⟨⟨hclauseRole, hclauseStage⟩, hclause⟩
    exact forall₂_throws_handler hclauseRole hclauseStage hclause
  obtain ⟨elses, helses, horelse⟩ := h.orelse
  obtain ⟨finals, hfinals, hfinalizer⟩ := h.finalizer
  have helse := forall₂_throws_last (by decide) (fun clause hclause =>
    hclauses clause (List.mem_append_left _ (List.mem_append_right _ hclause))) helses
  have hfinal := forall₂_throws_last (by decide) (fun clause hclause =>
    hclauses clause (List.mem_append_right _ hclause)) hfinals
  have honward :
      (keptItinerary context.language).onward site =
        { clause := none, sites := site.leading context.language } ::
          { clause := none
            sites := site.within context.language (bodyIndex? context.language site.node) } ::
          (site.keptClauses context.language).map (clauseStage context.language) :=
    Itinerary.onward_of_attempt hrole
  rw [honward, List.flatMap_cons, List.flatMap_cons, Site.keptClauses, List.map_append,
    List.map_append, List.flatMap_append, List.flatMap_append, TryConstruct.inside, hbody,
    horelse, hfinalizer]
  simp only [throwing_append, throwsIn_append, List.append_assoc]
  exact List.rel_append hleading (List.rel_append hwithin
    (List.rel_append hhandlers (List.rel_append helse hfinal)))

/-! ## Every list of sites -/

/-- The throws in what has been lowered from some nodes are that of the first node, if it
throws by itself, those inside its construct, if it is a try node, or in what has been
lowered from the nodes opened from it, and those in what has been lowered from the other
nodes. -/
theorem throwsIn_of_lowerItems_cons
    {flatten : Bool} {depth : Nat} {handler : Option Site} {site : Site}
    {items : List Placed} {statements : List Statement}
    (h : lowerItems context flatten depth (bindingOf context handler)
      (site.item :: items) = .ok statements) :
    ∃ own inside rest,
      throwsIn statements = own ++ throwsIn inside ++ throwsIn rest ∧
        List.Forall₂ (Throws context) (throwing context [{ handler, site }]) own ∧
        lowerItems context flatten depth (bindingOf context handler) items = .ok rest ∧
        ((site.role = .attempt ∧ ∃ construct,
            LoweredTry context depth (bindingOf context handler) site.node construct ∧
              inside = construct.inside) ∨
          (site.role ≠ .attempt ∧ ∃ flatten depth,
            lowerItems context flatten depth (bindingOf context handler)
              (openedItems context.language site.item) = .ok inside)) := by
  by_cases hthrough : (flatten && site.item.role == .other) = true
  · -- The node is replaced by the statements found below it.
    rw [lowerItems_cons_of_through hthrough] at h
    obtain ⟨found, hfound, h⟩ := bind_eq_ok_iff.mp h
    obtain ⟨rest, hrest, h⟩ := bind_eq_ok_iff.mp h
    cases h
    rw [Bool.and_eq_true, beq_iff_eq] at hthrough
    have hopened :
        openedItems context.language site.item =
          context.language.significant site.item.node := by
      rw [openedItems, hthrough.2]
    have hquiet : throwing context [{ handler, site }] = [] := by
      unfold throwing throwsItself
      rw [List.filter_singleton, hthrough.2]
      rfl
    refine ⟨[], found, rest, throwsIn_append .., ?_, hrest, .inr ⟨?_, ?_⟩⟩
    · rw [hquiet]
      exact .nil
    · rw [Site.role, hthrough.2]
      decide
    · exact ⟨flatten, depth, hopened ▸ hfound⟩
  · rw [lowerItems_cons_of_kept hthrough] at h
    obtain ⟨statement, hstatement, h⟩ := bind_eq_ok_iff.mp h
    obtain ⟨rest, hrest, h⟩ := bind_eq_ok_iff.mp h
    cases h
    refine ⟨_, statement.inside, rest, by rw [throwsIn], forall₂_throws_singleton hstatement,
      hrest, ?_⟩
    by_cases hrole : site.item.role = .attempt
    · obtain ⟨construct, rfl, hlowered⟩ := lowerItem_eq_ok_of_attempt hrole hstatement
      exact .inl ⟨hrole, construct, hlowered, rfl⟩
    · obtain ⟨hother, _, inner, below, hnested⟩ :=
        lowerItem_eq_ok_of_ne_attempt hrole hstatement
      rw [Statement.inside_eq_nested hother]
      exact .inr ⟨hrole, inner, below, hnested⟩

/-- The throws in what has been lowered from some sites are the throwing nodes that the
search visits and the constructs keep, each lowered under the innermost handler around it. -/
theorem forall₂_throwsIn
    {flatten : Bool} {depth : Nat} {handler : Option Site} {sites : List Site}
    {statements : List Statement}
    (h : lowerItems context flatten depth (bindingOf context handler)
      (sites.map Site.item) = .ok statements) :
    List.Forall₂ (Throws context)
      (throwing context ((keptItinerary context.language).visits handler sites))
      (throwsIn statements) := by
  induction sites using sites_induction context.language
    generalizing flatten depth handler statements with
  | nil =>
      rw [List.map_nil, lowerItems_nil] at h
      cases h
      rw [Itinerary.visits_nil, throwsIn]
      exact .nil
  | cons site sites ihStages ihRest =>
      obtain ⟨own, inside, rest, hsplit, hown, hrest, hinside⟩ :=
        throwsIn_of_lowerItems_cons h
      have hstages :
          ∀ stage ∈ stages context.language site, StageThrows context handler stage :=
        fun stage hstage _ _ _ hlowered => ihStages stage hstage hlowered
      rw [Itinerary.visits_cons, throwing_cons, throwing_append, hsplit, List.append_assoc]
      refine List.rel_append hown (List.rel_append ?_ (ihRest hrest))
      rcases hinside with ⟨hrole, construct, hlowered, rfl⟩ | ⟨hrole, _, _, hlowered⟩
      · exact forall₂_throws_try hrole hstages hlowered
      · have honward :
            (keptItinerary context.language).onward site =
              [{ clause := none, sites := openedSites context.language site }] :=
          Itinerary.onward_of_ne_attempt hrole
        have hstage := Itinerary.mem_stages (keptItinerary context.language)
          (honward ▸ List.mem_singleton_self _)
        rw [honward, List.flatMap_singleton]
        rw [← map_item_openedSites] at hlowered
        exact hstages _ hstage _ _ _ hlowered

/-! ## Every parse tree -/

/-- The throwing nodes that a search of a parse tree visits, in source order, each with the
innermost handler around it. -/
def throwVisits (context : Context) (root : Node) : List Visit :=
  throwing context
    ((sourceItinerary context.language).visits none (rootSites context.language root))

/-- Those that the try constructs of the model keep, in the order of the model. -/
def keptThrowVisits (context : Context) (root : Node) : List Visit :=
  throwing context
    ((keptItinerary context.language).visits none (rootSites context.language root))

theorem mem_throwing_iff
    {visits : List Visit} {visit : Visit} :
    visit ∈ throwing context visits ↔
      visit ∈ visits ∧ throwsItself context.language visit.site.item = true :=
  List.mem_filter

/-- A throw is a rethrow or not by the innermost handler around it.  Of a parse tree that
could be lowered, every throwing node that the search visits is logged by the run, once for
every way there, as a rethrow or as a throw according to the innermost handler on that way.
The throws of the model are lowered likewise; they are throwing nodes that the search
visits, and all of them if the try nodes are tidy.  A node that a handler is around is inside
the body of that handler. -/
theorem throws_follow_innermost_handler
    {language : Language} {path : String} {source : List UInt8} {tree : Tree}
    {model : SyntaxTree}
    (h : lower language path source tree = .ok model) :
    (∀ visit, visit ∈ throwVisits { language, source } tree.root ↔
        VisitedInside language none (rootSites language tree.root) visit.handler visit.site ∧
          throwsItself language visit.site.item = true) ∧
      List.Forall₂
        (fun visit thrown =>
          thrown.item = visit.site.item ∧
            LoweredThrow { language, source } visit.handler visit.site.item thrown.statement)
        (throwVisits { language, source } tree.root)
        (rootThrowLog { language, source } tree.root) ∧
      List.Forall₂
        (fun visit statement =>
          LoweredThrow { language, source } visit.handler visit.site.item statement)
        (keptThrowVisits { language, source } tree.root) (throwsIn model.statements) ∧
      (∀ visit ∈ keptThrowVisits { language, source } tree.root,
        visit ∈ throwVisits { language, source } tree.root) ∧
      (TidyTries language (rootSites language tree.root) →
        ∀ visit ∈ throwVisits { language, source } tree.root,
          visit ∈ keptThrowVisits { language, source } tree.root) ∧
      ∀ handler site,
        VisitedInside language none (rootSites language tree.root) (some handler) site →
          ∃ index, presentBodyIndex? language handler.node = some index ∧
            handler.address ++ [index] <+: site.address := by
  have hstatements := statementsOf_of_lower_eq_ok h
  have hroot :
      lowerRoot { language, source } tree.root = .ok model.statements := by
    rw [lowerRoot_eq_statementsOf]
    exact hstatements
  have hsites := map_item_sitesBelow language [] tree.root
  refine ⟨?_, ?_, ?_, ?_, ?_, ?_⟩
  · intro visit
    rw [throwVisits, mem_throwing_iff, mem_sourceItinerary_visits_iff]
  · rw [rootThrowLog_of_lowerRoot_eq_ok hroot, ← hsites]
    exact forall₂_throwsOf none (rootSites language tree.root)
  · unfold statementsOf at hstatements
    rw [← hsites] at hstatements
    exact forall₂_throwsIn hstatements
  · intro visit hvisit
    rw [keptThrowVisits, mem_throwing_iff] at hvisit
    rw [throwVisits, mem_throwing_iff, mem_sourceItinerary_visits_iff]
    exact ⟨Itinerary.visitedInside_of_mem_visits hvisit.1, hvisit.2⟩
  · intro htidy visit hvisit
    rw [throwVisits, mem_throwing_iff, mem_sourceItinerary_visits_iff] at hvisit
    rw [keptThrowVisits, mem_throwing_iff, mem_keptItinerary_visits_iff htidy]
    exact hvisit
  · intro handler site hinside
    exact hinside.below_body rfl (by simp)

/-- After an inner handler that binds no name, the name of the outer handler is in force
again: the one throw of the model is a rethrow. -/
theorem rethrow_after_inner_handler :
    ∃ model, lower .javascript "a.js" nestedSource nestedTree = .ok model ∧
      throwsIn model.statements =
        [.rethrow ⟨35, 42, 1, 36, 1, 43⟩] := by
  have hok : (lower .javascript "a.js" nestedSource nestedTree).isOk = true := by
    decide +kernel
  have hvisits :
      (keptThrowVisits { language := .javascript, source := nestedSource }
          nestedTree.root).map (fun visit =>
        (visit.site.role, visit.site.node.span,
          Language.isRethrow .javascript nestedSource
            (bindingOf { language := .javascript, source := nestedSource } visit.handler)
            visit.site.node)) =
        [(.throw, ⟨35, 42, 1, 36, 1, 43⟩, true)] := by
    decide +kernel
  obtain ⟨model, hmodel⟩ := exists_eq_ok_of_isOk hok
  refine ⟨model, hmodel, ?_⟩
  obtain ⟨_, _, hkept, _⟩ := throws_follow_innermost_handler hmodel
  obtain ⟨visit, hvisit, hfacts⟩ := List.map_eq_singleton_iff.mp hvisits
  simp only [Prod.mk.injEq] at hfacts
  obtain ⟨hrole, hspan, hrethrow⟩ := hfacts
  rw [hvisit] at hkept
  obtain ⟨statement, others, hlowered, hnone, hthrows⟩ := List.forall₂_cons_left_iff.mp hkept
  rw [hthrows, List.forall₂_nil_left_iff.mp hnone, ← hspan]
  cases hlowered with
  | rethrow _ _ => rfl
  | throw _ hno => exact absurd (isRethrow_iff.mp hrethrow) hno
  | expressionRethrow hother _ _ _ => cases hrole.symm.trans hother
  | expressionThrow hother _ _ _ => cases hrole.symm.trans hother

end HandlerLint.Search
