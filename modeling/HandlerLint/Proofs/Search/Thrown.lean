import HandlerLint.Proofs.Lowering.Throws
import HandlerLint.Proofs.Search.Report
import HandlerLint.Proofs.Search.Scope

/-!
# Throws and the handlers around them

Whether a throw counts as a rethrow depends on the name bound by the innermost handler
around it.  The machine keeps that name on a stack, which grows when the body of a handler
is opened and shrinks when it is closed.  Here the name is read off the parse tree: it is
that of the last handler into whose body the search has gone on its way to the throw.

The throws that a run logs are the throwing nodes that the search visits, in source order,
and each is lowered as the handler around it says.
-/

namespace HandlerLint.Search

open Source
open Lowering

variable {context : Context}

/-! ## Rethrows -/

/-- Whether a node is an identifier that is written like the name that a handler binds. -/
def NamesCaught (context : Context) (handler : Option Site) (node : Node) : Prop :=
  ∃ clause name, handler = some clause ∧
    (context.language.handlerParts context.source clause.node).binding = some name ∧
    node.kind = "identifier" ∧ node.text context.source = name

/-- Whether a throw inside a handler, or inside none, raises the caught exception again.
In C++ it has no operand.  In Python it has no cause, and no operand or the caught exception
as its operand.  Elsewhere its operand is the caught exception. -/
def Rethrows (context : Context) (handler : Option Site) (node : Node) : Prop :=
  match context.language with
  | .cpp => context.language.significant node = []
  | .python =>
      (∀ child ∈ node.children, child.kind ≠ "from") ∧
        (context.language.significant node = [] ∨
          ∃ operand rest, context.language.significant node = operand :: rest ∧
            NamesCaught context handler operand.node)
  | .java | .javascript | .tsx | .typescript =>
      ∃ operand rest, context.language.significant node = operand :: rest ∧
        NamesCaught context handler operand.node

/-- How a throwing node inside a handler, or inside none, is lowered. -/
inductive LoweredThrow (context : Context) (handler : Option Site) :
    Placed → Statement → Prop
  | rethrow {item : Placed} :
      item.role = .throw → Rethrows context handler item.node →
        LoweredThrow context handler item (.rethrow item.node.span)
  | throw {item : Placed} :
      item.role = .throw → ¬Rethrows context handler item.node →
        LoweredThrow context handler item (.throw item.node.span)
  | expressionRethrow {item expression : Placed} {rest : List Placed} :
      item.role = .expressionStatement →
        context.language.significant item.node = expression :: rest →
        expression.role = .throw → Rethrows context handler expression.node →
          LoweredThrow context handler item (.expressionRethrow item.node.span)
  | expressionThrow {item expression : Placed} {rest : List Placed} :
      item.role = .expressionStatement →
        context.language.significant item.node = expression :: rest →
        expression.role = .throw → ¬Rethrows context handler expression.node →
          LoweredThrow context handler item (.expressionThrow item.node.span)

/-- The name that a handler binds, if there is a handler and it binds one. -/
def bindingOf (context : Context) (handler : Option Site) : Option String :=
  handler.bind fun clause =>
    (context.language.handlerParts context.source clause.node).binding

theorem isBoundName_iff
    {handler : Option Site} {node : Node} :
    Language.isBoundName context.source (bindingOf context handler) node = true ↔
      NamesCaught context handler node := by
  unfold Language.isBoundName NamesCaught bindingOf
  cases handler with
  | none => simp
  | some clause =>
      rw [Option.bind_some]
      cases hbinding :
          (context.language.handlerParts context.source clause.node).binding with
      | none => simp [hbinding]
      | some name =>
          simp only [Bool.and_eq_true, beq_iff_eq]
          constructor
          · rintro ⟨hkind, htext⟩
            exact ⟨clause, name, rfl, hbinding, hkind, htext⟩
          · rintro ⟨other, bound, hother, hbound, hkind, htext⟩
            cases hother
            rw [hbinding] at hbound
            cases hbound
            exact ⟨hkind, htext⟩

/-- The test for rethrows answers what a rethrow is. -/
theorem isRethrow_iff
    {handler : Option Site} {node : Node} :
    context.language.isRethrow context.source (bindingOf context handler) node = true ↔
      Rethrows context handler node := by
  unfold Language.isRethrow Rethrows Language.operand?
  have hname := fun operand => @isBoundName_iff context handler operand
  cases hlanguage : context.language with
  | cpp => cases Language.cpp.significant node <;> simp
  | python =>
      have hfrom :
          node.children.any (·.kind == "from") = false ↔
            ∀ child ∈ node.children, child.kind ≠ "from" := by
        simp
      rw [← hfrom]
      cases node.children.any (·.kind == "from") with
      | true => simp
      | false => cases Language.python.significant node <;> simp [hname]
  | _ =>
      simp only
      cases Language.significant _ node <;> simp [hname]

/-- A node that throws by itself is lowered at once, as a rethrow or as a throw. -/
theorem exists_loweredThrow
    {handler : Option Site} {item : Placed}
    (h : throwsItself context.language item = true) :
    ∃ statement, Task.ofItem context (bindingOf context handler) item = .emit statement ∧
      LoweredThrow context handler item statement := by
  have hrethrow := fun node => @isRethrow_iff context handler node
  unfold throwsItself at h
  unfold Task.ofItem
  cases hrole : item.role with
  | throw =>
      dsimp only
      split
      · next hre => exact ⟨_, rfl, .rethrow hrole ((hrethrow _).mp hre)⟩
      · next hno => exact ⟨_, rfl, .throw hrole (mt (hrethrow _).mpr hno)⟩
  | expressionStatement =>
      simp only [hrole] at h
      cases hbelow : context.language.significant item.node with
      | nil =>
          rw [hbelow] at h
          cases h
      | cons expression rest =>
          rw [hbelow, List.head?_cons, Option.any_some] at h
          have hthrow := beq_iff_eq.mp h
          simp only [hbelow, if_pos h]
          split
          · next hre =>
              exact ⟨_, rfl, .expressionRethrow hrole hbelow hthrow ((hrethrow _).mp hre)⟩
          · next hno =>
              exact ⟨_, rfl, .expressionThrow hrole hbelow hthrow (mt (hrethrow _).mpr hno)⟩
  | _ =>
      simp only [hrole] at h
      cases h

/-! ## Throws among visits -/

/-- The visits of nodes that throw by themselves. -/
def throwing (context : Context) (visits : List Visit) : List Visit :=
  visits.filter fun visit => throwsItself context.language visit.site.item

/-- Visits of throwing nodes, and what these nodes were lowered to. -/
def Thrower (context : Context) (visit : Visit) (thrown : Thrown) : Prop :=
  thrown.item = visit.site.item ∧
    LoweredThrow context visit.handler visit.site.item thrown.statement

theorem throwing_append
    (left right : List Visit) :
    throwing context (left ++ right) = throwing context left ++ throwing context right :=
  List.filter_append ..

theorem throwing_cons
    (visit : Visit) (visits : List Visit) :
    throwing context (visit :: visits) =
      throwing context [visit] ++ throwing context visits :=
  throwing_append [visit] visits

theorem throwing_flatMap
    {α : Type} (values : List α) (f : α → List Visit) :
    throwing context (values.flatMap f) =
      values.flatMap fun value => throwing context (f value) :=
  List.filter_flatMap ..

theorem forall₂_flatMap
    {α β γ : Type} {R : β → γ → Prop} {values : List α} {f : α → List β} {g : α → List γ}
    (h : ∀ value ∈ values, List.Forall₂ R (f value) (g value)) :
    List.Forall₂ R (values.flatMap f) (values.flatMap g) :=
  List.rel_flatMap (List.forall₂_same.mpr h) fun _ _ hvalue => hvalue

theorem forall₂_throwing_singleton
    {handler : Option Site} {site : Site} :
    List.Forall₂ (Thrower context) (throwing context [{ handler, site }])
      (thrown? context (bindingOf context handler) site.item).toList := by
  unfold throwing
  rw [List.filter_singleton]
  cases hthrows : throwsItself context.language site.item with
  | false =>
      rw [thrown?_eq_none hthrows]
      exact .nil
  | true =>
      obtain ⟨statement, htask, hlowered⟩ := @exists_loweredThrow context handler _ hthrows
      rw [thrown?, htask]
      exact .cons ⟨rfl, hlowered⟩ .nil

/-! ## The log of a run -/

/-- The throws inside some containers of which only those with nodes in them are listed. -/
theorem throwsInside_leadingPart
    (binding : Option String) (node : Node) (items : List Placed) :
    throwsInside context (partsInside context binding node (leadingPart items)) =
      throwsOf context binding items := by
  unfold leadingPart
  cases items with
  | nil => simp [partsInside, throwsInside]
  | cons item items => simp [partsInside, throwsInside, Part.demand, Demand.inside?]

theorem throwsInside_bodyPart
    (binding : Option String) (node : Node) (body : Option Node) :
    throwsInside context
        (partsInside context binding node (bodyPart context.language body)) =
      throwsOf context binding (blockItems context.language body) := by
  cases body with
  | none => simp [partsInside, throwsInside, bodyPart, blockItems]
  | some block =>
      simp [partsInside, throwsInside, bodyPart, blockItems, Part.demand, Demand.inside?]

/-- The throws of the sites of a stage. -/
def stageThrows (context : Context) (handler : Option Site) (stage : Stage) : List Thrown :=
  throwsOf context (bindingOf context (stage.clause.or handler)) (stage.sites.map Site.item)

/-- The throws in the block of an `else` or `finally` clause. -/
theorem throwsInside_blockDemand
    {handler : Option Site} {clause : Site} (hrole : clause.role ≠ .handler)
    (fill : List Statement → TryConstruct → TryConstruct) :
    throwsInside context
        (blockDemand context (bindingOf context handler) clause.node fill).inside?.toList =
      stageThrows context handler (clauseStage context.language clause) := by
  have hclause : (clauseStage context.language clause).clause = none := if_neg hrole
  rw [stageThrows, hclause, map_item_clauseStage_of_ne_handler hrole, Option.none_or]
  unfold blockDemand throwsInside
  cases clauseBlock? context.language clause.node with
  | none => simp [Demand.inside?, blockItems]
  | some block => simp [Demand.inside?, blockItems]

/-- The throws in the body of a handler, under the name that the handler binds. -/
theorem throwsInside_handler
    {handler : Option Site} {node : Node} {clause : Site} (hrole : clause.role = .handler) :
    throwsInside context
        ((Part.handler clause.node).demand context (bindingOf context handler)
          node).inside?.toList =
      stageThrows context handler (clauseStage context.language clause) := by
  have hclause : (clauseStage context.language clause).clause = some clause := if_pos hrole
  rw [stageThrows, hclause, map_item_clauseStage_of_handler hrole, Option.some_or, Part.demand]
  unfold throwsInside
  cases presentBody? (context.language.handlerParts context.source clause.node) with
  | none => simp [Demand.inside?, blockItems]
  | some body => simp [Demand.inside?, blockItems, blankClause, bindingOf]

/-- The throws in the clauses of a try node, in source order. -/
theorem throwsInside_clauses
    (handler : Option Site) (node : Node) (sites : List Site) :
    throwsInside context
        (partsInside context (bindingOf context handler) node
          ((sites.map Site.item).filterMap clausePart?)) =
      ((sites.filter fun clause => (clausePart? clause.item).isSome).map
        (clauseStage context.language)).flatMap (stageThrows context handler) := by
  have hpart :
      ∀ clause part, clausePart? clause.item = some part →
        throwsInside context
            (part.demand context (bindingOf context handler) node).inside?.toList =
          stageThrows context handler (clauseStage context.language clause) := by
    intro clause part h
    unfold clausePart? at h
    split at h
    · next hrole =>
        cases h
        exact throwsInside_handler hrole
    · next hrole =>
        cases h
        apply throwsInside_blockDemand
        exact fun h => (by cases hrole.symm.trans h)
    · next hrole =>
        cases h
        apply throwsInside_blockDemand
        exact fun h => (by cases hrole.symm.trans h)
    · cases h
  unfold throwsInside at hpart
  unfold throwsInside partsInside
  induction sites with
  | nil => rfl
  | cons clause sites ih =>
      rw [List.map_cons, List.filterMap_cons, List.filter_cons]
      cases hclause : clausePart? clause.item with
      | none => exact ih
      | some part =>
          simp only [Option.isSome_some, if_true, List.map_cons, List.flatMap_cons]
          rw [← ih, ← hpart clause part hclause, ← List.flatMap_append]
          congr 1
          rw [List.filterMap_cons]
          cases (part.demand context (bindingOf context handler) node).inside? with
          | none => rfl
          | some inside => rfl

/-- The throws inside a try node are those of its stages, the clauses taken in source order. -/
theorem throwsInside_tryParts
    (handler : Option Site) (site : Site) :
    throwsInside context
        (partsInside context (bindingOf context handler) site.node
          (tryParts context.language site.node)) =
      stageThrows context handler
          { clause := none, sites := site.leading context.language } ++
        (stageThrows context handler
            { clause := none
              sites := site.within context.language (bodyIndex? context.language site.node) } ++
          ((site.clausesInOrder context.language).map
            (clauseStage context.language)).flatMap (stageThrows context handler)) := by
  have hclauses :=
    @throwsInside_clauses context handler site.node (site.below context.language)
  rw [Site.below, map_item_sitesBelow] at hclauses
  rw [tryParts, partsInside_append, partsInside_append, throwsInside_append,
    throwsInside_append, throwsInside_leadingPart, throwsInside_bodyPart, hclauses,
    stageThrows, map_item_leading, stageThrows, map_item_within, List.append_assoc]
  rfl

/-- The throws inside a node are those of its stages. -/
theorem throwsInside_itemInside
    (handler : Option Site) (site : Site) :
    throwsInside context (itemInside context (bindingOf context handler) site.item) =
      ((sourceItinerary context.language).onward site).flatMap
        (stageThrows context handler) := by
  by_cases hrole : site.item.role = .attempt
  · rw [sourceItinerary, Itinerary.onward_of_attempt hrole, List.flatMap_cons,
      List.flatMap_cons, ← throwsInside_tryParts, itemInside, if_pos hrole]
    rfl
  · rw [sourceItinerary, Itinerary.onward_of_ne_attempt hrole, List.flatMap_singleton,
      stageThrows, map_item_openedSites, itemInside, if_neg hrole]
    exact List.flatMap_singleton ..

/-- The throws that are lowered from some sites are the throwing nodes that the search
visits, in source order, each lowered under the innermost handler around it. -/
theorem forall₂_throwsOf
    (handler : Option Site) (sites : List Site) :
    List.Forall₂ (Thrower context)
      (throwing context ((sourceItinerary context.language).visits handler sites))
      (throwsOf context (bindingOf context handler) (sites.map Site.item)) := by
  induction sites using sites_induction context.language generalizing handler with
  | nil =>
      rw [Itinerary.visits_nil, List.map_nil, throwsOf_nil]
      exact .nil
  | cons site sites ihStages ihRest =>
      rw [Itinerary.visits_cons, throwing_cons, throwing_append, throwing_flatMap,
        List.map_cons, throwsOf_cons, itemThrows, throwsInside_itemInside, List.append_assoc]
      refine List.rel_append forall₂_throwing_singleton
        (List.rel_append (forall₂_flatMap ?_) (ihRest handler))
      intro stage hstage
      exact ihStages stage (Itinerary.mem_stages _ hstage) _

end HandlerLint.Search
