import HandlerLint.Proofs.Check.Contribution
import HandlerLint.Proofs.Language.Comments
import HandlerLint.Proofs.Lowering.Limit

/-!
# Empty statements

An expression statement of C++ may be a lone semicolon.  Where the nesting limit leaves room,
such a statement is the only thing that keeps a C++ file from having a model: lowering stops
at the first one that it visits, and the whole file counts as a failure.  Without one the
file is checked, and all its hiding handlers are reported.

The containers that lowering opens at a node hold the nodes of the stages in which the search
goes on from there.  Therefore the expression statements without an expression on the trail
of lowering are those that the search visits.
-/

namespace HandlerLint.Search

open Source
open Lowering

variable {context : Context}

/-! ## Containers and stages -/

/-- The nodes in the container of a part of a try node, if it has one. -/
def partItems (context : Context) (node : Node) (part : Part) : List Placed :=
  ((part.opening? context node).map Opening.items).getD []

theorem exists_opening_of_parts_iff
    {node : Node} {parts : List Part} {items : List Placed} (hitems : items ≠ []) :
    (∃ opening ∈ parts.filterMap (Part.opening? context node), opening.items = items) ↔
      ∃ part ∈ parts, partItems context node part = items := by
  constructor
  · rintro ⟨opening, hopening, rfl⟩
    obtain ⟨part, hpart, hsome⟩ := List.mem_filterMap.mp hopening
    refine ⟨part, hpart, ?_⟩
    rw [partItems, hsome]
    rfl
  · rintro ⟨part, hpart, hpartItems⟩
    rw [partItems] at hpartItems
    cases hopening : part.opening? context node with
    | none =>
        rw [hopening] at hpartItems
        exact absurd hpartItems.symm hitems
    | some opening =>
        rw [hopening] at hpartItems
        exact ⟨opening, List.mem_filterMap.mpr ⟨part, hpart, hopening⟩, hpartItems⟩

/-- The container of a clause holds the nodes of its stage. -/
theorem partItems_of_clausePart?
    {node : Node} {clause : Site} {part : Part} (h : clausePart? clause.item = some part) :
    partItems context node part =
      (clauseStage context.language clause).sites.map Site.item := by
  have hblock :
      clause.role ≠ .handler →
        ((((clauseBlock? context.language clause.node).map fun block =>
          Opening.mk clause.node false (context.language.significant block)).map
            Opening.items).getD []) =
          (clauseStage context.language clause).sites.map Site.item := by
    intro hrole
    rw [map_item_clauseStage_of_ne_handler hrole, Option.map_map]
    rfl
  unfold clausePart? at h
  split at h
  · next hrole =>
      cases h
      rw [map_item_clauseStage_of_handler hrole, partItems, Part.opening?, Option.map_map]
      rfl
  · next hrole =>
      cases h
      exact hblock (by simp [Site.role, hrole])
  · next hrole =>
      cases h
      exact hblock (by simp [Site.role, hrole])
  · cases h

/-- The parts of a try node, one kind after another. -/
theorem mem_tryParts_iff
    {language : Language} {site : Site} {part : Part} :
    part ∈ tryParts language site.node ↔
      (leading language site.node ≠ [] ∧ part = .statements (leading language site.node)) ∨
        (∃ body, bodyOf? language site.node = some body ∧
          part = .statements (language.significant body)) ∨
        ∃ clause ∈ site.clauses language, clausePart? clause.item = some part := by
  have hleading :
      part ∈ leadingPart (leading language site.node) ↔
        leading language site.node ≠ [] ∧ part = .statements (leading language site.node) := by
    unfold leadingPart
    split <;> simp_all
  have hbody :
      part ∈ bodyPart language (bodyOf? language site.node) ↔
        ∃ body, bodyOf? language site.node = some body ∧
          part = .statements (language.significant body) := by
    cases bodyOf? language site.node <;> simp [bodyPart]
  have hclauses :
      part ∈ (language.significant site.node).filterMap clausePart? ↔
        ∃ clause ∈ site.clauses language, clausePart? clause.item = some part := by
    rw [← map_item_sitesBelow language site.address, List.filterMap_map, List.mem_filterMap]
    constructor
    · rintro ⟨clause, hbelow, hpart⟩
      exact ⟨clause, mem_clauses_iff.mpr ⟨hbelow, Option.isSome_of_eq_some hpart⟩, hpart⟩
    · rintro ⟨clause, hclause, hpart⟩
      exact ⟨clause, (mem_clauses_iff.mp hclause).1, hpart⟩
  rw [tryParts, List.mem_append, List.mem_append, hleading, hbody, hclauses, or_assoc]

theorem exists_opening_of_attempt_iff
    {site : Site} {items : List Placed} (hrole : site.role = .attempt) (hitems : items ≠ []) :
    (∃ opening ∈ openings context site.item, opening.items = items) ↔
      ∃ stage ∈ tryStages context.language site, stage.sites.map Site.item = items := by
  have hopenings :
      openings context site.item =
        (tryParts context.language site.node).filterMap
          (Part.opening? context site.node) := by
    unfold openings
    rw [show site.item.role = .attempt from hrole]
    rfl
  have hleading :
      (site.leading context.language).map Site.item = leading context.language site.node :=
    map_item_leading ..
  have hbody :
      (site.within context.language (bodyIndex? context.language site.node)).map Site.item =
        blockItems context.language (bodyOf? context.language site.node) :=
    map_item_within ..
  rw [hopenings, exists_opening_of_parts_iff hitems]
  simp only [mem_tryParts_iff, mem_tryStages_iff]
  constructor
  · rintro ⟨part, ⟨_, rfl⟩ | ⟨body, hsome, rfl⟩ | ⟨clause, hclause, hpart⟩, rfl⟩
    · exact ⟨_, .inl rfl, hleading⟩
    · rw [hsome] at hbody
      exact ⟨_, .inr (.inl rfl), hbody⟩
    · exact ⟨_, .inr (.inr ⟨clause, hclause, rfl⟩), (partItems_of_clausePart? hpart).symm⟩
  · rintro ⟨stage, rfl | rfl | ⟨clause, hclause, rfl⟩, rfl⟩
    · rw [hleading] at hitems ⊢
      exact ⟨_, .inl ⟨hitems, rfl⟩, rfl⟩
    · rw [hbody] at hitems ⊢
      cases hsome : bodyOf? context.language site.node with
      | none =>
          rw [hsome] at hitems
          exact absurd rfl hitems
      | some body => exact ⟨_, .inr (.inl ⟨body, rfl, rfl⟩), rfl⟩
    · obtain ⟨part, hpart⟩ := Option.isSome_iff_exists.mp (mem_clauses_iff.mp hclause).2
      exact ⟨part, .inr (.inr ⟨clause, hclause, hpart⟩), partItems_of_clausePart? hpart⟩

theorem exists_opening_of_ne_attempt_iff
    {item : Placed} {items : List Placed} (hrole : item.role ≠ .attempt)
    (hitems : items ≠ []) :
    (∃ opening ∈ openings context item, opening.items = items) ↔
      openedItems context.language item = items := by
  unfold openings openedItems
  cases hcase : item.role with
  | attempt => exact absurd hcase hrole
  | throw => simp [hitems.symm]
  | expressionStatement =>
      cases context.language.significant item.node with
      | nil => simp [hitems.symm]
      | cons expression rest =>
          by_cases hthrow : (expression.role == .throw) = true
          · simp [hthrow, hitems.symm]
          · simp [hthrow]
  | _ => simp

/-- The containers that a node opens hold the nodes of its stages, those without nodes
apart. -/
theorem exists_opening_iff
    {site : Site} {items : List Placed} (hitems : items ≠ []) :
    (∃ opening ∈ openings context site.item, opening.items = items) ↔
      ∃ stage ∈ stages context.language site, stage.sites.map Site.item = items := by
  unfold stages
  by_cases hrole : (site.role == .attempt) = true
  · rw [if_pos hrole]
    exact exists_opening_of_attempt_iff (beq_iff_eq.mp hrole) hitems
  · rw [if_neg hrole, exists_opening_of_ne_attempt_iff (mt beq_iff_eq.mpr hrole) hitems,
      ← map_item_openedSites]
    simp

/-! ## Expression statements without an expression -/

theorem visited_cons_iff
    {language : Language} {first site : Site} {rest : List Site} :
    Visited language (first :: rest) site ↔
      site = first ∨ (∃ stage ∈ stages language first, Visited language stage.sites site) ∨
        Visited language rest site := by
  simp only [← mem_tour_iff_visited, mem_tour_cons_iff, mem_stageStops_iff, Stop.node.injEq,
    reduceCtorEq, and_false, exists_false, false_or]

/-- Some visited site holds a given node, which is an expression statement without an
expression. -/
def VisitsLacking (language : Language) (sites : List Site) (node : Node) : Prop :=
  ∃ site, Visited language sites site ∧ lacksExpression language site.item = true ∧
    site.node = node

theorem not_visitsLacking_nil
    {language : Language} {node : Node} :
    ¬VisitsLacking language [] node := by
  rintro ⟨site, hvisited, _⟩
  rw [← mem_tour_iff_visited, tour_nil] at hvisited
  cases hvisited

theorem visitsLacking_cons_iff
    {language : Language} {first : Site} {rest : List Site} {node : Node} :
    VisitsLacking language (first :: rest) node ↔
      (lacksExpression language first.item = true ∧ first.node = node) ∨
        (∃ stage ∈ stages language first, VisitsLacking language stage.sites node) ∨
        VisitsLacking language rest node := by
  unfold VisitsLacking
  simp only [visited_cons_iff]
  grind

/-- Nothing is visited from an expression statement without an expression. -/
theorem sites_eq_nil_of_lacksExpression
    {language : Language} {site : Site} {stage : Stage}
    (h : lacksExpression language site.item = true) (hstage : stage ∈ stages language site) :
    stage.sites = [] := by
  unfold lacksExpression at h
  rw [Bool.and_eq_true, beq_iff_eq, List.isEmpty_iff] at h
  have hopened : openedItems language site.item = [] := by
    unfold openedItems
    simp only [h]
  rw [← map_item_openedSites, List.map_eq_nil_iff] at hopened
  unfold stages at hstage
  rw [Site.role, h.1, if_neg (by decide), List.mem_singleton, hopened] at hstage
  rw [hstage]

/-- The trail of some sites holds the visited expression statements without an
expression. -/
def LacksOnTrail (context : Context) (sites : List Site) : Prop :=
  ∀ flatten depth node,
    .noExpression node ∈ trail context flatten depth (sites.map Site.item) ↔
      VisitsLacking context.language sites node

theorem mem_trailAt_iff
    {depth : Nat} {site : Site} {node : Node}
    (hstages : ∀ stage ∈ stages context.language site, LacksOnTrail context stage.sites) :
    .noExpression node ∈ trailAt context depth site.item ↔
      (lacksExpression context.language site.item = true ∧ site.node = node) ∨
        ∃ stage ∈ stages context.language site,
          VisitsLacking context.language stage.sites node := by
  unfold trailAt
  by_cases hlacks : lacksExpression context.language site.item = true
  · rw [if_pos hlacks, List.mem_singleton, Event.noExpression.injEq]
    constructor
    · intro hnode
      exact .inl ⟨hlacks, hnode.symm⟩
    · rintro (⟨_, hnode⟩ | ⟨stage, hstage, hvisits⟩)
      · exact hnode.symm
      · rw [sites_eq_nil_of_lacksExpression hlacks hstage] at hvisits
        exact absurd hvisits not_visitsLacking_nil
  · rw [if_neg hlacks, List.mem_flatMap]
    constructor
    · rintro ⟨opening, hopening, hnode⟩
      have hinside :
          .noExpression node ∈ trail context opening.flatten (depth + 1) opening.items := by
        simpa [Opening.trail] using hnode
      have hitems : opening.items ≠ [] := by
        intro hnil
        rw [hnil, trail_nil] at hinside
        cases hinside
      obtain ⟨stage, hstage, hsites⟩ := (exists_opening_iff hitems).mp ⟨opening, hopening, rfl⟩
      rw [← hsites] at hinside
      exact .inr ⟨stage, hstage, (hstages stage hstage _ _ _).mp hinside⟩
    · rintro (⟨hother, _⟩ | ⟨stage, hstage, hvisits⟩)
      · exact absurd hother hlacks
      · have hitems : stage.sites.map Site.item ≠ [] := by
          intro hnil
          rw [List.map_eq_nil_iff.mp hnil] at hvisits
          exact not_visitsLacking_nil hvisits
        obtain ⟨opening, hopening, hsites⟩ :=
          (exists_opening_iff hitems).mpr ⟨stage, hstage, rfl⟩
        have hinside := (hstages stage hstage opening.flatten (depth + 1) node).mpr hvisits
        rw [← hsites] at hinside
        exact ⟨opening, hopening, List.mem_cons_of_mem _ hinside⟩

/-- The search and lowering meet the same expression statements without an expression. -/
theorem lacksOnTrail
    (context : Context) (sites : List Site) :
    LacksOnTrail context sites := by
  induction sites using sites_induction context.language with
  | nil =>
      intro flatten depth node
      rw [List.map_nil, trail_nil]
      exact iff_of_false List.not_mem_nil not_visitsLacking_nil
  | cons site rest ihStages ihRest =>
      intro flatten depth node
      rw [List.map_cons, visitsLacking_cons_iff]
      by_cases hthrough : (flatten && site.item.role == .other) = true
      · have hrole : site.item.role = .other :=
          beq_iff_eq.mp (Bool.and_eq_true_iff.mp hthrough).2
        have hstage :
            stages context.language site =
              [{ clause := none, sites := site.below context.language }] := by
          simp [stages, openedSites, Site.role, hrole]
        have hlacks : ¬lacksExpression context.language site.item = true := by
          simp [lacksExpression, hrole]
        have hbelow := ihStages _ (hstage ▸ List.mem_singleton_self _) flatten depth node
        have hitems :
            (site.below context.language).map Site.item =
              context.language.significant site.item.node :=
          map_item_sitesBelow ..
        rw [trail_cons_of_through hthrough, List.mem_append, ← hitems, hbelow,
          ihRest flatten depth node]
        simp [hlacks, hstage]
      · rw [trail_cons_of_kept hthrough, List.mem_append, mem_trailAt_iff ihStages,
          ihRest flatten depth node, or_assoc]

/-! ## Room for every container -/

/-- The depth of the node that opens a container. -/
def openingDepth? : Event → Option Nat
  | .opens depth _ => some depth
  | .noExpression _ => none

/-- Every node that opens a container has a depth below the limit. -/
def StaysBelowLimit (context : Context) (root : Node) : Prop :=
  ∀ event ∈ trail context false 1 (context.language.significant root),
    ∀ depth ∈ openingDepth? event, depth < maxNesting

instance (context : Context) (root : Node) : Decidable (StaysBelowLimit context root) :=
  inferInstanceAs (Decidable (∀ event ∈ _, ∀ depth ∈ openingDepth? event, _))

/-- Where there is room for every container, an obstacle is an expression statement without
an expression. -/
theorem obstacle?_eq_some_iff
    {event : Event} {error : LowerError}
    (hroom : ∀ depth ∈ openingDepth? event, depth < maxNesting) :
    event.obstacle? = some error ↔
      ∃ node, event = .noExpression node ∧ error = .noExpression node.line node.kind := by
  cases event with
  | opens depth at_ =>
      have hne : depth ≠ maxNesting := Nat.ne_of_lt (hroom depth rfl)
      rw [Event.obstacle?, if_neg hne]
      simp
  | noExpression node => simp [Event.obstacle?, eq_comm]

theorem failure?_lower
    (language : Language) (path : String) (source : List UInt8) (tree : Tree) :
    failure? (lower language path source tree) =
      firstObstacle (trail { language, source } false 1 (language.significant tree.root)) := by
  have hfails :=
    failsOnTrail { language, source } (language.significant tree.root) false 1 none (by decide)
  rw [← hfails]
  apply Option.ext
  intro error
  rw [failure?_eq_some_iff, failure?_eq_some_iff, lower_eq_error_iff]
  rfl

/-- Where there is room for every container, lowering stops only at a visited expression
statement without an expression. -/
theorem visitsLacking_of_lower_eq_error
    {language : Language} {path : String} {source : List UInt8} {tree : Tree}
    {error : LowerError} (hroom : StaysBelowLimit { language, source } tree.root)
    (h : lower language path source tree = .error error) :
    ∃ node, VisitsLacking language (rootSites language tree.root) node ∧
      error = .noExpression node.line node.kind := by
  rw [← failure?_eq_some_iff, failure?_lower, firstObstacle] at h
  obtain ⟨event, hevent, hobstacle⟩ := List.exists_of_findSome?_eq_some h
  obtain ⟨node, rfl, herror⟩ := (obstacle?_eq_some_iff (hroom event hevent)).mp hobstacle
  rw [← map_item_sitesBelow language []] at hevent
  exact ⟨node, (lacksOnTrail { language, source } _ _ _ _).mp hevent, herror⟩

/-- Lowering stops if an expression statement without an expression is visited. -/
theorem exists_lower_eq_error
    {language : Language} {path : String} {source : List UInt8} {tree : Tree} {node : Node}
    (h : VisitsLacking language (rootSites language tree.root) node) :
    ∃ error, lower language path source tree = .error error := by
  have hmem := (lacksOnTrail { language, source } _ false 1 node).mpr h
  rw [rootSites, map_item_sitesBelow] at hmem
  have hsome : (failure? (lower language path source tree)).isSome = true := by
    rw [failure?_lower, firstObstacle, List.findSome?_isSome_iff]
    exact ⟨_, hmem, rfl⟩
  obtain ⟨error, herror⟩ := Option.isSome_iff_exists.mp hsome
  exact ⟨error, failure?_eq_some_iff.mp herror⟩

/-! ## Statements of C++ -/

/-- The children of a C++ node that are not comments. -/
def plainChildren (node : Node) : List Node :=
  node.children.filter (·.kind != "comment")

/-- Whether a node is a semicolon. -/
def isSemicolon (node : Node) : Bool :=
  ! node.isNamed && node.kind == ";"

/-- Whether a statement is a lone semicolon, comments apart. -/
def isEmptyStatement (node : Node) : Bool :=
  match plainChildren node with
  | [semicolon] => isSemicolon semicolon
  | _ => false

/-- Whether a statement is an expression and a semicolon, comments apart. -/
def hasExpression (node : Node) : Bool :=
  match plainChildren node with
  | [expression, semicolon] => expression.isNamed && isSemicolon semicolon
  | _ => false

theorem isEmptyStatement_iff
    {node : Node} :
    isEmptyStatement node = true ↔
      ∃ semicolon, plainChildren node = [semicolon] ∧ isSemicolon semicolon = true := by
  unfold isEmptyStatement
  split <;> simp_all

theorem hasExpression_iff
    {node : Node} :
    hasExpression node = true ↔
      ∃ expression semicolon, plainChildren node = [expression, semicolon] ∧
        expression.isNamed = true ∧ isSemicolon semicolon = true := by
  unfold hasExpression
  split <;> simp_all

theorem cppRole_eq_comment_iff
    {kind : String} :
    Language.cppRole kind = .comment ↔ kind = "comment" := by
  unfold Language.cppRole
  split <;> simp_all

theorem map_node_significant_cpp
    (node : Node) :
    (Language.cpp.significant node).map Placed.node =
      (plainChildren node).filter Node.isNamed := by
  rw [Language.map_node_significant, Node.namedChildren, plainChildren, List.filter_filter,
    List.filter_filter]
  apply List.filter_congr
  intro child _
  rw [Bool.and_comm]
  congr 1
  unfold Language.keeps Language.role
  rw [Bool.eq_iff_iff, bne_iff_ne, bne_iff_ne, Ne, cppRole_eq_comment_iff]

/-- Of the two shapes of an expression statement, the empty one lacks an expression. -/
theorem lacksExpression_iff
    {item : Placed} (hrole : item.role = .expressionStatement)
    (hshape : hasExpression item.node = true ∨ isEmptyStatement item.node = true) :
    lacksExpression .cpp item = true ↔ isEmptyStatement item.node = true := by
  have hlacks :
      lacksExpression .cpp item = true ↔
        (plainChildren item.node).filter Node.isNamed = [] := by
    unfold lacksExpression
    rw [hrole, ← map_node_significant_cpp, List.map_eq_nil_iff]
    simp
  have hunnamed : ∀ {semicolon : Node}, isSemicolon semicolon = true →
      semicolon.isNamed = false := by
    intro semicolon hsemicolon
    simpa using (Bool.and_eq_true_iff.mp hsemicolon).1
  rw [hlacks]
  rcases hshape with hexpression | hempty
  · obtain ⟨expression, semicolon, hchildren, hnamed, _⟩ := hasExpression_iff.mp hexpression
    simp [isEmptyStatement, hchildren, hnamed]
  · obtain ⟨semicolon, hchildren, hsemicolon⟩ := isEmptyStatement_iff.mp hempty
    simp [hempty, hchildren, hunnamed hsemicolon]

/-- The visited expression statements of a C++ tree have one of the two shapes. -/
def ShapedStatements (root : Node) : Prop :=
  ∀ site, Visited .cpp (rootSites .cpp root) site → site.role = .expressionStatement →
    hasExpression site.node = true ∨ isEmptyStatement site.node = true

instance (root : Node) : Decidable (ShapedStatements root) :=
  decidable_of_iff _ (forall_visited_iff fun site => site.role = .expressionStatement →
    hasExpression site.node = true ∨ isEmptyStatement site.node = true)

/-- A visited expression statement of a C++ tree is empty. -/
def EmptyAt (root : Node) (site : Site) : Prop :=
  Visited .cpp (rootSites .cpp root) site ∧ site.role = .expressionStatement ∧
    isEmptyStatement site.node = true

theorem visitsLacking_cpp_iff
    {root node : Node} (hshapes : ShapedStatements root) :
    VisitsLacking .cpp (rootSites .cpp root) node ↔
      ∃ site, EmptyAt root site ∧ site.node = node := by
  constructor
  · rintro ⟨site, hvisited, hlacks, hnode⟩
    have hrole : site.role = .expressionStatement :=
      beq_iff_eq.mp (Bool.and_eq_true_iff.mp hlacks).1
    have hempty := (lacksExpression_iff hrole (hshapes site hvisited hrole)).mp hlacks
    exact ⟨site, ⟨hvisited, hrole, hempty⟩, hnode⟩
  · rintro ⟨site, ⟨hvisited, hrole, hempty⟩, hnode⟩
    exact ⟨site, hvisited, (lacksExpression_iff hrole (.inr hempty)).mpr hempty, hnode⟩

/-- The spans of the reports are those of the hiding handlers. -/
theorem spans_run_eq
    {language : Language} {path : String} {source : List UInt8} {tree : Tree}
    {model : SyntaxTree} (htidy : TidyTries language (rootSites language tree.root))
    (h : lower language path source tree = .ok model) (rule : Rule) :
    (rule.run model).map (·.location.span) =
      (hidingSites { language, source } tree.root).map (·.node.span) := by
  obtain ⟨_, hfollows⟩ := follows_of_lower_eq_ok htidy h
  rw [Rule.run, List.map_map, SyntaxTree.hidingHandlers, model.classifyAll_eq_findingsIn]
  exact hfollows.findings

/-- Lowering a C++ file stops if a visited statement is empty. -/
theorem exists_lower_eq_error_of_emptyAt
    {path : String} {source : List UInt8} {tree : Tree} {site : Site}
    (hshapes : ShapedStatements tree.root) (hempty : EmptyAt tree.root site) :
    ∃ error, lower .cpp path source tree = .error error :=
  exists_lower_eq_error ((visitsLacking_cpp_iff hshapes).mpr ⟨site, hempty, rfl⟩)

/-- Where there is room for every container, lowering a C++ file stops only at an empty
statement. -/
theorem exists_emptyAt_of_lower_eq_error
    {path : String} {source : List UInt8} {tree : Tree} {error : LowerError}
    (hshapes : ShapedStatements tree.root)
    (hroom : StaysBelowLimit { language := .cpp, source } tree.root)
    (h : lower .cpp path source tree = .error error) :
    ∃ site, EmptyAt tree.root site ∧
      error = .noExpression site.node.line site.node.kind := by
  obtain ⟨node, hlacks, rfl⟩ := visitsLacking_of_lower_eq_error hroom h
  obtain ⟨site, hempty, rfl⟩ := (visitsLacking_cpp_iff hshapes).mp hlacks
  exact ⟨site, hempty, rfl⟩

/-- A C++ file with shaped statements and room for every container has a model if and only if
no visited statement is empty.  If one is, lowering stops at an empty statement, and the check
of the file is a failure there.  Otherwise the file is checked, and what is diagnosed are its
hiding handlers, each at its span. -/
theorem cpp_file_has_model_iff
    {path : String} {source : List UInt8} {tree : Tree}
    (hshapes : ShapedStatements tree.root)
    (hroom : StaysBelowLimit { language := .cpp, source } tree.root) :
    ((∃ model, lower .cpp path source tree = .ok model) ↔ ∀ site, ¬EmptyAt tree.root site) ∧
      (∀ error, lower .cpp path source tree = .error error →
        ∃ site, EmptyAt tree.root site ∧
          error = .noExpression site.node.line site.node.kind) ∧
      ∀ setup : Check.Setup, setup.language? path = some .cpp →
        setup.workspace.read path = .ok source → setup.parser .cpp source = tree →
          ((∃ site, EmptyAt tree.root site) →
            ∃ site, EmptyAt tree.root site ∧
              setup.checkFile path =
                Check.failure path
                  ((LowerError.noExpression site.node.line site.node.kind).message path)) ∧
          ((∀ site, ¬EmptyAt tree.root site) → TidyTries .cpp (rootSites .cpp tree.root) →
            ∃ diagnostics,
              setup.checkFile path = Check.diagnosed path source diagnostics ∧
                diagnostics.map (·.location.span) =
                  (hidingSites { language := .cpp, source } tree.root).map
                    (·.node.span)) := by
  have hstops :
      ∀ error, lower .cpp path source tree = .error error →
        ∃ site, EmptyAt tree.root site ∧
          error = .noExpression site.node.line site.node.kind :=
    fun error => exists_emptyAt_of_lower_eq_error hshapes hroom
  have hlowers :
      (∃ model, lower .cpp path source tree = .ok model) ↔
        ∀ site, ¬EmptyAt tree.root site := by
    constructor
    · rintro ⟨model, hmodel⟩ site hempty
      obtain ⟨error, herror⟩ := exists_lower_eq_error_of_emptyAt hshapes hempty
      rw [hmodel] at herror
      cases herror
    · intro hnone
      cases hlower : lower .cpp path source tree with
      | ok model => exact ⟨model, rfl⟩
      | error error =>
          obtain ⟨site, hempty, _⟩ := hstops error hlower
          exact absurd hempty (hnone site)
  refine ⟨hlowers, hstops, ?_⟩
  rintro setup hlanguage hread rfl
  constructor
  · rintro ⟨site, hempty⟩
    obtain ⟨error, herror⟩ := exists_lower_eq_error_of_emptyAt hshapes hempty
    obtain ⟨first, hfirst, rfl⟩ := hstops error herror
    exact ⟨first, hfirst,
      Check.Setup.checkFile_of_fails (.unlowerable hlanguage hread herror)⟩
  · intro hnone htidy
    obtain ⟨model, hmodel⟩ := hlowers.mpr hnone
    exact ⟨setup.rule.run model,
      Check.Setup.checkFile_of_lowers ⟨.cpp, hlanguage, hread, hmodel⟩,
      spans_run_eq htidy hmodel setup.rule⟩

/-- A source with an empty statement ahead of a hiding handler. -/
def idleSource : List UInt8 :=
  Text.encode "void f() \x7b while (x) ; try \x7b\x7d catch (...) \x7b\x7d \x7d"

/-- The parse tree of a source with an empty statement ahead of a hiding handler. -/
def idleTree : Tree :=
  { root :=
      lineNode "translation_unit" none 0 46
        [lineNode "function_definition" none 0 46
          [lineNode "primitive_type" (some "type") 0 4 [],
            lineNode "function_declarator" (some "declarator") 5 8
              [lineNode "identifier" (some "declarator") 5 6 [],
                lineNode "parameter_list" (some "parameters") 6 8 []],
            lineNode "compound_statement" (some "body") 9 46
              [lineNode "while_statement" none 11 22
                [lineToken "while" 11,
                  lineNode "condition_clause" (some "condition") 17 20
                    [lineNode "identifier" (some "value") 18 19 []],
                  lineNode "expression_statement" (some "body") 21 22 [lineToken ";" 21]],
                lineNode "try_statement" none 23 44
                  [lineToken "try" 23,
                    lineNode "compound_statement" (some "body") 27 29 [],
                    lineNode "catch_clause" none 30 44
                      [lineToken "catch" 30,
                        lineNode "parameter_list" (some "parameters") 36 41
                          [lineToken "..." 37],
                        lineNode "compound_statement" (some "body") 42 44 []]]]]]
    hasError := false }

/-- A file with an empty statement, and nothing else. -/
def idleSetup : Check.Setup :=
  { config := .empty
    workspace :=
      { files := Files.FileSystem.empty.insert ["c.cpp"] (.file idleSource), base := [] }
    parser := fun _ _ => idleTree }

theorem idleSetup_read :
    idleSetup.workspace.read "c.cpp" = .ok idleSource := by
  have hsegments : Files.segments "c.cpp" = ["c.cpp"] := by decide +kernel
  have habsolute : Files.isAbsolute "c.cpp" = false := by decide +kernel
  have hfile : idleSetup.workspace.files.get? ["c.cpp"] = some (.file idleSource) := by
    decide +kernel
  have hbase : idleSetup.workspace.base = [] := rfl
  unfold Files.Workspace.read Files.Workspace.resolve Files.Workspace.target
  rw [if_neg (by decide), hsegments, habsolute, hbase, Files.FileSystem.follow]
  simp [hfile, Files.FileSystem.follow]
  rfl

/-- The body of `while (x) ;` keeps the file from being checked, so that the handler after it
is not reported. -/
theorem idleSetup_fails_at_empty_statement :
    ShapedStatements idleTree.root ∧
      StaysBelowLimit { language := .cpp, source := idleSource } idleTree.root ∧
      (∃ site, EmptyAt idleTree.root site) ∧
      (hidingSites { language := .cpp, source := idleSource } idleTree.root).map
        (·.node.span.startCol) = [31] ∧
      (idleSetup.checkFile "c.cpp").diagnostics = [] ∧
      (idleSetup.checkFile "c.cpp").failures.length = 1 := by
  have hshapes : ShapedStatements idleTree.root := by decide +kernel
  have hroom : StaysBelowLimit { language := .cpp, source := idleSource } idleTree.root := by
    decide +kernel
  have hfails :
      failure? (lower .cpp "c.cpp" idleSource idleTree) =
        some (.noExpression 1 "expression_statement") := by
    decide +kernel
  rw [failure?_eq_some_iff] at hfails
  obtain ⟨_, hstops, hcheck⟩ := cpp_file_has_model_iff hshapes hroom
  obtain ⟨site, hempty, _⟩ := hstops _ hfails
  obtain ⟨_, _, hresult⟩ :=
    (hcheck idleSetup (by decide +kernel) idleSetup_read rfl).1 ⟨site, hempty⟩
  refine ⟨hshapes, hroom, ⟨site, hempty⟩, by decide +kernel, ?_⟩
  rw [hresult]
  exact ⟨rfl, rfl⟩

end HandlerLint.Search
