import HandlerLint.Proofs.Lowering.Depth
import HandlerLint.Proofs.Lowering.Simulation
import HandlerLint.Proofs.Search.Report

/-!
# The nesting limit

Statements nest at most `maxNesting` deep.  A statement of a file has depth one, and a
statement directly inside a statement of some depth is one deeper.

Lowering without a limit is described by its trail: the containers it opens and the
expression statements without an expression that it meets, in the order in which it visits
them, each container with the depth of the node that opens it.  The trail knows no limit and
does not stop at an error.  With the limit, lowering fails exactly at the first obstacle on
the trail: a container at the greatest depth, or an expression statement without an
expression.
-/

namespace HandlerLint.Lowering

open Source

variable {context : Context}

/-! ## Containers -/

/-- A container that a node opens: the node it is reported at, whether unremarkable nodes
in it are searched through, and the nodes in it. -/
structure Opening where
  at_ : Node
  flatten : Bool
  items : List Placed

/-- The container of a part of a try node, if its statements are to be lowered.  Clauses
are reported where they stand, other parts at the try node. -/
def Part.opening? (context : Context) (node : Node) : Part → Option Opening
  | .statements items => some ⟨node, false, items⟩
  | .handler clause =>
      (presentBody? (context.language.handlerParts context.source clause)).map fun body =>
        ⟨clause, false, context.language.significant body⟩
  | .orelse clause | .finalizer clause =>
      (clauseBlock? context.language clause).map fun block =>
        ⟨clause, false, context.language.significant block⟩

/-- The containers that a node opens one after another: those of the parts of a try node,
none for a throw, and one for any other node. -/
def openings (context : Context) (item : Placed) : List Opening :=
  match item.role with
  | .attempt =>
      (tryParts context.language item.node).filterMap (Part.opening? context item.node)
  | .throw => []
  | .expressionStatement =>
      match context.language.significant item.node with
      | [] => []
      | expression :: _ =>
          if expression.role == .throw then []
          else [⟨item.node, true, context.language.significant expression.node⟩]
  | .block => [⟨item.node, false, context.language.significant item.node⟩]
  | .handler | .orelse | .finalizer | .comment | .other =>
      [⟨item.node, true, context.language.significant item.node⟩]

/-- Whether a node is an expression statement without an expression. -/
def lacksExpression (language : Language) (item : Placed) : Bool :=
  item.role == .expressionStatement && (language.significant item.node).isEmpty

/-! ### Weights -/

theorem Part.weightList_opening?_lt
    {node : Node} {part : Part} {opening : Opening}
    (h : part.opening? context node = some opening) :
    Placed.weightList opening.items < part.weight := by
  -- Besides the statements that are given as such, those of a clause are below a child.
  have hclause :
      ∀ {clause child : Node}, child ∈ clause.children →
        Placed.weightList (context.language.significant child) < clause.weight := by
    intro clause child hchild
    have hweight := weightList_significant_child_lt context.language hchild
    omega
  cases part with
  | statements items =>
      cases h
      simp only [Part.weight]
      omega
  | handler clause =>
      obtain ⟨body, hbody, rfl⟩ := Option.map_eq_some_iff.mp h
      exact hclause (presentBody?_mem hbody)
  | orelse clause =>
      obtain ⟨block, hblock, rfl⟩ := Option.map_eq_some_iff.mp h
      exact hclause (clauseBlock?_mem hblock)
  | finalizer clause =>
      obtain ⟨block, hblock, rfl⟩ := Option.map_eq_some_iff.mp h
      exact hclause (clauseBlock?_mem hblock)

theorem weight_le_partsWeight
    {part : Part} {parts : List Part} (h : part ∈ parts) :
    part.weight ≤ partsWeight parts := by
  induction parts with
  | nil => cases h
  | cons first rest ih =>
      rw [partsWeight]
      rcases List.mem_cons.mp h with rfl | hrest
      · omega
      · have := ih hrest
        omega

theorem weightList_lt_of_mem_openings
    {item : Placed} {opening : Opening} (h : opening ∈ openings context item) :
    Placed.weightList opening.items < item.node.weight := by
  have hown := weightList_significant_lt context.language item.node
  unfold openings at h
  split at h
  · obtain ⟨part, hpart, hopening⟩ := List.mem_filterMap.mp h
    have hitems := Part.weightList_opening?_lt hopening
    have hparts := partsWeight_tryParts_lt context.language item.node
    have hle := weight_le_partsWeight hpart
    omega
  · cases h
  · split at h
    · cases h
    · next expression rest hexpression =>
        split at h
        · cases h
        · rw [List.mem_singleton] at h
          have hchild : expression.node ∈ item.node.children :=
            node_mem_of_mem_significant (hexpression ▸ List.mem_cons_self)
          have hweight := weightList_significant_child_lt context.language hchild
          simp only [h]
          omega
  all_goals
    rw [List.mem_singleton] at h
    simp only [h]
    omega

/-! ## The trail -/

/-- What lowering meets on its way. -/
inductive Event where
  /-- A node of some depth opens a container. -/
  | opens (depth : Nat) (at_ : Node)
  /-- An expression statement has no expression. -/
  | noExpression (node : Node)

/-- What lowering without a limit meets among nodes of some depth, in visiting order. -/
def trail (context : Context) (flatten : Bool) (depth : Nat) : List Placed → List Event
  | [] => []
  | item :: items =>
      (if flatten && item.role == .other then
          trail context flatten depth (context.language.significant item.node)
        else if lacksExpression context.language item then [.noExpression item.node]
        else
          (openings context item).attach.flatMap fun opening =>
            .opens depth opening.val.at_ ::
              trail context opening.val.flatten (depth + 1) opening.val.items) ++
        trail context flatten depth items
termination_by items => Placed.weightList items
decreasing_by
  · have := weightList_significant_lt context.language item.node
    rw [Placed.weightList_cons]
    omega
  · have := weightList_lt_of_mem_openings opening.property
    rw [Placed.weightList_cons]
    omega
  · have := Node.weight_pos item.node
    rw [Placed.weightList_cons]
    omega

/-- What lowering without a limit meets in a container that a node of some depth opens. -/
def Opening.trail (context : Context) (depth : Nat) (opening : Opening) : List Event :=
  .opens depth opening.at_ ::
    Lowering.trail context opening.flatten (depth + 1) opening.items

/-- What lowering without a limit meets at a node that is not searched through. -/
def trailAt (context : Context) (depth : Nat) (item : Placed) : List Event :=
  if lacksExpression context.language item then [.noExpression item.node]
  else (openings context item).flatMap (Opening.trail context depth)

theorem trail_nil
    (flatten : Bool) (depth : Nat) :
    trail context flatten depth [] = [] := by
  rw [trail]

theorem trail_cons_of_through
    {flatten : Bool} {depth : Nat} {item : Placed} {items : List Placed}
    (h : (flatten && item.role == .other) = true) :
    trail context flatten depth (item :: items) =
      trail context flatten depth (context.language.significant item.node) ++
        trail context flatten depth items := by
  rw [trail, if_pos h]

theorem trail_cons_of_kept
    {flatten : Bool} {depth : Nat} {item : Placed} {items : List Placed}
    (h : ¬(flatten && item.role == .other) = true) :
    trail context flatten depth (item :: items) =
      trailAt context depth item ++ trail context flatten depth items := by
  have hattach :
      ((openings context item).attach.flatMap fun opening =>
          .opens depth opening.val.at_ ::
            trail context opening.val.flatten (depth + 1) opening.val.items) =
        (openings context item).flatMap (Opening.trail context depth) := by
    rw [← List.attach_map_subtype_val (openings context item), List.flatMap_map,
      List.attach_map_subtype_val]
    rfl
  rw [trail, if_neg h, hattach, trailAt]

/-! ## Failures -/

/-- The error of a computation that fails. -/
def failure? {α : Type} : Except LowerError α → Option LowerError
  | .ok _ => none
  | .error error => some error

theorem failure?_eq_some_iff
    {α : Type} {result : Except LowerError α} {error : LowerError} :
    failure? result = some error ↔ result = .error error := by
  cases result with
  | ok value => simp [failure?]
  | error other => simp [failure?]

/-- A computation in two parts, of which the second part fails alike whatever the first
part gave. -/
theorem failure?_bind
    {α β : Type} {first : Except LowerError α} {rest : α → Except LowerError β}
    {otherwise : Option LowerError}
    (hrest : ∀ value, failure? (rest value) = otherwise) :
    failure? (first >>= rest) = (failure? first).or otherwise := by
  cases first with
  | ok value =>
      rw [ok_bind, hrest]
      rfl
  | error error => rfl

theorem failure?_bind_pure
    {α β : Type} (first : Except LowerError α) (finish : α → β) :
    failure? (first >>= fun value => pure (finish value)) = failure? first := by
  cases first with
  | ok value => rfl
  | error error => rfl

/-- The error at which lowering stops with what it meets, if it stops. -/
def Event.obstacle? : Event → Option LowerError
  | .opens depth at_ => if depth = maxNesting then some (.tooDeep at_.line) else none
  | .noExpression node => some (.noExpression node.line node.kind)

/-- The first error on a trail. -/
def firstObstacle (events : List Event) : Option LowerError :=
  events.findSome? Event.obstacle?

theorem firstObstacle_append
    (left right : List Event) :
    firstObstacle (left ++ right) = (firstObstacle left).or (firstObstacle right) :=
  List.findSome?_append

/-- At any depth that the limit allows, lowering some nodes fails at the first obstacle on
their trail. -/
def FailsOnTrail (context : Context) (items : List Placed) : Prop :=
  ∀ flatten depth binding, depth ≤ maxNesting →
    failure? (lowerItems context flatten depth binding items) =
      firstObstacle (trail context flatten depth items)

/-- A container is refused at the greatest depth, and fails with its nodes elsewhere. -/
theorem failure?_container
    {α : Type} {depth : Nat} {at_ : Node} {flatten : Bool} {items : List Placed}
    (binding : Option String) (finish : List Statement → α)
    (hdepth : depth ≤ maxNesting) (hitems : FailsOnTrail context items) :
    failure? (if maxNesting ≤ depth then .error (.tooDeep at_.line)
      else do
        let done ← lowerItems context flatten (depth + 1) binding items
        return finish done) =
      firstObstacle (Opening.trail context depth ⟨at_, flatten, items⟩) := by
  unfold Opening.trail firstObstacle
  rw [List.findSome?_cons, Event.obstacle?]
  by_cases hlimit : maxNesting ≤ depth
  · have heq : depth = maxNesting := by omega
    rw [if_pos hlimit, if_pos heq]
    rfl
  · have hne : depth ≠ maxNesting := by omega
    rw [if_neg hlimit, if_neg hne, failure?_bind_pure]
    exact hitems flatten (depth + 1) binding (by omega)

/-! ### Try nodes -/

/-- The container of a clause that has a block, and nothing for any other clause. -/
theorem failure?_meet_blockDemand
    {depth : Nat} {clause : Node} {fill : List Statement → TryConstruct → TryConstruct}
    (binding : Option String) (construct : TryConstruct) (hdepth : depth ≤ maxNesting)
    (hblock : ∀ block, clauseBlock? context.language clause = some block →
      FailsOnTrail context (context.language.significant block)) :
    failure? ((blockDemand context binding clause fill).meet context depth construct) =
      firstObstacle
        (((clauseBlock? context.language clause).map fun block =>
          Opening.mk clause false (context.language.significant block)).toList.flatMap
            (Opening.trail context depth)) := by
  unfold blockDemand
  cases hcase : clauseBlock? context.language clause with
  | none => rfl
  | some block =>
      rw [Option.map_some, Option.toList_some, List.flatMap_singleton, Demand.meet]
      exact failure?_container binding _ hdepth (hblock block hcase)

/-- What a part asks for fails in the container that the part opens. -/
theorem failure?_meet_demand
    {depth : Nat} {node : Node} {part : Part} (binding : Option String)
    (construct : TryConstruct) (hdepth : depth ≤ maxNesting)
    (hopening : ∀ opening, part.opening? context node = some opening →
      FailsOnTrail context opening.items) :
    failure? ((part.demand context binding node).meet context depth construct) =
      firstObstacle
        ((part.opening? context node).toList.flatMap (Opening.trail context depth)) := by
  cases part with
  | statements items =>
      rw [Part.demand, Part.opening?, Option.toList_some, List.flatMap_singleton, Demand.meet]
      exact failure?_container binding _ hdepth (hopening _ rfl)
  | handler clause =>
      rw [Part.demand]
      rw [Part.opening?] at hopening ⊢
      cases hbody : presentBody? (context.language.handlerParts context.source clause) with
      | none => rfl
      | some body =>
          rw [hbody] at hopening
          rw [Option.map_some, Option.toList_some, List.flatMap_singleton, Demand.meet]
          exact failure?_container _ _ hdepth (hopening _ rfl)
  | orelse clause =>
      apply failure?_meet_blockDemand binding construct hdepth
      intro block hblock
      exact hopening _ (congrArg (Option.map _) hblock)
  | finalizer clause =>
      apply failure?_meet_blockDemand binding construct hdepth
      intro block hblock
      exact hopening _ (congrArg (Option.map _) hblock)

theorem failure?_lowerParts
    {depth : Nat} {node : Node} {parts : List Part} (binding : Option String)
    (construct : TryConstruct) (hdepth : depth ≤ maxNesting)
    (hopening : ∀ opening ∈ parts.filterMap (Part.opening? context node),
      FailsOnTrail context opening.items) :
    failure? (lowerParts context depth binding node construct parts) =
      firstObstacle
        ((parts.filterMap (Part.opening? context node)).flatMap
          (Opening.trail context depth)) := by
  induction parts generalizing construct with
  | nil =>
      rw [lowerParts_nil]
      rfl
  | cons part parts ih =>
      have hparts :
          (part :: parts).filterMap (Part.opening? context node) =
            (part.opening? context node).toList ++
              parts.filterMap (Part.opening? context node) := by
        rw [List.filterMap_cons]
        cases part.opening? context node with
        | none => rfl
        | some opening => rfl
      rw [hparts] at hopening ⊢
      have hfirst :
          ∀ opening, part.opening? context node = some opening →
            FailsOnTrail context opening.items := by
        intro opening hsome
        apply hopening
        exact List.mem_append_left _ (Option.mem_toList.mpr hsome)
      have hrest := fun next =>
        ih next fun opening hmem => hopening opening (List.mem_append_right _ hmem)
      rw [lowerParts_cons, failure?_bind hrest, failure?_meet_demand binding _ hdepth hfirst,
        List.flatMap_append, firstObstacle_append]

/-! ### Single nodes -/

theorem failure?_perform_container
    {depth : Nat} {node : Node} {flatten : Bool} {items : List Placed}
    (binding : Option String) (wrap : List Statement → Statement)
    (hdepth : depth ≤ maxNesting) (hitems : FailsOnTrail context items) :
    failure? ((Task.container flatten items wrap).perform context depth binding node) =
      firstObstacle ([Opening.mk node flatten items].flatMap (Opening.trail context depth)) := by
  rw [Task.perform, List.flatMap_singleton]
  exact failure?_container binding wrap hdepth hitems

/-- Lowering a node fails at the first obstacle on the trail of the node. -/
theorem failure?_lowerItem
    {depth : Nat} {item : Placed} (binding : Option String) (hdepth : depth ≤ maxNesting)
    (hbelow : ∀ inner, Placed.weightList inner < item.node.weight →
      FailsOnTrail context inner) :
    failure? (lowerItem context depth binding item) =
      firstObstacle (trailAt context depth item) := by
  have hopening : ∀ opening ∈ openings context item, FailsOnTrail context opening.items :=
    fun opening hmem => hbelow _ (weightList_lt_of_mem_openings hmem)
  rw [lowerItem_eq_perform, Task.ofItem]
  unfold trailAt lacksExpression
  unfold openings at hopening ⊢
  cases hrole : item.role with
  | attempt =>
      simp only [hrole] at hopening
      rw [Task.perform, failure?_bind_pure]
      exact failure?_lowerParts binding _ hdepth hopening
  | throw =>
      dsimp only
      split <;> rfl
  | expressionStatement =>
      simp only [hrole] at hopening
      cases hbelow : context.language.significant item.node with
      | nil => rfl
      | cons expression rest =>
          simp only [hbelow] at hopening
          by_cases hthrow : (expression.role == .throw) = true
          · simp only [hthrow, if_true]
            split <;> rfl
          · simp only [if_neg hthrow] at hopening ⊢
            exact failure?_perform_container binding _ hdepth
              (hopening _ (List.mem_singleton_self _))
  | _ =>
      simp only [hrole] at hopening
      exact failure?_perform_container binding _ hdepth
        (hopening _ (List.mem_singleton_self _))

/-- Lowering fails at the first obstacle on its trail. -/
theorem failsOnTrail
    (context : Context) (items : List Placed) :
    FailsOnTrail context items := by
  induction items using items_induction with
  | nil =>
      intro flatten depth binding _
      rw [lowerItems_nil, trail_nil]
      rfl
  | cons item items hbelow ih =>
      intro flatten depth binding hdepth
      have hrest := ih flatten depth binding hdepth
      by_cases hthrough : (flatten && item.role == .other) = true
      · have hweight := weightList_significant_lt context.language item.node
        have hfound := hbelow (context.language.significant item.node) (by omega)
          flatten depth binding hdepth
        rw [lowerItems_cons_of_through hthrough, trail_cons_of_through hthrough,
          firstObstacle_append, failure?_bind, hfound]
        intro found
        rw [failure?_bind_pure, hrest]
      · have hitem := failure?_lowerItem binding hdepth hbelow
        rw [lowerItems_cons_of_kept hthrough, trail_cons_of_kept hthrough,
          firstObstacle_append, failure?_bind, hitem]
        intro statement
        rw [failure?_bind_pure, hrest]

/-! ## The first container without room -/

/-- The first obstacle on a trail is a container if one at the greatest depth comes ahead of
all expression statements without an expression. -/
theorem firstObstacle_eq_tooDeep_iff
    {events : List Event} {line : Nat} :
    firstObstacle events = some (.tooDeep line) ↔
      ∃ before at_ after,
        events = before ++ .opens maxNesting at_ :: after ∧ at_.line = line ∧
          (∀ other, .opens maxNesting other ∉ before) ∧
          ∀ node, .noExpression node ∉ before := by
  unfold firstObstacle
  rw [List.findSome?_eq_some_iff]
  constructor
  · rintro ⟨before, event, after, hevents, hobstacle, hbefore⟩
    cases event with
    | noExpression node => cases hobstacle
    | opens depth at_ =>
        rw [Event.obstacle?] at hobstacle
        split at hobstacle
        · next hdepth =>
            cases hobstacle
            refine ⟨before, at_, after, hdepth ▸ hevents, rfl, ?_, ?_⟩
            · intro other hother
              have hnone := hbefore _ hother
              rw [Event.obstacle?, if_pos rfl] at hnone
              cases hnone
            · intro node hnode
              cases hbefore _ hnode
        · cases hobstacle
  · rintro ⟨before, at_, after, hevents, rfl, hopens, hnoExpression⟩
    refine ⟨before, .opens maxNesting at_, after, hevents, ?_, ?_⟩
    · rw [Event.obstacle?, if_pos rfl]
    · intro event hevent
      cases event with
      | noExpression node => exact absurd hevent (hnoExpression node)
      | opens depth other =>
          have hdepth : depth ≠ maxNesting := by
            rintro rfl
            exact hopens other hevent
          rw [Event.obstacle?, if_neg hdepth]

/-- The nesting limit is exact.  The statements of a model are at most `maxNesting` deep, and
lowering fails for want of room if and only if, ahead of all expression statements without
an expression, a node of depth `maxNesting` opens a container; the error names the line of
the first such container. -/
theorem nesting_limit_is_exact
    (language : Language) (path : String) (source : List UInt8) (tree : Tree) :
    (∀ model, lower language path source tree = .ok model →
        ∀ depth statement, AtDepth model.statements depth statement → depth ≤ maxNesting) ∧
      ∀ line, lower language path source tree = .error (.tooDeep line) ↔
        ∃ before at_ after,
          trail { language, source } false 1 (language.significant tree.root) =
              before ++ .opens maxNesting at_ :: after ∧
            at_.line = line ∧
            (∀ other, .opens maxNesting other ∉ before) ∧
            ∀ node, .noExpression node ∉ before := by
  constructor
  · intro model hmodel depth statement hdepth
    exact (depth_le_of_atDepth (statementsOf_of_lower_eq_ok hmodel) hdepth).1
  · intro line
    have hfails :=
      failsOnTrail { language, source } (language.significant tree.root) false 1 none
        (by decide)
    rw [lower_eq_error_iff, ← failure?_eq_some_iff, ← firstObstacle_eq_tooDeep_iff, ← hfails]
    rfl

/-- The source of some blocks, one inside another. -/
def blocksSource (count : Nat) : List UInt8 :=
  List.replicate count 123 ++ List.replicate count 125

/-- Some blocks, one inside another, from a byte on. -/
def nestedBlocks (start : Nat) : Nat → List Node
  | 0 => []
  | count + 1 =>
      [Search.lineNode "statement_block" none start (start + 2 * (count + 1))
        (nestedBlocks (start + 1) count)]

/-- The parse tree of some blocks, one inside another. -/
def blocksTree (count : Nat) : Tree :=
  { root := Search.lineNode "program" none 0 (2 * count) (nestedBlocks 0 count)
    hasError := false }

/-- As many blocks as the limit are one too many, since the innermost one opens a container
too. -/
theorem blocksTree_limit :
    (lower .javascript "a.js" (blocksSource 1024) (blocksTree 1024) = .error (.tooDeep 1) ∧
      ∃ before at_ after,
        trail { language := .javascript, source := blocksSource 1024 } false 1
            (Language.javascript.significant (blocksTree 1024).root) =
          before ++ .opens maxNesting at_ :: after ∧ at_.line = 1) ∧
      ∃ model, lower .javascript "a.js" (blocksSource 1023) (blocksTree 1023) = .ok model ∧
        ∀ depth statement, AtDepth model.statements depth statement →
          depth ≤ maxNesting := by
  have hfails :
      failure? (lower .javascript "a.js" (blocksSource 1024) (blocksTree 1024)) =
        some (.tooDeep 1) := by
    decide +kernel
  have hok : (lower .javascript "a.js" (blocksSource 1023) (blocksTree 1023)).isOk = true := by
    decide +kernel
  rw [failure?_eq_some_iff] at hfails
  obtain ⟨model, hmodel⟩ := Search.exists_eq_ok_of_isOk hok
  obtain ⟨before, at_, after, htrail, hline, _⟩ :=
    ((nesting_limit_is_exact .javascript "a.js" (blocksSource 1024) (blocksTree 1024)).2 1).mp
      hfails
  exact ⟨⟨hfails, before, at_, after, htrail, hline⟩, model, hmodel,
    (nesting_limit_is_exact .javascript "a.js" (blocksSource 1023) (blocksTree 1023)).1
      model hmodel⟩

end HandlerLint.Lowering
