import Mathlib.Data.List.Forall2
import HandlerLint.Diagnosis.Verdict
import HandlerLint.Proofs.Lowering.Recursion

/-!
# What a successful lowering has lowered

A try construct that has been lowered holds, part by part, the statements of its node:
the leading children and the body, every handler in source order, and the `else` and
`finally` blocks.  Of several `else` clauses the last one counts, and likewise for
`finally`.

Any other node that has been lowered holds the statements of one list of nodes below
it, which may be empty.
-/

namespace HandlerLint.Lowering

open Source

variable {context : Context}

/-! ## Parts by kind -/

/-- The statement nodes of a part. -/
def Part.statements? : Part → Option (List Placed)
  | .statements items => some items
  | _ => none

/-- The node of a handler. -/
def Part.handler? : Part → Option Node
  | .handler node => some node
  | _ => none

/-- The node of an `else` clause. -/
def Part.orelse? : Part → Option Node
  | .orelse node => some node
  | _ => none

/-- The node of a `finally` clause. -/
def Part.finalizer? : Part → Option Node
  | .finalizer node => some node
  | _ => none

/-- The significant children of a block, none if the block is absent. -/
def blockItems (language : Language) (block : Option Node) : List Placed :=
  (block.map language.significant).getD []

/-- The children of a node that play a given role. -/
def childrenAs (language : Language) (role : Role) (node : Node) : List Node :=
  ((language.significant node).filter (·.role == role)).map Placed.node

theorem mem_children_of_mem_childrenAs
    {language : Language} {role : Role} {node child : Node}
    (h : child ∈ childrenAs language role node) :
    child ∈ node.children := by
  obtain ⟨item, hitem, rfl⟩ := List.mem_map.mp h
  exact node_mem_of_mem_significant (List.mem_filter.mp hitem).1

theorem significant_sublist
    (language : Language) (node : Node) :
    (language.significant node).Sublist (node.children.map (language.place node)) :=
  List.filter_sublist.trans (List.filter_sublist.map _)

theorem leading_sublist
    (language : Language) (node : Node) :
    (leading language node).Sublist (node.children.map (language.place node)) := by
  have hbeside : (besideBody language node).Sublist node.children := by
    unfold besideBody
    split
    · exact List.eraseIdx_sublist _ _
    · exact .refl _
  exact List.filter_sublist.trans ((List.filter_sublist.trans hbeside).map _)

/-- A clause lowered from a handler node. -/
structure LoweredClause
    (context : Context) (depth : Nat) (node : Node) (clause : HandlerClause) :
    Prop where
  head :
    { clause with body := none } =
      blankClause node (context.language.handlerParts context.source node)
  body :
    ∀ body, presentBody? (context.language.handlerParts context.source node) =
        some body →
      ∃ statements, clause.body = some statements ∧
        lowerItems context false (depth + 1) clause.binding
          (context.language.significant body) = .ok statements
  noBody :
    presentBody? (context.language.handlerParts context.source node) = none →
      clause.body = none

/-- The statements lowered from an `else` or `finally` clause. -/
def LoweredBlock
    (context : Context) (depth : Nat) (binding : Option String) (node : Node)
    (statements : List Statement) : Prop :=
  lowerItems context false (depth + 1) binding
    (blockItems context.language (clauseBlock? context.language node)) = .ok statements

/-- A construct into which some parts have been lowered. -/
structure LoweredParts
    (context : Context) (depth : Nat) (binding : Option String)
    (before after : TryConstruct) (parts : List Part) : Prop where
  span : after.span = before.span
  body :
    ∃ bodies,
      List.Forall₂
          (fun items statements =>
            lowerItems context false (depth + 1) binding items = .ok statements)
          (parts.filterMap Part.statements?) bodies ∧
        after.body = before.body ++ bodies.flatten
  handlers :
    ∃ clauses,
      List.Forall₂ (LoweredClause context depth) (parts.filterMap Part.handler?) clauses ∧
        after.handlers = before.handlers ++ clauses
  orelse :
    ∃ blocks,
      List.Forall₂ (LoweredBlock context depth binding)
          (parts.filterMap Part.orelse?) blocks ∧
        after.orelse = blocks.getLast?.or before.orelse
  finalizer :
    ∃ blocks,
      List.Forall₂ (LoweredBlock context depth binding)
          (parts.filterMap Part.finalizer?) blocks ∧
        after.finalizer = blocks.getLast?.or before.finalizer

/-- A container that was lowered has had room on the stack. -/
theorem Demand.meet_container_eq_ok
    {depth : Nat} {construct next : TryConstruct} {at_ : Node}
    {binding : Option String} {items : List Placed}
    {fill : List Statement → TryConstruct → TryConstruct}
    (h : (Demand.container at_ binding items fill).meet context depth construct = .ok next) :
    depth < maxNesting ∧ ∃ done,
      lowerItems context false (depth + 1) binding items = .ok done ∧
        next = fill done construct := by
  rw [Demand.meet] at h
  split at h
  · cases h
  · next hroom =>
      obtain ⟨done, hdone, hnext⟩ := bind_eq_ok_iff.mp h
      cases hnext
      exact ⟨Nat.lt_of_not_le hroom, done, hdone, rfl⟩

theorem meet_handler_eq_ok
    {depth : Nat} {binding : Option String} {node clauseNode : Node}
    {construct next : TryConstruct}
    (h : ((Part.handler clauseNode).demand context binding node).meet context depth
      construct = .ok next) :
    ∃ clause, LoweredClause context depth clauseNode clause ∧
      next = { construct with handlers := construct.handlers ++ [clause] } := by
  rw [Part.demand] at h
  cases hbody : presentBody? (context.language.handlerParts context.source clauseNode) with
  | some body =>
      simp only [hbody] at h
      obtain ⟨_, done, hdone, rfl⟩ := Demand.meet_container_eq_ok h
      refine ⟨_, ⟨rfl, ?_, ?_⟩, rfl⟩
      · intro body' hbody'
        rw [hbody] at hbody'
        cases hbody'
        exact ⟨done, rfl, hdone⟩
      · intro hnone
        rw [hbody] at hnone
        cases hnone
  | none =>
      simp only [hbody] at h
      cases h
      refine ⟨_, ⟨rfl, ?_, fun _ => rfl⟩, rfl⟩
      intro body hsome
      rw [hbody] at hsome
      cases hsome

theorem meet_blockDemand_eq_ok
    {depth : Nat} {binding : Option String} {clauseNode : Node}
    {fill : List Statement → TryConstruct → TryConstruct} {construct next : TryConstruct}
    (h : (blockDemand context binding clauseNode fill).meet context depth construct =
      .ok next) :
    ∃ statements, LoweredBlock context depth binding clauseNode statements ∧
      next = fill statements construct := by
  unfold blockDemand at h
  unfold LoweredBlock
  cases hblock : clauseBlock? context.language clauseNode with
  | some block =>
      simp only [hblock] at h
      obtain ⟨_, done, hdone, rfl⟩ := Demand.meet_container_eq_ok h
      exact ⟨done, hdone, rfl⟩
  | none =>
      simp only [hblock] at h
      cases h
      exact ⟨[], lowerItems_nil _ _ _, rfl⟩

theorem getLast?_cons_or
    {α : Type} (first : α) (rest : List α) (otherwise : Option α) :
    (first :: rest).getLast?.or otherwise = rest.getLast?.or (some first) := by
  rw [List.getLast?_cons]
  cases rest.getLast? with
  | none => rfl
  | some last => rfl

/-- A construct whose parts have been lowered holds the lowered parts. -/
theorem loweredParts_of_lowerParts_eq_ok
    {depth : Nat} {binding : Option String} {node : Node}
    {construct result : TryConstruct} {parts : List Part}
    (h : lowerParts context depth binding node construct parts = .ok result) :
    LoweredParts context depth binding construct result parts := by
  induction parts generalizing construct with
  | nil =>
      rw [lowerParts_nil] at h
      cases h
      exact
        { span := rfl
          body := ⟨[], .nil, (List.append_nil _).symm⟩
          handlers := ⟨[], .nil, (List.append_nil _).symm⟩
          orelse := ⟨[], .nil, rfl⟩
          finalizer := ⟨[], .nil, rfl⟩ }
  | cons part parts ih =>
      rw [lowerParts_cons] at h
      obtain ⟨next, hmeet, hrest⟩ := bind_eq_ok_iff.mp h
      have hparts := ih hrest
      -- Each kind of part changes one field and leaves the other ones alone.
      cases part with
      | statements items =>
          obtain ⟨_, done, hdone, rfl⟩ := Demand.meet_container_eq_ok hmeet
          obtain ⟨bodies, hbodies, hbody⟩ := hparts.body
          refine
            { span := hparts.span
              body := ⟨done :: bodies, .cons hdone hbodies, ?_⟩
              handlers := hparts.handlers
              orelse := hparts.orelse
              finalizer := hparts.finalizer }
          rw [hbody, List.flatten_cons, List.append_assoc]
      | handler clauseNode =>
          obtain ⟨clause, hclause, rfl⟩ := meet_handler_eq_ok hmeet
          obtain ⟨clauses, hclauses, hhandlers⟩ := hparts.handlers
          refine
            { span := hparts.span
              body := hparts.body
              handlers := ⟨clause :: clauses, .cons hclause hclauses, ?_⟩
              orelse := hparts.orelse
              finalizer := hparts.finalizer }
          rw [hhandlers, List.append_assoc]
          rfl
      | orelse clauseNode =>
          obtain ⟨statements, hstatements, rfl⟩ := meet_blockDemand_eq_ok hmeet
          obtain ⟨blocks, hblocks, horelse⟩ := hparts.orelse
          refine
            { span := hparts.span
              body := hparts.body
              handlers := hparts.handlers
              orelse := ⟨statements :: blocks, .cons hstatements hblocks, ?_⟩
              finalizer := hparts.finalizer }
          rw [horelse, getLast?_cons_or]
      | finalizer clauseNode =>
          obtain ⟨statements, hstatements, rfl⟩ := meet_blockDemand_eq_ok hmeet
          obtain ⟨blocks, hblocks, hfinalizer⟩ := hparts.finalizer
          refine
            { span := hparts.span
              body := hparts.body
              handlers := hparts.handlers
              orelse := hparts.orelse
              finalizer := ⟨statements :: blocks, .cons hstatements hblocks, ?_⟩ }
          rw [hfinalizer, getLast?_cons_or]

/-! ## The parts of a try node -/

theorem filterMap_leadingPart_eq_nil
    {α : Type} {select : Part → Option α} (items : List Placed)
    (hselect : ∀ items, select (.statements items) = none) :
    (leadingPart items).filterMap select = [] := by
  unfold leadingPart
  split
  · rfl
  · rw [List.filterMap_cons, hselect]
    rfl

theorem filterMap_bodyPart_eq_nil
    {α : Type} {select : Part → Option α} (language : Language) (body : Option Node)
    (hselect : ∀ items, select (.statements items) = none) :
    (bodyPart language body).filterMap select = [] := by
  cases body with
  | none => rfl
  | some block =>
      rw [bodyPart, List.filterMap_cons, hselect]
      rfl

/-- Of the clauses of a try node, a selection by kind picks the children with the role
of that kind. -/
theorem filterMap_clausePart?
    {select : Part → Option Node} {role : Role}
    (hselect : ∀ item : Placed,
      (clausePart? item).bind select = if item.role == role then some item.node else none)
    (items : List Placed) :
    (items.filterMap clausePart?).filterMap select =
      (items.filter (·.role == role)).map Placed.node := by
  rw [List.filterMap_filterMap]
  induction items with
  | nil => rfl
  | cons item items ih =>
      rw [List.filterMap_cons, List.filter_cons, hselect, ih]
      cases item.role == role with
      | true => rfl
      | false => rfl

/-- A selection that leaves statements out picks the children of a try node with one
role. -/
theorem filterMap_tryParts
    {select : Part → Option Node} {role : Role} (language : Language) (node : Node)
    (hstatements : ∀ items, select (.statements items) = none)
    (hclauses : ∀ item : Placed,
      (clausePart? item).bind select = if item.role == role then some item.node else none) :
    (tryParts language node).filterMap select = childrenAs language role node := by
  rw [tryParts, List.filterMap_append, List.filterMap_append,
    filterMap_leadingPart_eq_nil _ hstatements,
    filterMap_bodyPart_eq_nil _ _ hstatements, filterMap_clausePart? hclauses]
  rfl

theorem filterMap_handler?_tryParts
    (language : Language) (node : Node) :
    (tryParts language node).filterMap Part.handler? =
      childrenAs language .handler node := by
  apply filterMap_tryParts language node (fun _ => rfl)
  intro item
  unfold clausePart?
  cases item.role <;> rfl

theorem filterMap_orelse?_tryParts
    (language : Language) (node : Node) :
    (tryParts language node).filterMap Part.orelse? =
      childrenAs language .orelse node := by
  apply filterMap_tryParts language node (fun _ => rfl)
  intro item
  unfold clausePart?
  cases item.role <;> rfl

theorem filterMap_finalizer?_tryParts
    (language : Language) (node : Node) :
    (tryParts language node).filterMap Part.finalizer? =
      childrenAs language .finalizer node := by
  apply filterMap_tryParts language node (fun _ => rfl)
  intro item
  unfold clausePart?
  cases item.role <;> rfl

/-- The statement nodes of a try node are the leading children, then those of the
body. -/
theorem flatten_statements?_tryParts
    (language : Language) (node : Node) :
    ((tryParts language node).filterMap Part.statements?).flatten =
      leading language node ++ blockItems language (bodyOf? language node) := by
  have hleading :
      ∀ items, ((leadingPart items).filterMap Part.statements?).flatten = items := by
    intro items
    cases items with
    | nil => rfl
    | cons item items => exact List.append_nil _
  have hbody :
      ∀ body,
        ((bodyPart language body).filterMap Part.statements?).flatten =
          blockItems language body := by
    intro body
    cases body with
    | none => rfl
    | some block => exact List.append_nil _
  have hclauses :
      ((language.significant node).filterMap clausePart?).filterMap Part.statements? =
        [] := by
    rw [List.filterMap_filterMap, List.filterMap_eq_nil_iff]
    intro item _
    unfold clausePart?
    cases item.role <;> rfl
  rw [tryParts, List.filterMap_append, List.filterMap_append, hclauses, List.append_nil,
    List.flatten_append, hleading, hbody]

theorem lowerItems_flatten
    {flatten : Bool} {depth : Nat} {binding : Option String}
    {groups : List (List Placed)} {results : List (List Statement)}
    (h : List.Forall₂
      (fun items statements =>
        lowerItems context flatten depth binding items = .ok statements)
      groups results) :
    lowerItems context flatten depth binding groups.flatten = .ok results.flatten := by
  induction h with
  | nil => exact lowerItems_nil _ _ _
  | cons hitems _ ih =>
      rw [List.flatten_cons, List.flatten_cons, lowerItems_append, hitems, ih]
      rfl

/-- A construct lowered from a try node. -/
structure LoweredTry
    (context : Context) (depth : Nat) (binding : Option String) (node : Node)
    (construct : TryConstruct) : Prop where
  span : construct.span = node.span
  body :
    lowerItems context false (depth + 1) binding
        (leading context.language node ++
          blockItems context.language (bodyOf? context.language node)) =
      .ok construct.body
  handlers :
    List.Forall₂ (LoweredClause context depth)
      (childrenAs context.language .handler node) construct.handlers
  orelse :
    ∃ blocks,
      List.Forall₂ (LoweredBlock context depth binding)
          (childrenAs context.language .orelse node) blocks ∧
        construct.orelse = blocks.getLast?
  finalizer :
    ∃ blocks,
      List.Forall₂ (LoweredBlock context depth binding)
          (childrenAs context.language .finalizer node) blocks ∧
        construct.finalizer = blocks.getLast?

/-- A try node that has been lowered became a construct with all its parts. -/
theorem loweredTry_of_lowerParts_eq_ok
    {depth : Nat} {binding : Option String} {node : Node} {construct : TryConstruct}
    (h : lowerParts context depth binding node (.blank node.span)
      (tryParts context.language node) = .ok construct) :
    LoweredTry context depth binding node construct := by
  have hparts := loweredParts_of_lowerParts_eq_ok h
  obtain ⟨bodies, hbodies, hbody⟩ := hparts.body
  obtain ⟨clauses, hclauses, hhandlers⟩ := hparts.handlers
  obtain ⟨elses, helses, horelse⟩ := hparts.orelse
  obtain ⟨finals, hfinals, hfinalizer⟩ := hparts.finalizer
  rw [filterMap_handler?_tryParts] at hclauses
  rw [filterMap_orelse?_tryParts] at helses
  rw [filterMap_finalizer?_tryParts] at hfinals
  have hitems := lowerItems_flatten hbodies
  rw [flatten_statements?_tryParts] at hitems
  exact
    { span := hparts.span
      body := hbody ▸ hitems
      handlers := hhandlers ▸ hclauses
      orelse := ⟨elses, helses, by rw [horelse]; exact Option.or_none⟩
      finalizer := ⟨finals, hfinals, by rw [hfinalizer]; exact Option.or_none⟩ }

/-! ## Single nodes -/

/-- The nodes whose statements a statement other than a try construct holds: none for a
throw, those below its expression for an expression statement, else those below the
node. -/
def openedItems (language : Language) (item : Placed) : List Placed :=
  match item.role with
  | .throw => []
  | .expressionStatement =>
      match language.significant item.node with
      | [] => []
      | expression :: _ =>
          if expression.role == .throw then [] else language.significant expression.node
  | _ => language.significant item.node

/-- The nodes that are opened are nothing, all that is below the node, or all that is below
one of its children. -/
theorem openedItems_cases
    (language : Language) (item : Placed) :
    openedItems language item = [] ∨
      openedItems language item = language.significant item.node ∨
      ∃ child ∈ item.node.children,
        openedItems language item = language.significant child := by
  unfold openedItems
  split
  · exact .inl rfl
  · split
    · exact .inl rfl
    · next expression rest hexpression =>
        split
        · exact .inl rfl
        · refine .inr (.inr ⟨expression.node, ?_, rfl⟩)
          apply node_mem_of_mem_significant
          rw [hexpression]
          exact List.mem_cons_self
  · exact .inr (.inl rfl)

/-- Whether a node throws by itself: it is a throw, or an expression statement whose
expression is one. -/
def throwsItself (language : Language) (item : Placed) : Bool :=
  match item.role with
  | .throw => true
  | .expressionStatement => (language.significant item.node).head?.any (·.role == .throw)
  | _ => false

/-- A node other than a try node became a statement other than a try construct, which
throws when the node does, and holds the statements of the opened nodes. -/
theorem lowerItem_eq_ok_of_ne_attempt
    {depth : Nat} {binding : Option String} {item : Placed} {statement : Statement}
    (hrole : item.role ≠ .attempt)
    (h : lowerItem context depth binding item = .ok statement) :
    (∀ construct, statement ≠ .attempt construct) ∧
      statement.propagates = throwsItself context.language item ∧
      ∃ flatten inner, lowerItems context flatten inner binding
        (openedItems context.language item) = .ok statement.nested := by
  rw [lowerItem_eq_perform, Task.ofItem] at h
  unfold throwsItself openedItems
  cases hcase : item.role with
  | attempt => exact absurd hcase hrole
  | throw =>
      simp only [hcase] at h
      split at h
      all_goals
        cases h
        exact ⟨fun _ heq => (by cases heq), rfl, false, 0, lowerItems_nil _ _ _⟩
  | expressionStatement =>
      simp only [hcase] at h
      cases hbelow : context.language.significant item.node with
      | nil =>
          simp only [hbelow] at h
          cases h
      | cons expression rest =>
          simp only [hbelow] at h
          by_cases hthrow : (expression.role == .throw) = true
          · rw [if_pos hthrow] at h
            simp only [List.head?_cons, Option.any_some, hthrow, if_true]
            split at h
            all_goals
              cases h
              exact ⟨fun _ heq => (by cases heq), rfl, false, 0, lowerItems_nil _ _ _⟩
          · rw [if_neg hthrow] at h
            obtain ⟨_, children, hchildren, rfl⟩ := Task.perform_container_eq_ok h
            simp only [List.head?_cons, Option.any_some, hthrow]
            exact ⟨fun _ heq => (by cases heq), rfl, true, depth + 1, hchildren⟩
  | _ =>
      simp only [hcase] at h
      obtain ⟨_, children, hchildren, rfl⟩ := Task.perform_container_eq_ok h
      exact ⟨fun _ heq => (by cases heq), rfl, _, depth + 1, hchildren⟩

/-- A try node became a try construct. -/
theorem lowerItem_eq_ok_of_attempt
    {depth : Nat} {binding : Option String} {item : Placed} {statement : Statement}
    (hrole : item.role = .attempt)
    (h : lowerItem context depth binding item = .ok statement) :
    ∃ construct, statement = .attempt construct ∧
      LoweredTry context depth binding item.node construct := by
  rw [lowerItem_eq_perform, Task.ofItem] at h
  simp only [hrole, Task.perform] at h
  obtain ⟨construct, hparts, hstatement⟩ := bind_eq_ok_iff.mp h
  cases hstatement
  exact ⟨construct, rfl, loweredTry_of_lowerParts_eq_ok hparts⟩

/-- A statement stands where the node stands that it was lowered from. -/
theorem span_of_lowerItem_eq_ok
    {depth : Nat} {binding : Option String} {item : Placed} {statement : Statement}
    (h : lowerItem context depth binding item = .ok statement) :
    statement.span = item.node.span := by
  rcases lowerItem_eq_ok_cases h with ⟨construct, rfl, hparts⟩ | ⟨_, hspan, _⟩
  · exact (loweredTry_of_lowerParts_eq_ok hparts).span
  · exact hspan

theorem lowerItem_eq_ok_propagates
    {depth : Nat} {binding : Option String} {item : Placed} {statement : Statement}
    (h : lowerItem context depth binding item = .ok statement) :
    statement.propagates = throwsItself context.language item := by
  by_cases hrole : item.role = .attempt
  · obtain ⟨construct, rfl, _⟩ := lowerItem_eq_ok_of_attempt hrole h
    rw [throwsItself, hrole]
    rfl
  · exact (lowerItem_eq_ok_of_ne_attempt hrole h).2.1

/-! ## Bodies of handlers -/

/-- Where nothing is searched through, every node became one statement. -/
theorem any_propagates_of_lowerItems_eq_ok
    {depth : Nat} {binding : Option String} {items : List Placed}
    {statements : List Statement}
    (h : lowerItems context false depth binding items = .ok statements) :
    statements.any Statement.propagates = items.any (throwsItself context.language) := by
  induction items generalizing statements with
  | nil =>
      rw [lowerItems_nil] at h
      cases h
      rfl
  | cons item items ih =>
      rw [lowerItems_cons_of_kept (by simp)] at h
      obtain ⟨statement, hstatement, h⟩ := bind_eq_ok_iff.mp h
      obtain ⟨rest, hrest, h⟩ := bind_eq_ok_iff.mp h
      cases h
      rw [List.any_cons, List.any_cons, ih hrest, lowerItem_eq_ok_propagates hstatement]

end HandlerLint.Lowering
