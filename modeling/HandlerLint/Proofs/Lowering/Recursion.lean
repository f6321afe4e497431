import HandlerLint.Lowering.Recursive

/-!
# Equations of the lowering recursion

The recursion is opened here once, so that later arguments do not unfold it.  Lowering
a list of nodes is lowering its pieces one after another; a lowering that succeeds has
lowered every piece.
-/

namespace HandlerLint.Lowering

open Source

variable {context : Context}

/-! ## Computations that may fail -/

@[simp] theorem ok_bind
    {α β : Type} (value : α) (rest : α → Except LowerError β) :
    (Except.ok value >>= rest) = rest value :=
  rfl

@[simp] theorem error_bind
    {α β : Type} (error : LowerError) (rest : α → Except LowerError β) :
    (Except.error error >>= rest) = .error error :=
  rfl

/-- A computation in two parts succeeds when both parts do. -/
theorem bind_eq_ok_iff
    {α β : Type} {first : Except LowerError α} {rest : α → Except LowerError β}
    {result : β} :
    (first >>= rest) = .ok result ↔
      ∃ value, first = .ok value ∧ rest value = .ok result := by
  cases first with
  | error error => simp
  | ok value => simp

/-! ## Lists of nodes -/

theorem lowerItems_nil
    (flatten : Bool) (depth : Nat) (binding : Option String) :
    lowerItems context flatten depth binding [] = .ok [] := by
  rw [lowerItems]

/-- A node that is searched through gives the statements found inside it. -/
theorem lowerItems_cons_of_through
    {flatten : Bool} {depth : Nat} {binding : Option String} {item : Placed}
    {items : List Placed} (h : (flatten && item.role == .other) = true) :
    lowerItems context flatten depth binding (item :: items) = do
      let found ← lowerItems context flatten depth binding
        (context.language.significant item.node)
      let rest ← lowerItems context flatten depth binding items
      return found ++ rest := by
  rw [lowerItems, if_pos h]

/-- Any other node gives one statement. -/
theorem lowerItems_cons_of_kept
    {flatten : Bool} {depth : Nat} {binding : Option String} {item : Placed}
    {items : List Placed} (h : ¬(flatten && item.role == .other) = true) :
    lowerItems context flatten depth binding (item :: items) = do
      let statement ← lowerItem context depth binding item
      let rest ← lowerItems context flatten depth binding items
      return statement :: rest := by
  rw [lowerItems, if_neg h]

/-- Lists of nodes are lowered one after another. -/
theorem lowerItems_append
    (flatten : Bool) (depth : Nat) (binding : Option String)
    (left right : List Placed) :
    lowerItems context flatten depth binding (left ++ right) = do
      let first ← lowerItems context flatten depth binding left
      let second ← lowerItems context flatten depth binding right
      return first ++ second := by
  induction left with
  | nil =>
      rw [List.nil_append, lowerItems_nil, ok_bind]
      exact (bind_pure _).symm
  | cons item left ih =>
      by_cases h : (flatten && item.role == .other) = true
      · rw [List.cons_append, lowerItems_cons_of_through h,
          lowerItems_cons_of_through h, ih]
        simp only [bind_assoc, pure_bind, List.append_assoc]
      · rw [List.cons_append, lowerItems_cons_of_kept h, lowerItems_cons_of_kept h, ih]
        simp only [bind_assoc, pure_bind, List.cons_append]

/-- What holds of no nodes, and of some nodes whenever it holds of all that is lighter than
the first node and of the other nodes, holds of any nodes.  All that lowering goes on to
from a node is lighter than the node. -/
theorem items_induction
    {motive : List Placed → Prop}
    (nil : motive [])
    (cons : ∀ item items,
      (∀ inner, Placed.weightList inner < item.node.weight → motive inner) →
        motive items → motive (item :: items))
    (items : List Placed) : motive items := by
  induction hweight : Placed.weightList items using Nat.strongRecOn
    generalizing items with
  | _ weight ih =>
      cases items with
      | nil => exact nil
      | cons item items =>
          have hpos := Node.weight_pos item.node
          rw [Placed.weightList_cons] at hweight
          apply cons
          · intro inner hinner
            exact ih _ (by omega) inner rfl
          · exact ih _ (by omega) items rfl

/-! ## Parts of a try construct -/

/-- What a part of a try construct asks for. -/
inductive Demand where
  /-- Nodes to lower as a container of their own, and where their statements go. -/
  | container (at_ : Node) (binding : Option String) (items : List Placed)
      (fill : List Statement → TryConstruct → TryConstruct)
  /-- A change that needs no lowering. -/
  | change (update : TryConstruct → TryConstruct)

/-- What a clause asks for whose block, if it has one, is lowered into a construct. -/
def blockDemand
    (context : Context) (binding : Option String) (clauseNode : Node)
    (fill : List Statement → TryConstruct → TryConstruct) : Demand :=
  match clauseBlock? context.language clauseNode with
  | some block =>
      .container clauseNode binding (context.language.significant block) fill
  | none => .change (fill [])

/-- What a part of the try construct at a node asks for. -/
def Part.demand
    (context : Context) (binding : Option String) (node : Node) : Part → Demand
  | .statements items =>
      .container node binding items fun done construct =>
        { construct with body := construct.body ++ done }
  | .handler clauseNode =>
      let handler := context.language.handlerParts context.source clauseNode
      let clause := blankClause clauseNode handler
      match presentBody? handler with
      | some body =>
          .container clauseNode clause.binding (context.language.significant body)
            fun done construct =>
              { construct with
                handlers := construct.handlers ++ [{ clause with body := some done }] }
      | none =>
          .change fun construct =>
            { construct with handlers := construct.handlers ++ [clause] }
  | .orelse clauseNode =>
      blockDemand context binding clauseNode fun done construct =>
        { construct with orelse := some done }
  | .finalizer clauseNode =>
      blockDemand context binding clauseNode fun done construct =>
        { construct with finalizer := some done }

/-- Do what a part asks for, by recursion. -/
def Demand.meet
    (context : Context) (depth : Nat) (construct : TryConstruct) :
    Demand → Except LowerError TryConstruct
  | .container at_ binding items fill =>
      if maxNesting ≤ depth then .error (.tooDeep at_.line)
      else do
        let done ← lowerItems context false (depth + 1) binding items
        return fill done construct
  | .change update => .ok (update construct)

theorem Demand.meet_container_bind
    {α : Type} (depth : Nat) (construct : TryConstruct) (at_ : Node)
    (binding : Option String) (items : List Placed)
    (fill : List Statement → TryConstruct → TryConstruct)
    (rest : TryConstruct → Except LowerError α) :
    (Demand.container at_ binding items fill).meet context depth construct >>= rest =
      if maxNesting ≤ depth then .error (.tooDeep at_.line)
      else
        lowerItems context false (depth + 1) binding items >>= fun done =>
          rest (fill done construct) := by
  rw [Demand.meet]
  split
  · rfl
  · simp only [bind_assoc, pure_bind]

theorem Demand.meet_change_bind
    {α : Type} (depth : Nat) (construct : TryConstruct)
    (update : TryConstruct → TryConstruct)
    (rest : TryConstruct → Except LowerError α) :
    (Demand.change update).meet context depth construct >>= rest =
      rest (update construct) :=
  rfl

theorem lowerParts_nil
    (depth : Nat) (binding : Option String) (node : Node) (construct : TryConstruct) :
    lowerParts context depth binding node construct [] = .ok construct := by
  rw [lowerParts]

/-- The parts of a try construct are lowered one after another. -/
theorem lowerParts_cons
    (depth : Nat) (binding : Option String) (node : Node) (construct : TryConstruct)
    (part : Part) (parts : List Part) :
    lowerParts context depth binding node construct (part :: parts) =
      (part.demand context binding node).meet context depth construct >>= fun next =>
        lowerParts context depth binding node next parts := by
  cases part with
  | statements items =>
      rw [lowerParts, Part.demand, Demand.meet_container_bind]
  | handler clauseNode =>
      rw [lowerParts, Part.demand]
      split
      · next body hbody => simp only [hbody, Demand.meet_container_bind]
      · next hbody => simp only [hbody, Demand.meet_change_bind]
  | orelse clauseNode =>
      rw [lowerParts, Part.demand, blockDemand]
      split
      · next block hblock => simp only [hblock, Demand.meet_container_bind]
      · next hblock => simp only [hblock, Demand.meet_change_bind]
  | finalizer clauseNode =>
      rw [lowerParts, Part.demand, blockDemand]
      split
      · next block hblock => simp only [hblock, Demand.meet_container_bind]
      · next hblock => simp only [hblock, Demand.meet_change_bind]

/-! ## Single nodes -/

/-- What lowering a node comes to. -/
inductive Task where
  | refuse (error : LowerError)
  /-- A statement that is known at once. -/
  | emit (statement : Statement)
  /-- Nodes to lower, and the statement they become. -/
  | container (flatten : Bool) (items : List Placed)
      (wrap : List Statement → Statement)
  /-- A try construct with its parts. -/
  | construct (parts : List Part)

/-- What lowering a node comes to, given the name that the innermost handler binds. -/
def Task.ofItem
    (context : Context) (binding : Option String) (item : Placed) : Task :=
  let node := item.node
  match item.role with
  | .attempt => .construct (tryParts context.language node)
  | .throw =>
      if context.language.isRethrow context.source binding node then
        .emit (.rethrow node.span)
      else
        .emit (.throw node.span)
  | .expressionStatement =>
      match context.language.significant node with
      | [] => .refuse (.noExpression node.line node.kind)
      | expression :: _ =>
          if expression.role == .throw then
            if context.language.isRethrow context.source binding expression.node then
              .emit (.expressionRethrow node.span)
            else
              .emit (.expressionThrow node.span)
          else
            .container true (context.language.significant expression.node)
              (.expression node.span)
  | .block =>
      .container false (context.language.significant node)
        (.other node.span node.kind)
  | .handler | .orelse | .finalizer | .comment | .other =>
      .container true (context.language.significant node)
        (.other node.span node.kind)

/-- Carry out the task of a node, by recursion. -/
def Task.perform
    (context : Context) (depth : Nat) (binding : Option String) (node : Node) :
    Task → Except LowerError Statement
  | .refuse error => .error error
  | .emit statement => .ok statement
  | .container flatten items wrap =>
      if maxNesting ≤ depth then .error (.tooDeep node.line)
      else do
        let children ← lowerItems context flatten (depth + 1) binding items
        return wrap children
  | .construct parts => do
      let construct ← lowerParts context depth binding node (.blank node.span) parts
      return .attempt construct

theorem lowerItem_eq_perform
    (depth : Nat) (binding : Option String) (item : Placed) :
    lowerItem context depth binding item =
      (Task.ofItem context binding item).perform context depth binding item.node := by
  rw [lowerItem, Task.ofItem]
  cases item.role with
  | attempt => rfl
  | throw =>
      dsimp only
      split <;> rfl
  | expressionStatement =>
      dsimp only
      split
      · next hnone => simp only [hnone, Task.perform]
      · next expression rest hsome =>
          simp only [hsome]
          split
          · split <;> rfl
          · rfl
  | _ => rfl

/-- A container that was lowered has had room on the stack. -/
theorem Task.perform_container_eq_ok
    {depth : Nat} {binding : Option String} {node : Node} {flatten : Bool}
    {items : List Placed} {wrap : List Statement → Statement} {statement : Statement}
    (h : (Task.container flatten items wrap).perform context depth binding node =
      .ok statement) :
    depth < maxNesting ∧ ∃ children,
      lowerItems context flatten (depth + 1) binding items = .ok children ∧
        statement = wrap children := by
  rw [Task.perform] at h
  split at h
  · cases h
  · next hroom =>
      obtain ⟨children, hchildren, hstatement⟩ := bind_eq_ok_iff.mp h
      cases hstatement
      exact ⟨Nat.lt_of_not_le hroom, children, hchildren, rfl⟩

/-- What a node was lowered to: a construct with the parts of the node, or a statement in
its place that has nothing inside it or the statements of a container for which there was
room. -/
theorem lowerItem_eq_ok_cases
    {depth : Nat} {binding : Option String} {item : Placed} {statement : Statement}
    (h : lowerItem context depth binding item = .ok statement) :
    (∃ construct, statement = .attempt construct ∧
        lowerParts context depth binding item.node (.blank item.node.span)
          (tryParts context.language item.node) = .ok construct) ∨
      (∀ construct, statement ≠ .attempt construct) ∧ statement.span = item.node.span ∧
        (statement.nested = [] ∨
          depth < maxNesting ∧ ∃ flatten items,
            lowerItems context flatten (depth + 1) binding items = .ok statement.nested) := by
  rw [lowerItem_eq_perform, Task.ofItem] at h
  cases hrole : item.role with
  | attempt =>
      simp only [hrole, Task.perform] at h
      obtain ⟨construct, hparts, hstatement⟩ := bind_eq_ok_iff.mp h
      cases hstatement
      exact .inl ⟨construct, rfl, hparts⟩
  | throw =>
      simp only [hrole] at h
      split at h
      all_goals
        cases h
        exact .inr ⟨fun _ heq => (by cases heq), rfl, .inl rfl⟩
  | expressionStatement =>
      simp only [hrole] at h
      split at h
      · cases h
      · split at h
        · split at h
          all_goals
            cases h
            exact .inr ⟨fun _ heq => (by cases heq), rfl, .inl rfl⟩
        · obtain ⟨hroom, children, hchildren, rfl⟩ := Task.perform_container_eq_ok h
          exact .inr ⟨fun _ heq => (by cases heq), rfl, .inr ⟨hroom, _, _, hchildren⟩⟩
  | _ =>
      simp only [hrole] at h
      obtain ⟨hroom, children, hchildren, rfl⟩ := Task.perform_container_eq_ok h
      exact .inr ⟨fun _ heq => (by cases heq), rfl, .inr ⟨hroom, _, _, hchildren⟩⟩

end HandlerLint.Lowering
