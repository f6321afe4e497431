import HandlerLint.Lowering.Part

/-!
# Lowering by recursion

The statement model of a parse tree as a function of the tree alone: the recursion
carries the number of open containers and the name bound by the innermost handler,
and stops at the first error.  No stack is kept, so this is the form in which facts
about the model are read off.
-/

namespace HandlerLint.Lowering

open Source

variable (context : Context)

mutual

/-- The statements of some nodes in order.  In a flattening container an unremarkable
node is replaced by the statements found inside it. -/
def lowerItems
    (flatten : Bool) (depth : Nat) (binding : Option String) :
    List Placed → Except LowerError (List Statement)
  | [] => .ok []
  | item :: items =>
      if flatten && item.role == .other then do
        let found ← lowerItems flatten depth binding
          (context.language.significant item.node)
        let rest ← lowerItems flatten depth binding items
        return found ++ rest
      else do
        let statement ← lowerItem depth binding item
        let rest ← lowerItems flatten depth binding items
        return statement :: rest
termination_by items => (Placed.weightList items, 1)
decreasing_by
  · have := weightList_significant_lt context.language item.node
    simp only [Placed.weightList_cons, Prod.lex_def]
    omega
  all_goals
    have := Node.weight_pos item.node
    simp only [Placed.weightList_cons, Prod.lex_def]
    omega

/-- The statement of one node. -/
def lowerItem
    (depth : Nat) (binding : Option String) (item : Placed) :
    Except LowerError Statement :=
  match item.role with
  | .attempt => do
      let construct ← lowerParts depth binding item.node
        (.blank item.node.span) (tryParts context.language item.node)
      return .attempt construct
  | .throw =>
      if context.language.isRethrow context.source binding item.node then
        .ok (.rethrow item.node.span)
      else
        .ok (.throw item.node.span)
  | .expressionStatement =>
      match _hsignificant : context.language.significant item.node with
      | [] => .error (.noExpression item.node.line item.node.kind)
      | expression :: _ =>
          if expression.role == .throw then
            if context.language.isRethrow context.source binding expression.node then
              .ok (.expressionRethrow item.node.span)
            else
              .ok (.expressionThrow item.node.span)
          else if maxNesting ≤ depth then .error (.tooDeep item.node.line)
          else do
            let children ← lowerItems true (depth + 1) binding
              (context.language.significant expression.node)
            return .expression item.node.span children
  | .block =>
      if maxNesting ≤ depth then .error (.tooDeep item.node.line)
      else do
        let children ← lowerItems false (depth + 1) binding
          (context.language.significant item.node)
        return .other item.node.span item.node.kind children
  | .handler | .orelse | .finalizer | .comment | .other =>
      if maxNesting ≤ depth then .error (.tooDeep item.node.line)
      else do
        let children ← lowerItems true (depth + 1) binding
          (context.language.significant item.node)
        return .other item.node.span item.node.kind children
termination_by (item.node.weight, 0)
decreasing_by
  · have := partsWeight_tryParts_lt context.language item.node
    simp only [Prod.lex_def]
    omega
  · have hmem : expression.node ∈ item.node.children :=
      node_mem_of_mem_significant (_hsignificant ▸ List.mem_cons_self)
    have := weightList_significant_child_lt context.language hmem
    simp only [Prod.lex_def]
    omega
  all_goals
    have := weightList_significant_lt context.language item.node
    simp only [Prod.lex_def]
    omega

/-- A try construct with the given parts lowered into it, one after another. -/
def lowerParts
    (depth : Nat) (binding : Option String) (node : Node)
    (construct : TryConstruct) : List Part → Except LowerError TryConstruct
  | [] => .ok construct
  | .statements items :: parts =>
      if maxNesting ≤ depth then .error (.tooDeep node.line)
      else do
        let body ← lowerItems false (depth + 1) binding items
        lowerParts depth binding node
          { construct with body := construct.body ++ body } parts
  | .handler clauseNode :: parts =>
      let handler := context.language.handlerParts context.source clauseNode
      let clause := blankClause clauseNode handler
      match _hbody : presentBody? handler with
      | some body =>
          if maxNesting ≤ depth then .error (.tooDeep clauseNode.line)
          else do
            let statements ← lowerItems false (depth + 1) clause.binding
              (context.language.significant body)
            lowerParts depth binding node
              { construct with
                handlers := construct.handlers ++ [{ clause with body := some statements }] }
              parts
      | none =>
          lowerParts depth binding node
            { construct with handlers := construct.handlers ++ [clause] } parts
  | .orelse clauseNode :: parts =>
      match _hblock : clauseBlock? context.language clauseNode with
      | some block =>
          if maxNesting ≤ depth then .error (.tooDeep clauseNode.line)
          else do
            let statements ← lowerItems false (depth + 1) binding
              (context.language.significant block)
            lowerParts depth binding node
              { construct with orelse := some statements } parts
      | none =>
          lowerParts depth binding node { construct with orelse := some [] } parts
  | .finalizer clauseNode :: parts =>
      match _hblock : clauseBlock? context.language clauseNode with
      | some block =>
          if maxNesting ≤ depth then .error (.tooDeep clauseNode.line)
          else do
            let statements ← lowerItems false (depth + 1) binding
              (context.language.significant block)
            lowerParts depth binding node
              { construct with finalizer := some statements } parts
      | none =>
          lowerParts depth binding node { construct with finalizer := some [] }
            parts
termination_by parts => (partsWeight parts, 1)
decreasing_by
  · simp only [partsWeight, Part.weight, Prod.lex_def]
    omega
  · simp only [partsWeight, Part.weight, Prod.lex_def]
    omega
  · have := weightList_significant_child_lt context.language (presentBody?_mem _hbody)
    simp only [partsWeight, Part.weight, Prod.lex_def]
    omega
  · have := Node.weight_pos clauseNode
    simp only [partsWeight, Part.weight, Prod.lex_def]
    omega
  · have := Node.weight_pos clauseNode
    simp only [partsWeight, Part.weight, Prod.lex_def]
    omega
  · have := weightList_significant_child_lt context.language (clauseBlock?_mem _hblock)
    simp only [partsWeight, Part.weight, Prod.lex_def]
    omega
  · have := Node.weight_pos clauseNode
    simp only [partsWeight, Part.weight, Prod.lex_def]
    omega
  · have := Node.weight_pos clauseNode
    simp only [partsWeight, Part.weight, Prod.lex_def]
    omega
  · have := weightList_significant_child_lt context.language (clauseBlock?_mem _hblock)
    simp only [partsWeight, Part.weight, Prod.lex_def]
    omega
  · have := Node.weight_pos clauseNode
    simp only [partsWeight, Part.weight, Prod.lex_def]
    omega
  · have := Node.weight_pos clauseNode
    simp only [partsWeight, Part.weight, Prod.lex_def]
    omega

end

/-- The statements of a parse tree. -/
def statementsOf
    (root : Node) : Except LowerError (List Statement) :=
  lowerItems context false 1 none (context.language.significant root)

end HandlerLint.Lowering
