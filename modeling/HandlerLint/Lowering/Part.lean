import HandlerLint.Language.Handler
import HandlerLint.Language.Rethrow

/-!
# The parts of a try construct

A try node falls into parts that are lowered one after another: the statements
that stand before the body, the body, and the clauses in source order.  The body is
the child under the field `body`, or the first block if no child has that field.

Together the parts weigh less than the node, although a child may belong to two
of them: a clause that hangs under the field `body` is body and clause at once.
-/

namespace HandlerLint.Lowering

open Source

/-- Why a parse tree has no statement model. -/
inductive LowerError where
  /-- An expression statement has no expression. -/
  | noExpression (line : Nat) (kind : String)
  /-- Statements are nested too deeply. -/
  | tooDeep (line : Nat)
deriving DecidableEq, Repr

/-- Statements nest at most this deeply.  Expressions may nest without limit,
because they are searched through rather than kept. -/
def maxNesting : Nat :=
  1024

/-- The text of an error in a file. -/
def LowerError.message (path : String) : LowerError → String
  | .noExpression line kind =>
      path ++ ":" ++ toString line ++ ": inconsistent " ++ kind ++
        " node: expression statement without an expression"
  | .tooDeep line =>
      path ++ ":" ++ toString line ++ ": statements nested deeper than " ++
        toString maxNesting ++ " levels"

/-- What stays the same while one file is lowered. -/
structure Context where
  language : Language
  source : List UInt8

/-- A part of a try construct that is still to be lowered. -/
inductive Part where
  /-- Statements that run as part of the body. -/
  | statements (items : List Placed)
  | handler (node : Node)
  | orelse (node : Node)
  | finalizer (node : Node)

/-- The part that a child contributes as a clause. -/
def clausePart? (item : Placed) : Option Part :=
  match item.role with
  | .handler => some (.handler item.node)
  | .orelse => some (.orelse item.node)
  | .finalizer => some (.finalizer item.node)
  | _ => none

/-- Which child of a try node is its body. -/
def bodyIndex? (language : Language) (node : Node) : Option Nat :=
  match node.children.findIdx? (·.label.field == some "body") with
  | some index => some index
  | none =>
      node.children.findIdx? fun child =>
        child.isNamed && language.role node.kind child.kind == .block

/-- The body of a try node. -/
def bodyOf? (language : Language) (node : Node) : Option Node :=
  (bodyIndex? language node).bind (node.children[·]?)

/-- The children of a try node without its body. -/
def besideBody (language : Language) (node : Node) : List Node :=
  match bodyIndex? language node with
  | some index => node.children.eraseIdx index
  | none => node.children

/-- Whether a child of a try node runs ahead of the body. -/
def isLeading (item : Placed) : Bool :=
  item.role != .comment && (clausePart? item).isNone

/-- The children of a try node that are neither comments, nor clauses, nor the
body. -/
def leading (language : Language) (node : Node) : List Placed :=
  (((besideBody language node).filter Node.isNamed).map (language.place node)).filter
    isLeading

/-- The part of the leading children, if there are any. -/
def leadingPart (items : List Placed) : List Part :=
  if items.isEmpty then [] else [.statements items]

/-- The part of the body, if there is one. -/
def bodyPart (language : Language) : Option Node → List Part
  | some body => [.statements (language.significant body)]
  | none => []

/-- The parts of a try node in the order in which they are lowered. -/
def tryParts (language : Language) (node : Node) : List Part :=
  leadingPart (leading language node) ++ bodyPart language (bodyOf? language node) ++
    (language.significant node).filterMap clausePart?

/-- The block of an `else` or `finally` clause. -/
def clauseBlock? (language : Language) (node : Node) : Option Node :=
  match node.childByField? "body" with
  | some body => some body
  | none =>
      ((language.significant node).find? (·.role == .block)).map Placed.node

/-- The body of a handler, unless it is absent or made up by the parser. -/
def presentBody? (parts : HandlerParts) : Option Node :=
  parts.body.filter (! ·.isMissing)

/-- A handler before its statements are known. -/
def blankClause (node : Node) (parts : HandlerParts) : HandlerClause :=
  { span := node.span, types := parts.types, binding := parts.binding, body := none }

/-! ## Weights -/

/-- A bound on the work that a part can cause. -/
def Part.weight : Part → Nat
  | .statements items => 1 + Placed.weightList items
  | .handler node => node.weight
  | .orelse node => node.weight
  | .finalizer node => node.weight

/-- The weights of some parts together. -/
def partsWeight : List Part → Nat
  | [] => 0
  | part :: parts => part.weight + partsWeight parts

theorem partsWeight_append
    (left right : List Part) :
    partsWeight (left ++ right) = partsWeight left + partsWeight right := by
  induction left with
  | nil => simp [partsWeight]
  | cons part left ih =>
      simp only [List.cons_append, partsWeight, ih]
      omega

theorem Part.weight_pos
    (part : Part) :
    0 < part.weight := by
  cases part with
  | statements items =>
      simp only [Part.weight]
      omega
  | _ node => exact Node.weight_pos node

theorem weightList_significant_lt
    (language : Language) (node : Node) :
    1 + Placed.weightList (language.significant node) < node.weight := by
  have := language.weightList_significant_le node
  rw [Node.weight_eq]
  omega

theorem weightList_significant_child_lt
    (language : Language) {node child : Node} (h : child ∈ node.children) :
    1 + Placed.weightList (language.significant child) < node.weight :=
  Nat.lt_trans (weightList_significant_lt language child)
    (Node.weight_lt_of_mem_children h)

theorem clausePart?_weight
    {item : Placed} {part : Part} (h : clausePart? item = some part) :
    part.weight = item.node.weight := by
  unfold clausePart? at h
  split at h
  all_goals first
    | cases h; rfl
    | cases h

theorem partsWeight_clauses_le
    (items : List Placed) :
    partsWeight (items.filterMap clausePart?) ≤ Placed.weightList items := by
  induction items with
  | nil => simp [partsWeight]
  | cons item items ih =>
      rw [List.filterMap_cons, Placed.weightList_cons]
      split
      · omega
      · next part h =>
          rw [partsWeight, clausePart?_weight h]
          omega

theorem weightList_eraseIdx
    {nodes : List Node} {index : Nat} {node : Node}
    (h : nodes[index]? = some node) :
    node.weight + Node.weightList (nodes.eraseIdx index) = Node.weightList nodes := by
  induction nodes generalizing index with
  | nil => simp at h
  | cons first rest ih =>
      cases index with
      | zero =>
          simp only [List.getElem?_cons_zero, Option.some.injEq] at h
          subst h
          simp [Node.weightList]
      | succ index =>
          rw [List.getElem?_cons_succ] at h
          have := ih h
          simp only [List.eraseIdx_cons_succ, Node.weightList]
          omega

theorem weightList_leading_le
    (language : Language) (node : Node) :
    Placed.weightList (leading language node) ≤
      Node.weightList (besideBody language node) := by
  have hfilter := Placed.weightList_filter_le isLeading
    (((besideBody language node).filter Node.isNamed).map (language.place node))
  have hnamed := Node.weightList_filter_le Node.isNamed (besideBody language node)
  have hmap :
      Placed.weightList
          (((besideBody language node).filter Node.isNamed).map (language.place node)) =
        Node.weightList ((besideBody language node).filter Node.isNamed) := by
    rw [Placed.weightList, Language.map_node_place]
  rw [hmap] at hfilter
  exact Nat.le_trans hfilter hnamed

theorem partsWeight_leadingPart_le
    (items : List Placed) :
    partsWeight (leadingPart items) ≤ 1 + Placed.weightList items := by
  unfold leadingPart
  split
  · simp [partsWeight]
  · simp [partsWeight, Part.weight]

theorem besideBody_add_bodyPart_le
    (language : Language) (node : Node) :
    Node.weightList (besideBody language node) +
        partsWeight (bodyPart language (bodyOf? language node)) ≤
      1 + Node.weightList node.children := by
  unfold besideBody bodyOf?
  cases bodyIndex? language node with
  | none => simp [bodyPart, partsWeight]
  | some index =>
      rw [Option.bind_some]
      cases hbody : node.children[index]? with
      | none =>
          have hlength := List.getElem?_eq_none_iff.mp hbody
          simp only [bodyPart, partsWeight, List.eraseIdx_of_length_le hlength]
          omega
      | some body =>
          have herase := weightList_eraseIdx hbody
          have hsignificant := weightList_significant_lt language body
          simp only [bodyPart, partsWeight, Part.weight]
          omega

/-- The parts of a try node weigh less than the node. -/
theorem partsWeight_tryParts_lt
    (language : Language) (node : Node) :
    1 + partsWeight (tryParts language node) < node.weight := by
  have hleading := partsWeight_leadingPart_le (leading language node)
  have hbeside := weightList_leading_le language node
  have hbody := besideBody_add_bodyPart_le language node
  have hclauses := partsWeight_clauses_le (language.significant node)
  have hsignificant := language.weightList_significant_le node
  rw [tryParts, partsWeight_append, partsWeight_append, Node.weight_eq]
  omega

theorem presentBody?_mem
    {context : Context} {node body : Node}
    (h : presentBody? (context.language.handlerParts context.source node) = some body) :
    body ∈ node.children := by
  obtain ⟨hbody, _⟩ := Option.filter_eq_some_iff.mp h
  exact Language.handlerParts_body_mem hbody

theorem node_mem_of_mem_significant
    {language : Language} {node : Node} {item : Placed}
    (h : item ∈ language.significant node) :
    item.node ∈ node.children := by
  obtain ⟨hmem, _⟩ := List.mem_filter.mp h
  obtain ⟨child, hchild, rfl⟩ := List.mem_map.mp hmem
  exact (List.mem_filter.mp hchild).1

theorem clauseBlock?_mem
    {language : Language} {node block : Node}
    (h : clauseBlock? language node = some block) :
    block ∈ node.children := by
  unfold clauseBlock? at h
  split at h
  · next body hfield =>
      cases h
      exact Node.childByField?_mem hfield
  · obtain ⟨item, hitem, rfl⟩ := Option.map_eq_some_iff.mp h
    exact node_mem_of_mem_significant (List.mem_of_find?_eq_some hitem)

end HandlerLint.Lowering
