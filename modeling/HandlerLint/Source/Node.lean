import HandlerLint.Text.Utf8
import HandlerLint.Model

/-!
# Parse trees

A file reaches the linter as the parse tree of its language: nodes with a kind, a
place in the source and the field under which they hang in their parent.  The
tree is built from its rows in preorder, each with its depth.

The weight of a node leaves room for each of its children to be visited twice.
It bounds every traversal that replaces a node by its children.
-/

namespace HandlerLint.Source

/-- What a parse tree says about one node, its children apart. -/
structure Label where
  kind : String
  /-- Whether the grammar names the node; punctuation and keywords are unnamed. -/
  named : Bool
  /-- Whether the parser made the node up to recover from an error. -/
  missing : Bool
  /-- The field under which the node hangs in its parent. -/
  field : Option String
  startByte : Nat
  endByte : Nat
  /-- Rows and columns count from zero, columns in bytes. -/
  startRow : Nat
  startCol : Nat
  endRow : Nat
  endCol : Nat
deriving DecidableEq, Repr, Inhabited

/-- A node of a parse tree. -/
inductive Node where
  | mk (label : Label) (children : List Node)

/-- A whole parse tree. -/
structure Tree where
  root : Node
  /-- Whether the source has syntax errors. -/
  hasError : Bool

/-- How the text of a language is turned into a parse tree. -/
abbrev Parser (Language : Type) :=
  Language → List UInt8 → Tree

namespace Node

instance : Inhabited Node := ⟨.mk default []⟩

/-- What the tree says about a node itself. -/
def label : Node → Label
  | .mk label _ => label

/-- The children of a node in source order. -/
def children : Node → List Node
  | .mk _ children => children

@[simp] theorem label_mk (label : Label) (children : List Node) :
    (Node.mk label children).label = label :=
  rfl

@[simp] theorem children_mk (label : Label) (children : List Node) :
    (Node.mk label children).children = children :=
  rfl

/-- The kind of a node. -/
def kind (node : Node) : String :=
  node.label.kind

/-- Whether the grammar names a node. -/
def isNamed (node : Node) : Bool :=
  node.label.named

/-- Whether the parser made a node up. -/
def isMissing (node : Node) : Bool :=
  node.label.missing

/-- The line a node starts on, counted from one. -/
def line (node : Node) : Nat :=
  node.label.startRow + 1

/-- Where a node stands, with lines and columns counted from one. -/
def span (node : Node) : Span :=
  { startByte := node.label.startByte
    endByte := node.label.endByte
    startLine := node.label.startRow + 1
    startCol := node.label.startCol + 1
    endLine := node.label.endRow + 1
    endCol := node.label.endCol + 1 }

/-- The named children of a node. -/
def namedChildren (node : Node) : List Node :=
  node.children.filter isNamed

/-- The first child under a field. -/
def childByField? (node : Node) (field : String) : Option Node :=
  node.children.find? (·.label.field == some field)

/-- The source text of a node; empty where it is not valid text. -/
def text (source : List UInt8) (node : Node) : String :=
  let bytes := (source.take node.label.endByte).drop node.label.startByte
  String.ofList ((Text.decode? bytes).getD [])

mutual

/-- A bound on the work that a node can cause. -/
def weight : Node → Nat
  | .mk _ children => 4 + 2 * weightList children

/-- The weights of some nodes together. -/
def weightList : List Node → Nat
  | [] => 0
  | node :: nodes => node.weight + weightList nodes

end

theorem childByField?_mem
    {node child : Node} {field : String}
    (h : node.childByField? field = some child) :
    child ∈ node.children :=
  List.mem_of_find?_eq_some h

theorem weight_eq
    (node : Node) :
    node.weight = 4 + 2 * weightList node.children := by
  cases node
  rw [weight]
  rfl

theorem weight_pos
    (node : Node) :
    0 < node.weight := by
  rw [weight_eq]
  omega

theorem weight_le_weightList
    {node : Node} {nodes : List Node} (h : node ∈ nodes) :
    node.weight ≤ weightList nodes := by
  induction nodes with
  | nil => cases h
  | cons first rest ih =>
      rw [weightList]
      rcases List.mem_cons.mp h with rfl | h
      · omega
      · have := ih h
        omega

theorem weightList_filter_le
    (p : Node → Bool) (nodes : List Node) :
    weightList (nodes.filter p) ≤ weightList nodes := by
  induction nodes with
  | nil => simp
  | cons first rest ih =>
      rw [List.filter_cons, weightList]
      split
      · rw [weightList]
        omega
      · omega

theorem weight_lt_of_mem_children
    {node child : Node} (h : child ∈ node.children) :
    child.weight < node.weight := by
  have := weight_le_weightList h
  rw [weight_eq node]
  omega

end Node

/-! ## Trees from rows -/

/-- A node whose later children are still to come, with the depth of its row and
the children seen so far, last first. -/
structure OpenNode where
  depth : Nat
  label : Label
  seen : List Node

/-- The finished node. -/
def OpenNode.close (node : OpenNode) : Node :=
  .mk node.label node.seen.reverse

/-- Close the innermost open nodes down to a depth, each into its parent.  The
outermost open node stays open. -/
def closeTo (depth : Nat) : List OpenNode → List OpenNode
  | inner :: outer :: rest =>
      if depth ≤ inner.depth then
        closeTo depth ({ outer with seen := inner.close :: outer.seen } :: rest)
      else
        inner :: outer :: rest
  | stack => stack
termination_by stack => stack.length

/-- Take in one more row. -/
def addRow (stack : List OpenNode) (row : Nat × Label) : List OpenNode :=
  { depth := row.1, label := row.2, seen := [] } :: closeTo row.1 stack

/-- The tree whose rows in preorder are given, if there is a row. -/
def Node.ofRows? (rows : List (Nat × Label)) : Option Node :=
  match closeTo 0 (rows.foldl addRow []) with
  | root :: _ => some root.close
  | [] => none

end HandlerLint.Source
