import HandlerLint.Language.Basic
import HandlerLint.Source.Node

/-!
# Roles of parse-tree nodes

What a node means to the linter depends on its kind, on the language and, for one
kind, on the parent.  A node is therefore always handed on together with the role
it plays where it stands.
-/

namespace HandlerLint

open Source

/-- What a node means to the linter. -/
inductive Role where
  /-- A try construct. -/
  | attempt
  /-- A handler of a try construct. -/
  | handler
  /-- The block that runs when nothing was raised. -/
  | orelse
  /-- The block that runs in any case. -/
  | finalizer
  /-- A block of statements. -/
  | block
  | expressionStatement
  /-- A throw, as a statement or as an expression. -/
  | throw
  | comment
  | other
deriving DecidableEq, Repr, Inhabited

/-- A node and the role it plays in its parent. -/
structure Placed where
  role : Role
  node : Node

namespace Placed

/-- The weights of some placed nodes together. -/
def weightList (items : List Placed) : Nat :=
  Node.weightList (items.map Placed.node)

@[simp] theorem weightList_nil :
    weightList [] = 0 := by
  simp [weightList, Node.weightList]

@[simp] theorem weightList_cons
    (item : Placed) (items : List Placed) :
    weightList (item :: items) = item.node.weight + weightList items := by
  simp [weightList, Node.weightList]

@[simp] theorem weightList_append
    (left right : List Placed) :
    weightList (left ++ right) = weightList left + weightList right := by
  induction left with
  | nil => simp
  | cons item left ih =>
      simp only [List.cons_append, weightList_cons, ih]
      omega

theorem weightList_filter_le
    (p : Placed → Bool) (items : List Placed) :
    weightList (items.filter p) ≤ weightList items := by
  induction items with
  | nil => simp
  | cons item items ih =>
      rw [List.filter_cons]
      split <;> simp only [weightList_cons] <;> omega

end Placed

namespace Language

/-- The role of a node of the C++ grammar. -/
def cppRole : String → Role
  | "try_statement" => .attempt
  | "catch_clause" => .handler
  | "compound_statement" => .block
  | "expression_statement" => .expressionStatement
  | "throw_statement" => .throw
  | "comment" => .comment
  | _ => .other

/-- The role of a node of the Java grammar. -/
def javaRole : String → Role
  | "try_statement" => .attempt
  | "try_with_resources_statement" => .attempt
  | "catch_clause" => .handler
  | "finally_clause" => .finalizer
  | "block" => .block
  | "expression_statement" => .expressionStatement
  | "throw_statement" => .throw
  | "line_comment" => .comment
  | "block_comment" => .comment
  | _ => .other

/-- The role of a node of the JavaScript and TypeScript grammars, which agree on
every kind that matters here. -/
def scriptRole : String → Role
  | "try_statement" => .attempt
  | "catch_clause" => .handler
  | "finally_clause" => .finalizer
  | "statement_block" => .block
  | "expression_statement" => .expressionStatement
  | "throw_statement" => .throw
  | "comment" => .comment
  | "html_comment" => .comment
  | _ => .other

/-- The role of a node of the Python grammar.  An `else` clause belongs to loops and
conditionals too; only that of a try statement is special. -/
def pythonRole (parentKind : String) : String → Role
  | "try_statement" => .attempt
  | "except_clause" => .handler
  | "except_group_clause" => .handler
  | "else_clause" => if parentKind == "try_statement" then .orelse else .other
  | "finally_clause" => .finalizer
  | "block" => .block
  | "expression_statement" => .expressionStatement
  | "raise_statement" => .throw
  | "comment" => .comment
  | _ => .other

/-- The role of a node of a given kind below a parent of a given kind. -/
def role (language : Language) (parentKind kind : String) : Role :=
  match language with
  | .cpp => cppRole kind
  | .java => javaRole kind
  | .javascript | .tsx | .typescript => scriptRole kind
  | .python => pythonRole parentKind kind

/-- A child of a node, with its role there. -/
def place (language : Language) (parent child : Node) : Placed :=
  { role := language.role parent.kind child.kind, node := child }

/-- The named children of a node that are not comments. -/
def significant (language : Language) (node : Node) : List Placed :=
  (node.namedChildren.map (language.place node)).filter (·.role != .comment)

theorem map_node_place
    (language : Language) (parent : Node) (nodes : List Node) :
    (nodes.map (language.place parent)).map Placed.node = nodes := by
  induction nodes with
  | nil => rfl
  | cons node nodes ih =>
      rw [List.map_cons, List.map_cons, ih]
      rfl

theorem weightList_significant_le
    (language : Language) (node : Node) :
    Placed.weightList (language.significant node) ≤ Node.weightList node.children := by
  have hfilter := Placed.weightList_filter_le (·.role != .comment)
    (node.namedChildren.map (language.place node))
  have hmap :
      Placed.weightList (node.namedChildren.map (language.place node)) =
        Node.weightList node.namedChildren := by
    rw [Placed.weightList, map_node_place]
  have hnamed := Node.weightList_filter_le Node.isNamed node.children
  rw [← Node.namedChildren] at hnamed
  rw [hmap] at hfilter
  exact Nat.le_trans hfilter hnamed

end Language

end HandlerLint
