import Mathlib.Data.List.Basic
import HandlerLint.Source.Node

/-!
# Changing a parse tree at one place

An address is a list of child indices that leads from a node to a node below it.  A parse
tree is changed at an address by changing the node there, or by putting some nodes in its
place, and all else is kept.

A node is unwrapped when its children are put in its place.  It is wrapped when a node
stands there that has it as its only child, or as the only child of its only child, and so
on.
-/

namespace HandlerLint.Source.Node

/-- The node with one of its children changed. -/
def changeChild (node : Node) (index : Nat) (change : Node → Node) : Node :=
  .mk node.label (node.children.modify index change)

/-- The node with the node at an address changed. -/
def changeAt (change : Node → Node) : List Nat → Node → Node
  | [], node => change node
  | index :: address, node => node.changeChild index (changeAt change address)

/-- The node with some nodes in the place of one of its children. -/
def spliceChild (node : Node) (index : Nat) (replace : Node → List Node) : Node :=
  .mk node.label
    (node.children.take index ++ node.children[index]?.elim [] replace ++
      node.children.drop (index + 1))

/-- The node with some nodes in the place of the node at an address.  The node itself has no
place. -/
def spliceAt (replace : Node → List Node) : List Nat → Node → Node
  | [], node => node
  | [index], node => node.spliceChild index replace
  | index :: next :: address, node =>
      node.changeChild index (spliceAt replace (next :: address))

/-- The node with the children of the node at an address in the place of that node. -/
def unwrapAt (address : List Nat) (node : Node) : Node :=
  node.spliceAt children address

/-- The node inside further nodes, the first one outermost. -/
def wrap : List Label → Node → Node
  | [], node => node
  | label :: labels, node => .mk label [node.wrap labels]

/-- The node with the node at an address wrapped. -/
def wrapAt (labels : List Label) (address : List Nat) (node : Node) : Node :=
  node.spliceAt (fun inner => [inner.wrap labels]) address

@[simp] theorem label_changeChild
    (node : Node) (index : Nat) (change : Node → Node) :
    (node.changeChild index change).label = node.label :=
  rfl

@[simp] theorem children_changeChild
    (node : Node) (index : Nat) (change : Node → Node) :
    (node.changeChild index change).children = node.children.modify index change :=
  rfl

@[simp] theorem kind_changeChild
    (node : Node) (index : Nat) (change : Node → Node) :
    (node.changeChild index change).kind = node.kind :=
  rfl

theorem changeAt_singleton
    (change : Node → Node) (index : Nat) (node : Node) :
    node.changeAt change [index] = node.changeChild index change :=
  rfl

/-- A change at an address below an address is a change at the first one. -/
theorem changeAt_append
    (change : Node → Node) (left right : List Nat) (node : Node) :
    node.changeAt change (left ++ right) = node.changeAt (changeAt change right) left := by
  induction left generalizing node with
  | nil => rfl
  | cons index left ih =>
      rw [List.cons_append, changeAt, changeAt]
      exact congrArg (node.changeChild index) (funext ih)

/-- Nodes are put in the place of a node by changing its parent. -/
theorem spliceAt_append
    (replace : Node → List Node) (address : List Nat) (index : Nat) (node : Node) :
    node.spliceAt replace (address ++ [index]) =
      node.changeAt (·.spliceChild index replace) address := by
  induction address generalizing node with
  | nil => rfl
  | cons first address ih =>
      obtain ⟨next, rest, hrest⟩ :=
        List.exists_cons_of_ne_nil (List.append_ne_nil_of_right_ne_nil address
          (List.cons_ne_nil index []))
      rw [List.cons_append, hrest, spliceAt, changeAt, ← hrest]
      exact congrArg (node.changeChild first) (funext ih)

/-- A change that keeps the label of the child keeps the labels of all children. -/
theorem map_label_changeChild
    {node : Node} {index : Nat} {change : Node → Node}
    (h : ∀ child ∈ node.children[index]?, (change child).label = child.label) :
    (node.changeChild index change).children.map label = node.children.map label := by
  apply List.ext_getElem?
  intro position
  rw [children_changeChild, List.getElem?_map, List.getElem?_map, List.getElem?_modify]
  cases hchild : node.children[position]? with
  | none => rfl
  | some child =>
      by_cases hindex : index = position
      · subst hindex
        simp [h child hchild]
      · simp [hindex]

end HandlerLint.Source.Node
