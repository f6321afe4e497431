import HandlerLint.Proofs.Source.Change

/-!
# Syntax errors in a parse tree

A parser marks what it can not read with nodes of the kind `ERROR` and makes up nodes that
are missing.  A parse tree has syntax errors if it has such a node anywhere.

Nodes that are put in the place of a node leave this as it is if one of them has an error
exactly if the node had one.  A wrapped node has the errors of the node, as long as what it
is wrapped in is no error itself.  A node that is unwrapped takes its own error with it.
-/

namespace HandlerLint.Source

/-- Whether a node marks a syntax error itself. -/
def Label.isError (label : Label) : Bool :=
  label.kind == "ERROR" || label.missing

namespace Node

mutual

/-- Whether there is a syntax error at a node or below it. -/
def hasError : Node → Bool
  | .mk label children => label.isError || hasErrorAmong children

/-- Whether there is a syntax error at some nodes or below them. -/
def hasErrorAmong : List Node → Bool
  | [] => false
  | node :: nodes => node.hasError || hasErrorAmong nodes

end

/-- The node at an address below a node. -/
def at? : List Nat → Node → Option Node
  | [], node => some node
  | index :: address, node => node.children[index]?.bind (at? address)

theorem hasError_eq
    (node : Node) :
    node.hasError = (node.label.isError || hasErrorAmong node.children) := by
  cases node
  rw [hasError]
  rfl

theorem hasErrorAmong_eq_any
    (nodes : List Node) :
    hasErrorAmong nodes = nodes.any hasError := by
  induction nodes with
  | nil => rw [hasErrorAmong, List.any_nil]
  | cons node nodes ih => rw [hasErrorAmong, List.any_cons, ih]

theorem hasErrorAmong_append
    (left right : List Node) :
    hasErrorAmong (left ++ right) = (hasErrorAmong left || hasErrorAmong right) := by
  rw [hasErrorAmong_eq_any, hasErrorAmong_eq_any, hasErrorAmong_eq_any, List.any_append]

/-- Some nodes have an error if those ahead of one of them, that one or those after it do. -/
theorem hasErrorAmong_of_getElem?
    {nodes : List Node} {index : Nat} {child : Node} (h : nodes[index]? = some child) :
    hasErrorAmong nodes =
      (hasErrorAmong (nodes.take index) || child.hasError ||
        hasErrorAmong (nodes.drop (index + 1))) := by
  obtain ⟨hlt, rfl⟩ := List.getElem?_eq_some_iff.mp h
  conv_lhs => rw [← List.take_append_drop index nodes, List.drop_eq_getElem_cons hlt]
  rw [hasErrorAmong_append, hasErrorAmong, Bool.or_assoc]

theorem hasError_spliceChild
    {node child : Node} {index : Nat} {replace : Node → List Node}
    (hchild : node.children[index]? = some child)
    (h : hasErrorAmong (replace child) = child.hasError) :
    (node.spliceChild index replace).hasError = node.hasError := by
  rw [hasError_eq node, hasErrorAmong_of_getElem? hchild, spliceChild, hasError, hchild,
    Option.elim_some, hasErrorAmong_append, hasErrorAmong_append, h]

theorem hasError_changeChild
    {node child : Node} {index : Nat} {change : Node → Node}
    (hchild : node.children[index]? = some child)
    (h : (change child).hasError = child.hasError) :
    (node.changeChild index change).hasError = node.hasError := by
  have hchanged : (node.changeChild index change).children[index]? = some (change child) := by
    rw [children_changeChild, List.getElem?_modify_eq, hchild]
    rfl
  rw [hasError_eq node, hasErrorAmong_of_getElem? hchild, hasError_eq,
    hasErrorAmong_of_getElem? hchanged, label_changeChild, children_changeChild,
    List.take_modify, List.drop_modify_of_lt _ _ _ _ (Nat.lt_succ_self index), h,
    List.modify_eq_self (List.length_take_le index node.children)]

/-- Nodes in the place of a node leave the tree its errors if they have those of the node. -/
theorem hasError_spliceAt
    {root inner : Node} {address : List Nat} {replace : Node → List Node}
    (hat : root.at? address = some inner)
    (h : hasErrorAmong (replace inner) = inner.hasError) :
    (root.spliceAt replace address).hasError = root.hasError := by
  induction address generalizing root with
  | nil => rfl
  | cons index address ih =>
      rw [at?] at hat
      obtain ⟨child, hchild, hinner⟩ := Option.bind_eq_some_iff.mp hat
      cases address with
      | nil =>
          cases hinner
          exact hasError_spliceChild hchild h
      | cons next address => exact hasError_changeChild hchild (ih hinner)

theorem hasError_unwrapAt
    {root inner : Node} {address : List Nat} (hat : root.at? address = some inner)
    (h : inner.label.isError = false) :
    (root.unwrapAt address).hasError = root.hasError := by
  apply hasError_spliceAt hat
  rw [hasError_eq, h, Bool.false_or]

theorem hasError_wrap
    {labels : List Label} (h : ∀ label ∈ labels, label.isError = false) (node : Node) :
    (node.wrap labels).hasError = node.hasError := by
  induction labels with
  | nil => rfl
  | cons label labels ih =>
      rw [List.forall_mem_cons] at h
      rw [wrap, hasError, h.1, Bool.false_or, hasErrorAmong, hasErrorAmong, Bool.or_false, ih h.2]

theorem hasError_wrapAt
    {root inner : Node} {address : List Nat} {labels : List Label}
    (hat : root.at? address = some inner) (h : ∀ label ∈ labels, label.isError = false) :
    (root.wrapAt labels address).hasError = root.hasError := by
  apply hasError_spliceAt hat
  rw [hasErrorAmong, hasErrorAmong, Bool.or_false, hasError_wrap h]

theorem at?_append
    (left right : List Nat) (node : Node) :
    node.at? (left ++ right) = (node.at? left).bind (at? right) := by
  induction left generalizing node with
  | nil => rfl
  | cons index left ih =>
      rw [List.cons_append, at?, at?, Option.bind_assoc]
      exact congrArg _ (funext ih)

end Node

/-- A parse tree as a parser gives it: there are syntax errors if a node marks one. -/
def Tree.ofRoot (root : Node) : Tree :=
  { root, hasError := root.hasError }

end HandlerLint.Source
