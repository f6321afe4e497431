import HandlerLint.Source.Node

/-!
# Properties of whole parse trees

A parse tree is well formed when every node of it fits the nodes directly below it.  Such
a condition looks at one node and its children; here it is asked of a node and of all that
is below it.
-/

namespace HandlerLint.Source.Node

variable (property : Node → Prop)

mutual

/-- Whether a property holds of a node and of every node below it. -/
def Everywhere : Node → Prop
  | .mk label children => property (.mk label children) ∧ EverywhereIn children

/-- Whether a property holds of some nodes and of every node below them. -/
def EverywhereIn : List Node → Prop
  | [] => True
  | node :: nodes => node.Everywhere ∧ EverywhereIn nodes

end

variable {property}

theorem everywhereIn_iff
    {nodes : List Node} :
    EverywhereIn property nodes ↔ ∀ node ∈ nodes, node.Everywhere property := by
  induction nodes with
  | nil => simp [EverywhereIn]
  | cons node nodes ih => rw [EverywhereIn, ih, List.forall_mem_cons]

theorem everywhere_iff
    {node : Node} :
    node.Everywhere property ↔
      property node ∧ ∀ child ∈ node.children, child.Everywhere property := by
  cases node
  rw [Everywhere, everywhereIn_iff]
  rfl

theorem Everywhere.here
    {node : Node} (h : node.Everywhere property) :
    property node :=
  (everywhere_iff.mp h).1

theorem Everywhere.below
    {node child : Node} (h : node.Everywhere property) (hchild : child ∈ node.children) :
    child.Everywhere property :=
  (everywhere_iff.mp h).2 child hchild

mutual

instance decidableEverywhere [DecidablePred property] :
    (node : Node) → Decidable (node.Everywhere property)
  | .mk label children =>
      have := decidableEverywhereIn children
      inferInstanceAs (Decidable (property (.mk label children) ∧ EverywhereIn property children))

instance decidableEverywhereIn [DecidablePred property] :
    (nodes : List Node) → Decidable (EverywhereIn property nodes)
  | [] => inferInstanceAs (Decidable True)
  | node :: nodes =>
      have := decidableEverywhere node
      have := decidableEverywhereIn nodes
      inferInstanceAs (Decidable (node.Everywhere property ∧ EverywhereIn property nodes))

end

end HandlerLint.Source.Node
