import HandlerLint.Proofs.Search.Replacement
import HandlerLint.Proofs.Source.Errors

/-!
# Nesting of expressions is transparent

In a container that searches through unremarkable nodes, such a node counts for nothing: it
may be replaced by its children, and any node may be wrapped in further ones.  The lowering
of the whole parse tree stays the same, statements and errors alike, so that expressions may
nest to any depth.

The role of a Python node can depend on its parent, but only on whether the parent is a try
node.  Neither an unremarkable node nor the node around it is one, so that the children of
the former keep their roles in the place of their parent.

There are two limits to this.  A node that marks a syntax error is unremarkable too, and
without it the source may have no syntax error, which the model of the file tells.  And where
a clause hangs under the field `body` of its try node, it is lowered both as the body and as
the clause, so that its exception types are searched through like a statement.
-/

namespace HandlerLint.Search

open Source
open Lowering

variable {context : Context}

/-! ## Where unremarkable nodes are searched through -/

/-- The nodes whose significant children are lowered in a container that searches through
unremarkable nodes: a visited node that is no try node, block or throw, and the expression
of a visited expression statement, unless it is a throw. -/
inductive Flattening (language : Language) (start : List Site) : Site → Prop
  | node {site : Site} :
      Visited language start site →
        site.role ∉ [Role.attempt, .block, .throw, .expressionStatement] →
          Flattening language start site
  | expression {statement expression : Site} {rest : List Site} :
      Visited language start statement → statement.role = .expressionStatement →
        statement.below language = expression :: rest → expression.role ≠ .throw →
          Flattening language start expression

/-- No try node that the search comes to is a direct child of an expression statement. -/
def NoTryExpressions (language : Language) (start : List Site) : Prop :=
  ∀ statement, Visited language start statement → statement.role = .expressionStatement →
    ∀ child ∈ statement.below language, child.role ≠ .attempt

instance (language : Language) (start : List Site) :
    Decidable (NoTryExpressions language start) :=
  decidable_of_iff _ (forall_visited_iff fun statement =>
    statement.role = .expressionStatement →
      ∀ child ∈ statement.below language, child.role ≠ .attempt)

/-- A visited site has the role that its node plays in some parent. -/
theorem exists_parent_of_visited
    {language : Language} {root : Node} {site : Site}
    (h : Visited language (rootSites language root) site) :
    ∃ parent, site.item = language.place parent site.node := by
  have hplaced :
      ∀ {address : List Nat} {parent : Node} {site : Site},
        site ∈ sitesBelow language address parent →
          ∃ parent, site.item = language.place parent site.node := by
    intro address parent site hsite
    obtain ⟨_, _, _, hplace⟩ := exists_index_of_mem_sitesBelow hsite
    exact ⟨parent, hplace⟩
  have hwithin :
      ∀ {outer : Site} {index : Option Nat} {site : Site},
        site ∈ outer.within language index →
          ∃ parent, site.item = language.place parent site.node := by
    intro outer index site hsite
    obtain ⟨_, _, _, _, hbelow⟩ := mem_within_iff.mp hsite
    exact hplaced hbelow
  cases h with
  | start hmem => exact hplaced hmem
  | @onward outer _ stage _ hstage hnext =>
      unfold stages at hstage
      split at hstage
      · rcases mem_tryStages_iff.mp hstage with rfl | rfl | ⟨clause, _, rfl⟩
        · exact hplaced (List.mem_filter.mp hnext).1
        · exact hwithin hnext
        · exact hwithin hnext
      · rw [List.mem_singleton] at hstage
        subst hstage
        have hnext : site ∈ openedSites language outer := hnext
        rcases openedSites_cases language outer with hnone | hbelow | ⟨expression, _, hinside⟩
        · rw [hnone] at hnext
          cases hnext
        · rw [hbelow] at hnext
          exact hplaced hnext
        · rw [hinside] at hnext
          exact hplaced hnext

/-! ## Roles below nodes that are no try nodes -/

/-- A node of this kind is a try node in every language and in every parent. -/
theorem role_try_statement
    (language : Language) (parentKind : String) :
    language.role parentKind "try_statement" = .attempt := by
  cases language <;> rfl

/-- Below nodes that are no try nodes, a node plays the same role. -/
theorem role_eq_of_kind_ne
    {language : Language} {left right : String} (hleft : left ≠ "try_statement")
    (hright : right ≠ "try_statement") (kind : String) :
    language.role left kind = language.role right kind := by
  cases language with
  | python =>
      unfold Language.role Language.pythonRole
      rw [beq_eq_false_iff_ne.mpr hleft, beq_eq_false_iff_ne.mpr hright]
  | _ => rfl

theorem kind_ne_of_role_ne
    {language : Language} {parent : Node} {site : Site}
    (hplace : site.item = language.place parent site.node) (hrole : site.role ≠ .attempt) :
    site.node.kind ≠ "try_statement" := by
  intro hkind
  apply hrole
  rw [Site.role, hplace, Language.place, hkind]
  exact role_try_statement language parent.kind

theorem Flattening.kind_ne
    {language : Language} {root : Node} {site : Site}
    (hexpressions : NoTryExpressions language (rootSites language root))
    (h : Flattening language (rootSites language root) site) :
    site.node.kind ≠ "try_statement" := by
  cases h with
  | node hvisited hrole =>
      obtain ⟨parent, hplace⟩ := exists_parent_of_visited hvisited
      apply kind_ne_of_role_ne hplace
      intro hattempt
      exact hrole (hattempt ▸ List.mem_cons_self)
  | @expression statement _ rest hvisited hrole hbelow _ =>
      have hmem : site ∈ statement.below language := hbelow ▸ List.mem_cons_self
      obtain ⟨_, _, _, hplace⟩ := exists_index_of_mem_sitesBelow hmem
      exact kind_ne_of_role_ne hplace (hexpressions statement hvisited hrole site hmem)

/-! ## Nodes in the place of a node -/

/-- The significant ones of some nodes, as children of a node. -/
def significantAmong (language : Language) (parent : Node) (nodes : List Node) :
    List Placed :=
  ((nodes.filter Node.isNamed).map (language.place parent)).filter (·.role != .comment)

theorem significantAmong_append
    (language : Language) (parent : Node) (left right : List Node) :
    significantAmong language parent (left ++ right) =
      significantAmong language parent left ++ significantAmong language parent right := by
  unfold significantAmong
  rw [List.filter_append, List.map_append, List.filter_append]

/-- Nodes are significant alike below nodes that are no try nodes. -/
theorem significantAmong_eq
    {language : Language} {left right : Node} (hleft : left.kind ≠ "try_statement")
    (hright : right.kind ≠ "try_statement") (nodes : List Node) :
    significantAmong language left nodes = significantAmong language right nodes := by
  have hplace : language.place left = language.place right := by
    funext node
    unfold Language.place
    rw [role_eq_of_kind_ne hleft hright]
  unfold significantAmong
  rw [hplace]

theorem significantAmong_singleton
    {language : Language} {parent node : Node} (hnamed : node.isNamed = true)
    (hrole : language.role parent.kind node.kind ≠ .comment) :
    significantAmong language parent [node] = [language.place parent node] := by
  have hkept : ((language.place parent node).role != .comment) = true := bne_iff_ne.mpr hrole
  unfold significantAmong
  rw [List.filter_cons_of_pos hnamed, List.filter_nil, List.map_singleton, List.filter_singleton,
    hkept]
  rfl

theorem significant_spliceChild
    {language : Language} {node child : Node} {index : Nat}
    (hchild : node.children[index]? = some child) (replace : Node → List Node) :
    language.significant (node.spliceChild index replace) =
      significantAmong language node (node.children.take index) ++
        significantAmong language node (replace child) ++
        significantAmong language node (node.children.drop (index + 1)) := by
  rw [← significantAmong_append, ← significantAmong_append]
  unfold Node.spliceChild
  rw [hchild]
  rfl

theorem spliceChild_singleton
    {node child : Node} {index : Nat} (hchild : node.children[index]? = some child) :
    node.spliceChild index (fun inner => [inner]) = node := by
  obtain ⟨label, children⟩ := node
  obtain ⟨hlt, hget⟩ := List.getElem?_eq_some_iff.mp hchild
  unfold Node.spliceChild
  rw [hchild]
  rw [Option.elim_some, List.append_assoc, List.singleton_append, ← hget,
    ← List.drop_eq_getElem_cons hlt, List.take_append_drop]
  rfl

/-- Nodes that are found to have the same inside them can be put in the place of a child
that is searched through. -/
theorem lowerItems_spliceChild
    {node child : Node} {index depth : Nat} {binding : Option String}
    {replace : Node → List Node}
    (hchild : node.children[index]? = some child)
    (h : ∀ depth binding,
      lowerItems context true depth binding
          (significantAmong context.language node (replace child)) =
        lowerItems context true depth binding
          (significantAmong context.language node [child])) :
    lowerItems context true depth binding
        (context.language.significant (node.spliceChild index replace)) =
      lowerItems context true depth binding (context.language.significant node) := by
  conv_rhs => rw [← spliceChild_singleton hchild]
  rw [significant_spliceChild hchild, significant_spliceChild hchild, lowerItems_append,
    lowerItems_append, h, ← lowerItems_append, ← lowerItems_append]

/-- Nodes that are found to have the same inside them can be put in the place of a node that
is searched through, and the statements of the parse tree stay as they are. -/
theorem statementsOf_spliceAt
    {root : Node} {parent site : Site} {replace : Node → List Node}
    (hblocks : BlockBodies context.language (rootSites context.language root))
    (hparent : Flattening context.language (rootSites context.language root) parent)
    (hsite : site ∈ parent.below context.language)
    (h : ∀ depth binding,
      lowerItems context true depth binding
          (significantAmong context.language parent.node (replace site.node)) =
        lowerItems context true depth binding [site.item]) :
    statementsOf context (root.spliceAt replace site.address) = statementsOf context root := by
  obtain ⟨index, child, hchild, rfl, hnamed, hrole⟩ := mem_sitesBelow_iff.mp hsite
  have hsingle := significantAmong_singleton hnamed hrole
  have hbelow :
      ∀ depth binding,
        lowerItems context true depth binding
            (context.language.significant parent.node) =
          lowerItems context true depth binding
            (context.language.significant (parent.node.spliceChild index replace)) := by
    intro depth binding
    refine (lowerItems_spliceChild hchild ?_).symm
    intro depth binding
    rw [hsingle]
    exact h depth binding
  rw [childSite, Node.spliceAt_append]
  -- The parent keeps its label, so it is interchangeable with what it was.
  cases hparent with
  | node hvisited hroles =>
      simp only [List.mem_cons, List.not_mem_nil, or_false, not_or] at hroles
      obtain ⟨hattempt, hblock, hthrow, hstatement⟩ := hroles
      apply statementsOf_changeAt hblocks hvisited
      refine interchangeable_of_below rfl rfl ⟨hattempt, hthrow, hstatement⟩ ?_
      intro depth binding
      have hflatten : (parent.item.role != .block) = true := bne_iff_ne.mpr hblock
      rw [hflatten]
      exact hbelow depth binding
  | @expression statement _ rest hvisited hstatement hfirst hthrow =>
      -- The expression itself is not visited; the statement that it belongs to is.
      have hmem : parent ∈ statement.below context.language := hfirst ▸ List.mem_cons_self
      obtain ⟨position, hposition, hinside, _⟩ := exists_index_of_mem_sitesBelow hmem
      rw [hposition, Node.changeAt_append]
      apply statementsOf_changeAt hblocks hvisited
      exact interchangeable_of_changed_expression hstatement hfirst hthrow hposition hinside rfl
        hbelow

/-! ## Unwrapping and wrapping -/

/-- Where unremarkable nodes are searched through, such a node alone gives what is found
inside it. -/
theorem lowerItems_singleton_of_other
    {depth : Nat} {binding : Option String} {item : Placed} (hrole : item.role = .other) :
    lowerItems context true depth binding [item] =
      lowerItems context true depth binding (context.language.significant item.node) := by
  have hthrough : (true && item.role == .other) = true := by
    rw [hrole]
    rfl
  rw [lowerItems_cons_of_through hthrough, lowerItems_nil]
  simp only [ok_bind, List.append_nil]
  exact bind_pure _

/-- Labels of named nodes that are unremarkable, the first one below a node of the given kind
and each other one below a node with the label ahead of it. -/
def Wraps (language : Language) : String → List Label → Prop
  | _, [] => True
  | parentKind, label :: labels =>
      label.named = true ∧ language.role parentKind label.kind = .other ∧
        Wraps language label.kind labels

theorem kind_ne_of_other
    {language : Language} {parentKind kind : String}
    (h : language.role parentKind kind = .other) :
    kind ≠ "try_statement" := by
  rintro rfl
  rw [role_try_statement] at h
  cases h

/-- An unremarkable node is still named and unremarkable when it is wrapped. -/
theorem Wraps.isNamed_and_role
    {language : Language} {parentKind : String} {labels : List Label} {node : Node}
    (h : Wraps language parentKind labels) (hnamed : node.isNamed = true)
    (hrole : language.role parentKind node.kind = .other) :
    (node.wrap labels).isNamed = true ∧
      language.role parentKind (node.wrap labels).kind = .other := by
  cases labels with
  | nil => exact ⟨hnamed, hrole⟩
  | cons label labels => exact ⟨h.1, h.2.1⟩

/-- Where unremarkable nodes are searched through, a wrapped node gives what the node itself
gives. -/
theorem Wraps.lowerItems_wrap
    {parent node : Node} {labels : List Label} {depth : Nat} {binding : Option String}
    (h : Wraps context.language parent.kind labels) (hparent : parent.kind ≠ "try_statement")
    (hnamed : node.isNamed = true)
    (hrole : context.language.role parent.kind node.kind ≠ .comment) :
    lowerItems context true depth binding
        (significantAmong context.language parent [node.wrap labels]) =
      lowerItems context true depth binding [context.language.place parent node] := by
  induction labels generalizing parent with
  | nil =>
      rw [Node.wrap, significantAmong_singleton hnamed hrole]
  | cons label labels ih =>
      obtain ⟨hlabel, hother, hinner⟩ := h
      let wrapper : Node := .mk label [node.wrap labels]
      have hwrapper : wrapper.kind ≠ "try_statement" := kind_ne_of_other hother
      have hsame :
          context.language.role wrapper.kind node.kind =
            context.language.role parent.kind node.kind :=
        role_eq_of_kind_ne hwrapper hparent node.kind
      have hone :
          significantAmong context.language parent [wrapper] =
            [context.language.place parent wrapper] :=
        significantAmong_singleton hlabel (hother.trans_ne (by decide))
      have hplace :
          context.language.place wrapper node = context.language.place parent node := by
        unfold Language.place
        rw [hsame]
      calc lowerItems context true depth binding
            (significantAmong context.language parent [node.wrap (label :: labels)])
        _ = lowerItems context true depth binding
              [context.language.place parent wrapper] :=
            congrArg _ hone
        _ = lowerItems context true depth binding
              (significantAmong context.language wrapper [node.wrap labels]) :=
            lowerItems_singleton_of_other hother
        _ = lowerItems context true depth binding [context.language.place wrapper node] :=
            ih hinner hwrapper (hsame ▸ hrole)
        _ = lowerItems context true depth binding [context.language.place parent node] := by
            rw [hplace]

/-- No significant child is ahead of the first one. -/
theorem significantAmong_take_of_first
    {language : Language} {address : List Nat} {node : Node} {first : Site} {rest : List Site}
    {index : Nat} (hbelow : sitesBelow language address node = first :: rest)
    (haddress : first.address = address ++ [index]) :
    significantAmong language node (node.children.take index) = [] := by
  obtain ⟨before, after, hsites, hbefore, _⟩ := List.filter_eq_cons_iff.mp hbelow
  have hat :
      ∀ position, (before ++ first :: after)[position]? =
        node.children[position]?.map fun child =>
          childSite language address node (child, position) := by
    intro position
    rw [← hsites, List.getElem?_map, List.getElem?_zipIdx, Option.map_map]
    simp only [Function.comp_def, Nat.zero_add]
  have hlength : before.length = index := by
    have hfirst := hat before.length
    rw [List.getElem?_append_right (Nat.le_refl _), Nat.sub_self] at hfirst
    obtain ⟨child, _, hchild⟩ := Option.map_eq_some_iff.mp hfirst.symm
    rw [← hchild] at haddress
    simpa [childSite] using haddress
  unfold significantAmong
  rw [List.filter_eq_nil_iff]
  intro item hitem hkept
  obtain ⟨child, hchild, rfl⟩ := List.mem_map.mp hitem
  obtain ⟨hmem, hnamed⟩ := List.mem_filter.mp hchild
  obtain ⟨position, hlt, hposition⟩ := List.mem_take_iff_getElem.mp hmem
  rw [Nat.lt_min, ← hlength] at hlt
  have hsite := hat position
  rw [List.getElem?_append_left hlt.1, List.getElem?_eq_getElem hlt.2, hposition] at hsite
  apply hbefore _ (List.mem_of_getElem? hsite)
  exact Bool.and_eq_true_iff.mpr ⟨hnamed, hkept⟩

/-- The expression of an expression statement can be wrapped, and the statements of the parse
tree stay as they are. -/
theorem statementsOf_wrapAt_expression
    {root : Node} {statement expression : Site} {rest : List Site} {labels : List Label}
    (hblocks : BlockBodies context.language (rootSites context.language root))
    (hvisited : Visited context.language (rootSites context.language root) statement)
    (hstatement : statement.role = .expressionStatement)
    (hbelow : statement.below context.language = expression :: rest)
    (hrole : expression.role = .other)
    (hwraps : Wraps context.language statement.node.kind labels) :
    statementsOf context (root.wrapAt labels expression.address) =
      statementsOf context root := by
  have hmem : expression ∈ statement.below context.language := hbelow ▸ List.mem_cons_self
  obtain ⟨index, child, hchild, rfl, hnamed, _⟩ := mem_sitesBelow_iff.mp hmem
  have hrole : context.language.role statement.node.kind child.kind = .other := hrole
  obtain ⟨hwrapNamed, hwrapRole⟩ := hwraps.isNamed_and_role hnamed hrole
  obtain ⟨parent, hplace⟩ := exists_parent_of_visited hvisited
  have hkind : statement.node.kind ≠ "try_statement" := by
    apply kind_ne_of_role_ne hplace
    rw [hstatement]
    decide
  have hsignificant :
      context.language.significant
          (statement.node.spliceChild index fun inner => [inner.wrap labels]) =
        context.language.place statement.node (child.wrap labels) ::
          significantAmong context.language statement.node
            (statement.node.children.drop (index + 1)) := by
    rw [significant_spliceChild hchild, significantAmong_take_of_first hbelow rfl,
      significantAmong_singleton hwrapNamed (hwrapRole.trans_ne (by decide))]
    rfl
  have hbefore := map_item_sitesBelow context.language statement.address statement.node
  have hbelow : sitesBelow context.language statement.address statement.node = _ := hbelow
  rw [hbelow, List.map_cons] at hbefore
  rw [Node.wrapAt, childSite, Node.spliceAt_append]
  apply statementsOf_changeAt hblocks hvisited
  refine interchangeable_of_expression rfl rfl hstatement hbefore.symm hsignificant ?_ ?_ ?_
  · exact hrole.trans_ne (by decide)
  · exact hwrapRole.trans_ne (by decide)
  · intro depth binding
    have hwrap :=
      @Wraps.lowerItems_wrap context statement.node child labels depth binding hwraps hkind hnamed
        (hrole.trans_ne (by decide))
    rw [significantAmong_singleton hwrapNamed (hwrapRole.trans_ne (by decide)),
      lowerItems_singleton_of_other hwrapRole, lowerItems_singleton_of_other hrole] at hwrap
    exact hwrap.symm

/-- An unremarkable node that is searched through can be unwrapped, and the statements of the
parse tree stay as they are. -/
theorem statementsOf_unwrapAt
    {root : Node} {parent site : Site}
    (hblocks : BlockBodies context.language (rootSites context.language root))
    (hexpressions : NoTryExpressions context.language (rootSites context.language root))
    (hparent : Flattening context.language (rootSites context.language root) parent)
    (hsite : site ∈ parent.below context.language) (hrole : site.role = .other) :
    statementsOf context (root.unwrapAt site.address) = statementsOf context root := by
  apply statementsOf_spliceAt hblocks hparent hsite
  intro depth binding
  obtain ⟨_, _, _, hplace⟩ := exists_index_of_mem_sitesBelow hsite
  have hinner : site.node.kind ≠ "try_statement" :=
    kind_ne_of_role_ne hplace (hrole.trans_ne (by decide))
  rw [significantAmong_eq (hparent.kind_ne hexpressions) hinner,
    lowerItems_singleton_of_other hrole]
  rfl

/-- Any node that is found where unremarkable nodes are searched through can be wrapped, and
the statements of the parse tree stay as they are. -/
theorem statementsOf_wrapAt
    {root : Node} {parent site : Site} {labels : List Label}
    (hblocks : BlockBodies context.language (rootSites context.language root))
    (hexpressions : NoTryExpressions context.language (rootSites context.language root))
    (hparent : Flattening context.language (rootSites context.language root) parent)
    (hsite : site ∈ parent.below context.language)
    (hwraps : Wraps context.language parent.node.kind labels) :
    statementsOf context (root.wrapAt labels site.address) = statementsOf context root := by
  apply statementsOf_spliceAt hblocks hparent hsite
  intro depth binding
  obtain ⟨_, child, _, rfl, hnamed, hrole⟩ := mem_sitesBelow_iff.mp hsite
  exact hwraps.lowerItems_wrap (hparent.kind_ne hexpressions) hnamed hrole

/-! ## Where visited nodes stand -/

/-- A site is in a parse tree: its node stands at its address. -/
def Site.IsIn (root : Node) (site : Site) : Prop :=
  root.at? site.address = some site.node

theorem isIn_of_mem_sitesBelow
    {language : Language} {root node : Node} {address : List Nat} {site : Site}
    (hat : root.at? address = some node) (h : site ∈ sitesBelow language address node) :
    site.IsIn root := by
  obtain ⟨index, haddress, hchild, -⟩ := exists_index_of_mem_sitesBelow h
  rw [Site.IsIn, haddress, Node.at?_append, hat, Option.bind_some, Node.at?, hchild]
  rfl

theorem Site.IsIn.within
    {language : Language} {root : Node} {site next : Site} {index : Option Nat}
    (h : site.IsIn root) (hnext : next ∈ site.within language index) :
    next.IsIn root := by
  obtain ⟨position, child, -, hchild, hbelow⟩ := mem_within_iff.mp hnext
  refine isIn_of_mem_sitesBelow ?_ hbelow
  rw [Node.at?_append, h, Option.bind_some, Node.at?, hchild]
  rfl

/-- A node that the search goes on to stands in the parse tree if the node before it does. -/
theorem Site.IsIn.onward
    {language : Language} {root : Node} {site next : Site} {stage : Stage}
    (h : site.IsIn root) (hstage : stage ∈ stages language site) (hnext : next ∈ stage.sites) :
    next.IsIn root := by
  unfold stages at hstage
  split at hstage
  · rcases mem_tryStages_iff.mp hstage with rfl | rfl | ⟨clause, hclause, rfl⟩
    · exact isIn_of_mem_sitesBelow h (List.mem_filter.mp hnext).1
    · exact h.within hnext
    · have hclause : clause.IsIn root := isIn_of_mem_sitesBelow h (mem_clauses_iff.mp hclause).1
      exact hclause.within hnext
  · rw [List.mem_singleton] at hstage
    subst hstage
    have hnext : next ∈ openedSites language site := hnext
    rcases openedSites_cases language site with hnone | hbelow | ⟨expression, hmem, hinside⟩
    · rw [hnone] at hnext
      cases hnext
    · rw [hbelow] at hnext
      exact isIn_of_mem_sitesBelow h hnext
    · rw [hinside] at hnext
      exact isIn_of_mem_sitesBelow (isIn_of_mem_sitesBelow h hmem) hnext

theorem isIn_of_visited
    {language : Language} {root : Node} {site : Site}
    (h : Visited language (rootSites language root) site) :
    site.IsIn root := by
  induction h with
  | start hmem => exact isIn_of_mem_sitesBelow rfl hmem
  | onward _ hstage hnext ih => exact ih.onward hstage hnext

theorem Flattening.isIn
    {language : Language} {root : Node} {site : Site}
    (h : Flattening language (rootSites language root) site) :
    site.IsIn root := by
  cases h with
  | node hvisited _ => exact isIn_of_visited hvisited
  | expression hvisited _ hbelow _ =>
      exact isIn_of_mem_sitesBelow (isIn_of_visited hvisited) (hbelow ▸ List.mem_cons_self)

/-! ## The whole file -/

theorem lower_congr
    {language : Language} {path : String} {source : List UInt8} {tree : Tree} {root : Node}
    (h : statementsOf { language, source } root = statementsOf { language, source } tree.root) :
    lower language path source { tree with root } = lower language path source tree := by
  rw [lower_eq_map_statementsOf, lower_eq_map_statementsOf, h]

/-- Nesting of expressions is transparent where bodies are blocks.  An unremarkable node that
is searched through may be replaced by its children.  A node that is found where unremarkable
nodes are searched through, and an unremarkable expression of an expression statement, may be
wrapped in any number of unremarkable nodes.  The result of lowering is the same each time, be
it a model or an error, and there are syntax errors in the parse tree as before, unless one
was unwrapped or wrapped around. -/
theorem expression_nesting_is_transparent
    {language : Language} {path : String} {source : List UInt8} {tree : Tree}
    (hblocks : BlockBodies language (rootSites language tree.root))
    (hexpressions : NoTryExpressions language (rootSites language tree.root)) :
    (∀ parent site,
        Flattening language (rootSites language tree.root) parent →
          site ∈ parent.below language → site.role = .other →
            lower language path source { tree with root := tree.root.unwrapAt site.address } =
                lower language path source tree ∧
              (site.node.label.isError = false →
                (tree.root.unwrapAt site.address).hasError = tree.root.hasError)) ∧
      (∀ parent site labels,
        Flattening language (rootSites language tree.root) parent →
          site ∈ parent.below language → Wraps language parent.node.kind labels →
            lower language path source
                  { tree with root := tree.root.wrapAt labels site.address } =
                lower language path source tree ∧
              ((∀ label ∈ labels, label.isError = false) →
                (tree.root.wrapAt labels site.address).hasError = tree.root.hasError)) ∧
      ∀ statement expression rest labels,
        Visited language (rootSites language tree.root) statement →
          statement.role = .expressionStatement →
            statement.below language = expression :: rest → expression.role = .other →
              Wraps language statement.node.kind labels →
                lower language path source
                      { tree with root := tree.root.wrapAt labels expression.address } =
                    lower language path source tree ∧
                  ((∀ label ∈ labels, label.isError = false) →
                    (tree.root.wrapAt labels expression.address).hasError =
                      tree.root.hasError) := by
  refine ⟨?_, ?_, ?_⟩
  · intro parent site hparent hsite hrole
    refine ⟨lower_congr (statementsOf_unwrapAt hblocks hexpressions hparent hsite hrole), ?_⟩
    exact Node.hasError_unwrapAt (isIn_of_mem_sitesBelow hparent.isIn hsite)
  · intro parent site labels hparent hsite hwraps
    refine ⟨lower_congr (statementsOf_wrapAt hblocks hexpressions hparent hsite hwraps), ?_⟩
    exact Node.hasError_wrapAt (isIn_of_mem_sitesBelow hparent.isIn hsite)
  · intro statement expression rest labels hvisited hstatement hbelow hrole hwraps
    refine ⟨lower_congr
      (statementsOf_wrapAt_expression hblocks hvisited hstatement hbelow hrole hwraps), ?_⟩
    exact Node.hasError_wrapAt
      (isIn_of_mem_sitesBelow (isIn_of_visited hvisited) (hbelow ▸ List.mem_cons_self))

/-- The label of an array on the first line of a file. -/
def arrayLabel : Label :=
  (lineNode "array" none 0 33 []).label

/-- An array in an array, with a function that tries in it. -/
def arraysSource : List UInt8 :=
  "[[() => { try {} catch (e) {} }]]".toUTF8.toList

/-- The parse tree of an array in an array. -/
def arraysTree : Tree :=
  { root :=
      lineNode "program" none 0 33
        [lineNode "expression_statement" none 0 33
          [lineNode "array" none 0 33
            [lineNode "array" none 1 32
              [lineNode "arrow_function" none 2 31
                [lineNode "formal_parameters" (some "parameters") 2 4 [],
                  lineNode "statement_block" (some "body") 8 31
                    [lineNode "try_statement" none 10 29
                      [lineNode "statement_block" (some "body") 14 16 [],
                        lineNode "catch_clause" (some "handler") 17 29
                          [lineNode "identifier" (some "parameter") 24 25 [],
                            lineNode "statement_block" (some "body") 27 29 []]]]]]]]]
    hasError := false }

/-- An array around a function that tries makes no difference, and neither do further arrays
around it. -/
theorem arrays_are_transparent :
    (lower .javascript "a.js" arraysSource arraysTree).isOk = true ∧
      lower .javascript "a.js" arraysSource
          { arraysTree with root := arraysTree.root.unwrapAt [0, 0, 0] } =
        lower .javascript "a.js" arraysSource arraysTree ∧
      lower .javascript "a.js" arraysSource
          { arraysTree with root := arraysTree.root.wrapAt (List.replicate 2 arrayLabel) [0, 0] } =
        lower .javascript "a.js" arraysSource arraysTree := by
  have hblocks : BlockBodies .javascript (rootSites .javascript arraysTree.root) := by
    decide +kernel
  have hexpressions : NoTryExpressions .javascript (rootSites .javascript arraysTree.root) := by
    decide +kernel
  -- The statement, the outer array and the inner one.
  obtain ⟨statement, expression, inner, hroot, hstatement, hbelow, hrole, haddress, hinside,
      hinnerRole, hinnerAddress, hwraps⟩ :
      ∃ statement expression inner : Site,
        rootSites .javascript arraysTree.root = [statement] ∧
          statement.role = .expressionStatement ∧
          statement.below .javascript = [expression] ∧ expression.role = .other ∧
          expression.address = [0, 0] ∧
          expression.below .javascript = [inner] ∧ inner.role = .other ∧
          inner.address = [0, 0, 0] ∧
          Wraps .javascript statement.node.kind (List.replicate 2 arrayLabel) :=
    ⟨_, _, _, rfl, rfl, rfl, rfl, rfl, rfl, rfl, rfl, rfl, rfl, rfl, rfl, trivial⟩
  have hvisited : Visited .javascript (rootSites .javascript arraysTree.root) statement :=
    .start (hroot ▸ List.mem_cons_self)
  obtain ⟨hunwrap, _, hwrap⟩ :=
    @expression_nesting_is_transparent _ "a.js" arraysSource _ hblocks hexpressions
  refine ⟨by decide +kernel, ?_, ?_⟩
  · rw [← hinnerAddress]
    refine (hunwrap expression inner ?_ (hinside ▸ List.mem_cons_self) hinnerRole).1
    exact .expression hvisited hstatement hbelow (hrole.trans_ne (by decide))
  · rw [← haddress]
    exact (hwrap statement expression [] _ hvisited hstatement hbelow hrole hwraps).1

/-- A try node whose only clause hangs under the field `body`. -/
def clauseBodySource : List UInt8 :=
  "try catch (E e) {}".toUTF8.toList

/-- The parse tree in which a clause is the body of its try node. -/
def clauseBodyTree : Tree :=
  .ofRoot
    (lineNode "program" none 0 18
      [lineNode "try_statement" none 0 18
        [lineNode "catch_clause" (some "body") 4 18
          [lineNode "catch_formal_parameter" none 11 14
            [lineNode "catch_type" none 11 12
              [lineNode "type_identifier" none 11 12 []],
              lineNode "identifier" (some "name") 13 14 []],
            lineNode "block" (some "body") 16 18 []]]])

/-- A class with a clause that the parser can not read. -/
def strayClauseSource : List UInt8 :=
  "class A:\n    except E:\n        raise\n".toUTF8.toList

/-- The parse tree of a class with a clause that the parser can not read. -/
def strayClauseTree : Tree :=
  .ofRoot
    (.mk ⟨"module", true, false, none, 0, 37, 0, 0, 3, 0⟩
      [.mk ⟨"class_definition", true, false, none, 0, 36, 0, 0, 2, 13⟩
        [.mk ⟨"class", false, false, none, 0, 5, 0, 0, 0, 5⟩ [],
          .mk ⟨"identifier", true, false, some "name", 6, 7, 0, 6, 0, 7⟩ [],
          .mk ⟨":", false, false, none, 7, 8, 0, 7, 0, 8⟩ [],
          .mk ⟨"ERROR", true, false, none, 13, 19, 1, 4, 1, 10⟩
            [.mk ⟨"identifier", true, false, none, 13, 19, 1, 4, 1, 10⟩ []],
          .mk ⟨"block", true, false, some "body", 20, 36, 1, 11, 2, 13⟩
            [.mk ⟨"expression_statement", true, false, none, 20, 36, 1, 11, 2, 13⟩
              [.mk ⟨"assignment", true, false, none, 20, 36, 1, 11, 2, 13⟩
                [.mk ⟨"identifier", true, false, some "left", 20, 21, 1, 11, 1, 12⟩ [],
                  .mk ⟨":", false, false, none, 21, 22, 1, 12, 1, 13⟩ [],
                  .mk ⟨"type", true, false, some "type", 31, 36, 2, 8, 2, 13⟩
                    [.mk ⟨"identifier", true, false, none, 31, 36, 2, 8, 2, 13⟩ []]]]]]])

/-- The exception types of a clause that is the body of its try node are searched through, and
unwrapping them changes the model. -/
theorem clauseBodyTree_types_show :
    NoTryExpressions .java (rootSites .java clauseBodyTree.root) ∧
      ∃ parent site, Flattening .java (rootSites .java clauseBodyTree.root) parent ∧
        site ∈ parent.below .java ∧ site.role = .other ∧
        lower .java "A.java" clauseBodySource
            (.ofRoot (clauseBodyTree.root.unwrapAt site.address)) ≠
          lower .java "A.java" clauseBodySource clauseBodyTree := by
  refine ⟨by decide +kernel, ?_⟩
  obtain ⟨attempt, parameter, types, hroot, hattempt, hbody, hrole, hbelow, htypes, haddress⟩ :
      ∃ attempt parameter types : Site,
        rootSites .java clauseBodyTree.root = [attempt] ∧ attempt.role = .attempt ∧
          parameter ∈ attempt.within .java (bodyIndex? .java attempt.node) ∧
          parameter.role = .other ∧ types ∈ parameter.below .java ∧ types.role = .other ∧
          types.address = [0, 0, 0, 0] :=
    ⟨_, _, _, rfl, rfl, List.mem_cons_self, rfl, List.mem_cons_self, rfl, rfl⟩
  have hvisited : Visited .java (rootSites .java clauseBodyTree.root) parameter := by
    have hstage :
        ({ clause := none, sites := attempt.within .java (bodyIndex? .java attempt.node) } :
          Stage) ∈ stages .java attempt := by
      rw [stages, hattempt]
      exact mem_tryStages_iff.mpr (.inr (.inl rfl))
    exact .onward (.start (hroot ▸ List.mem_cons_self)) hstage hbody
  refine ⟨parameter, types, .node hvisited (by simp [hrole]), hbelow, htypes, fun hsame => ?_⟩
  have hmodels :=
    congrArg (fun result => result.toOption.map fun model =>
      model.classifyAll.map fun finding => finding.clause.types) hsame
  rw [haddress] at hmodels
  revert hmodels
  decide +kernel

/-- A syntax error is searched through, and without it the source has none. -/
theorem strayClauseTree_error_shows :
    BlockBodies .python (rootSites .python strayClauseTree.root) ∧
      NoTryExpressions .python (rootSites .python strayClauseTree.root) ∧
      ∃ parent site, Flattening .python (rootSites .python strayClauseTree.root) parent ∧
        site ∈ parent.below .python ∧ site.role = .other ∧
        lower .python "m.py" strayClauseSource
            (.ofRoot (strayClauseTree.root.unwrapAt site.address)) ≠
          lower .python "m.py" strayClauseSource strayClauseTree := by
  refine ⟨by decide +kernel, by decide +kernel, ?_⟩
  obtain ⟨parent, site, hroot, hrole, hbelow, hother, haddress⟩ :
      ∃ parent site : Site,
        rootSites .python strayClauseTree.root = [parent] ∧ parent.role = .other ∧
          site ∈ parent.below .python ∧ site.role = .other ∧ site.address = [0, 3] :=
    ⟨_, _, rfl, rfl, List.mem_cons_of_mem _ List.mem_cons_self, rfl, rfl⟩
  have hvisited : Visited .python (rootSites .python strayClauseTree.root) parent :=
    .start (hroot ▸ List.mem_cons_self)
  refine ⟨parent, site, .node hvisited (by simp [hrole]), hbelow, hother, fun hsame => ?_⟩
  have hflags := congrArg (fun result => result.toOption.map (·.hasParseErrors)) hsame
  rw [haddress] at hflags
  revert hflags
  decide +kernel

/-- Nesting is not transparent for every parse tree: unwrapping can change the exception types
of a clause that is the body of its try node, and it can take a syntax error away. -/
theorem unwrapping_can_show :
    (NoTryExpressions .java (rootSites .java clauseBodyTree.root) ∧
      ∃ parent site, Flattening .java (rootSites .java clauseBodyTree.root) parent ∧
        site ∈ parent.below .java ∧ site.role = .other ∧
        lower .java "A.java" clauseBodySource
            (.ofRoot (clauseBodyTree.root.unwrapAt site.address)) ≠
          lower .java "A.java" clauseBodySource clauseBodyTree) ∧
    NoTryExpressions .python (rootSites .python strayClauseTree.root) ∧
      ∃ parent site, Flattening .python (rootSites .python strayClauseTree.root) parent ∧
        site ∈ parent.below .python ∧ site.role = .other ∧
        lower .python "m.py" strayClauseSource
            (.ofRoot (strayClauseTree.root.unwrapAt site.address)) ≠
          lower .python "m.py" strayClauseSource strayClauseTree :=
  ⟨clauseBodyTree_types_show, strayClauseTree_error_shows.2⟩

end HandlerLint.Search
