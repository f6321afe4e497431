import HandlerLint.Proofs.Search.ChangedChild

/-!
# An interchangeable node in the place of a visited one

A visited node may be changed to an interchangeable one without any trace in the statements
of the parse tree.  The change is carried up the way of the search: with it, each node on the
way is interchangeable with what it was.

A node on the way must be lowered in one place only.  A body that is a clause as well would
be lowered twice, and a body that is read as the parameter of its handler would show in the
types of the handler.  Neither can be where the child under the field `body` of a try node
or of a handler is a block, as it is in every grammar.
-/

namespace HandlerLint.Search

open Source
open Lowering

variable {context : Context}

/-! ## Clauses -/

/-- A handler asks for what it did when the nodes below its body are changed to
interchangeable ones. -/
theorem samePart_handler
    {left right clause body : Node} {index : Nat} {change : Node → Node}
    (hblock : BlockBody context.language clause)
    (hindex : presentBodyIndex? context.language clause = some index)
    (hbody : clause.children[index]? = some body)
    (hlabel : (change body).label = body.label)
    (hitems : List.Forall₂ (Interchangeable context) (context.language.significant body)
      (context.language.significant (change body))) :
    SamePart context left right (.handler clause)
      (.handler (clause.changeChild index change)) := by
  obtain ⟨htypes, hbinding⟩ :=
    @handlerParts_changeChild _ context.source _ _ _ _ hblock hindex hbody hlabel
  have hbefore := presentBody?_eq context.language context.source clause
  rw [hindex, Option.bind_some, hbody] at hbefore
  have hafter :=
    presentBody?_eq context.language context.source (clause.changeChild index change)
  rw [presentBodyIndex?_changeChild (labels_of_child hbody hlabel), hindex, Option.bind_some,
    getElem?_changeChild_self hbody] at hafter
  have hblank :
      blankClause (clause.changeChild index change)
          (context.language.handlerParts context.source (clause.changeChild index change)) =
        blankClause clause (context.language.handlerParts context.source clause) := by
    unfold blankClause
    rw [htypes, hbinding]
    rfl
  intro binding depth construct
  rw [Part.demand, Part.demand]
  simp only [hbefore, hafter, hblank]
  exact meet_container_congr (Node.label_changeChild ..).symm fun _ _ => lowerItems_congr hitems

/-- An `else` or `finally` clause asks for what it did when the nodes below its block are
changed to interchangeable ones. -/
theorem meet_blockDemand_congr
    {clause body : Node} {index depth : Nat} {binding : Option String} {change : Node → Node}
    {construct : TryConstruct} {fill : List Statement → TryConstruct → TryConstruct}
    (hindex : bodyIndex? context.language clause = some index)
    (hbody : clause.children[index]? = some body)
    (hlabel : (change body).label = body.label)
    (hitems : List.Forall₂ (Interchangeable context) (context.language.significant body)
      (context.language.significant (change body))) :
    (blockDemand context binding clause fill).meet context depth construct =
      (blockDemand context binding (clause.changeChild index change) fill).meet context depth
        construct := by
  have hbefore := clauseBlock?_eq_bodyOf? context.language clause
  rw [bodyOf?, hindex, Option.bind_some, hbody] at hbefore
  have hafter := clauseBlock?_eq_bodyOf? context.language (clause.changeChild index change)
  rw [bodyOf?, bodyIndex?_changeChild (labels_of_child hbody hlabel), hindex, Option.bind_some,
    getElem?_changeChild_self hbody] at hafter
  unfold blockDemand
  simp only [hbefore, hafter]
  exact meet_container_congr (Node.label_changeChild ..).symm fun _ _ => lowerItems_congr hitems

/-- A clause of a try node asks for what it did when the nodes below its body are changed to
interchangeable ones. -/
theorem rel_clausePart?
    {left right body : Node} {clause : Site} {index : Nat} {change : Node → Node}
    (hblock : clause.role = .handler → BlockBody context.language clause.node)
    (hindex : clauseBodyIndex? context.language clause = some index)
    (hbody : clause.node.children[index]? = some body)
    (hlabel : (change body).label = body.label)
    (hitems : List.Forall₂ (Interchangeable context) (context.language.significant body)
      (context.language.significant (change body))) :
    Option.Rel (SamePart context left right) (clausePart? clause.item)
      (clausePart?
        { role := clause.role, node := clause.node.changeChild index change }) := by
  unfold clausePart? Site.role
  cases hrole : clause.item.role with
  | handler =>
      have hrole : clause.role = .handler := hrole
      rw [clauseBodyIndex?, if_pos hrole] at hindex
      exact .some (samePart_handler (hblock hrole) hindex hbody hlabel hitems)
  | orelse =>
      have hrole : clause.role = .orelse := hrole
      rw [clauseBodyIndex?, hrole, if_neg (by decide)] at hindex
      exact .some fun _ _ _ => meet_blockDemand_congr hindex hbody hlabel hitems
  | finalizer =>
      have hrole : clause.role = .finalizer := hrole
      rw [clauseBodyIndex?, hrole, if_neg (by decide)] at hindex
      exact .some fun _ _ _ => meet_blockDemand_congr hindex hbody hlabel hitems
  | _ => exact .none

/-! ## One step of the way -/

/-- A try node whose body is a block, and whose handlers have blocks as bodies, wherever the
field `body` says what the body is. -/
structure BlockBodiesOf (language : Language) (site : Site) : Prop where
  own : BlockBody language site.node
  handlers : ∀ handler ∈ site.childrenAs language .handler, BlockBody language handler.node

instance (language : Language) (site : Site) : Decidable (BlockBodiesOf language site) :=
  decidable_of_iff
    (BlockBody language site.node ∧
      ∀ handler ∈ site.childrenAs language .handler, BlockBody language handler.node)
    ⟨fun h => ⟨h.1, h.2⟩, fun h => ⟨h.own, h.handlers⟩⟩

/-- The body of a try node is a block. -/
theorem BlockBody.role_of_bodyIndex?
    {language : Language} {node child : Node} {index : Nat} (h : BlockBody language node)
    (hindex : bodyIndex? language node = some index)
    (hchild : node.children[index]? = some child) :
    language.role node.kind child.kind = .block := by
  unfold bodyIndex? at hindex
  split at hindex
  · next found hfound =>
      cases hindex
      apply h
      rw [Node.childByField?, List.find?_eq_bind_findIdx?_getElem?, hfound]
      exact hchild
  · obtain ⟨hlt, hfound, _⟩ := List.findIdx?_eq_some_iff_getElem.mp hindex
    rw [List.getElem?_eq_getElem hlt, Option.some.injEq] at hchild
    rw [hchild, Bool.and_eq_true, beq_iff_eq] at hfound
    exact hfound.2

/-- A site below a node is that of one of its children. -/
theorem exists_index_of_mem_sitesBelow
    {language : Language} {address : List Nat} {node : Node} {site : Site}
    (h : site ∈ sitesBelow language address node) :
    ∃ index, site.address = address ++ [index] ∧
      node.children[index]? = some site.node ∧ site.item = language.place node site.node := by
  obtain ⟨index, child, hchild, rfl, _⟩ := mem_sitesBelow_iff.mp h
  exact ⟨index, rfl, hchild, rfl⟩

/-- With a child changed to an interchangeable one, a node has interchangeable nodes below
it. -/
theorem forall₂_significant_of_site
    {node : Node} {site : Site} {index : Nat} {change : Node → Node}
    (hchild : node.children[index]? = some site.node)
    (hplace : site.item = context.language.place node site.node)
    (h : Interchangeable context site.item { role := site.role, node := change site.node }) :
    List.Forall₂ (Interchangeable context) (context.language.significant node)
      (context.language.significant (node.changeChild index change)) := by
  have hlabel : (change site.node).label = site.node.label := h.label.symm
  apply forall₂_significant_changeChild hchild
  rw [place_of_label_eq context.language node hlabel, ← hplace]
  exact h

/-- The step from a node that is no try node and no expression statement. -/
theorem interchangeable_of_mem_below
    {site next : Site} {change : Node → Node}
    (hopens : site.role ≠ .attempt ∧ site.role ≠ .throw ∧ site.role ≠ .expressionStatement)
    (hnext : next ∈ site.below context.language)
    (h : Interchangeable context next.item { role := next.role, node := change next.node }) :
    ∃ address, next.address = site.address ++ address ∧
      Interchangeable context site.item
        { role := site.role, node := site.node.changeAt change address } := by
  obtain ⟨index, haddress, hchild, hplace⟩ := exists_index_of_mem_sitesBelow hnext
  refine ⟨[index], haddress, interchangeable_of_below rfl rfl hopens ?_⟩
  intro depth binding
  exact lowerItems_congr (forall₂_significant_of_site hchild hplace h)

/-- An expression statement is interchangeable with what it was if what is below its
expression is lowered to the same. -/
theorem interchangeable_of_changed_expression
    {site expression : Site} {rest : List Site} {index : Nat} {change : Node → Node}
    (hstatement : site.role = .expressionStatement)
    (hbelow : site.below context.language = expression :: rest)
    (hthrow : expression.role ≠ .throw)
    (haddress : expression.address = site.address ++ [index])
    (hchild : site.node.children[index]? = some expression.node)
    (hlabel : (change expression.node).label = expression.node.label)
    (h : ∀ depth binding,
      lowerItems context true depth binding
          (context.language.significant expression.node) =
        lowerItems context true depth binding
          (context.language.significant (change expression.node))) :
    Interchangeable context site.item
      { role := site.role, node := site.node.changeChild index change } := by
  have hbelow : sitesBelow context.language site.address site.node = expression :: rest :=
    hbelow
  have hbefore := map_item_sitesBelow context.language site.address site.node
  have hafter :=
    map_item_sitesBelow context.language site.address (site.node.changeChild index change)
  rw [sitesBelow_changeChild (labels_of_child hchild hlabel)] at hafter
  rw [hbelow, List.map_cons] at hbefore hafter
  rw [List.map_cons, Site.changeAt, if_pos haddress] at hafter
  exact interchangeable_of_expression rfl rfl hstatement hbefore.symm hafter.symm hthrow hthrow h

/-- The step from an expression statement. -/
theorem interchangeable_of_mem_expression
    {site expression next : Site} {rest : List Site} {change : Node → Node}
    (hstatement : site.role = .expressionStatement)
    (hbelow : site.below context.language = expression :: rest)
    (hthrow : expression.role ≠ .throw)
    (hnext : next ∈ expression.below context.language)
    (h : Interchangeable context next.item { role := next.role, node := change next.node }) :
    ∃ address, next.address = site.address ++ address ∧
      Interchangeable context site.item
        { role := site.role, node := site.node.changeAt change address } := by
  obtain ⟨index, haddress, hchild, hplace⟩ := exists_index_of_mem_sitesBelow hnext
  have hexpression : expression ∈ site.below context.language := hbelow ▸ List.mem_cons_self
  obtain ⟨position, hposition, hinside, _⟩ := exists_index_of_mem_sitesBelow hexpression
  refine ⟨[position, index], ?_, ?_⟩
  · rw [haddress, hposition, List.append_assoc]
    rfl
  · refine interchangeable_of_changed_expression hstatement hbelow hthrow hposition hinside rfl ?_
    intro depth binding
    exact lowerItems_congr (forall₂_significant_of_site hchild hplace h)

/-- A block is no clause. -/
theorem clausePart?_eq_none_of_block
    {item : Placed} (h : item.role = .block) :
    clausePart? item = none := by
  rw [clausePart?, h]

/-- The step from a try node to a child ahead of its body, which is neither the body nor a
clause. -/
theorem interchangeable_of_mem_leading
    {site next : Site} {change : Node → Node}
    (hattempt : site.role = .attempt) (hnext : next ∈ site.leading context.language)
    (h : Interchangeable context next.item { role := next.role, node := change next.node }) :
    ∃ address, next.address = site.address ++ address ∧
      Interchangeable context site.item
        { role := site.role, node := site.node.changeAt change address } := by
  obtain ⟨hbelow, hkept⟩ := List.mem_filter.mp hnext
  obtain ⟨index, haddress, hchild, hplace⟩ := exists_index_of_mem_sitesBelow hbelow
  have hlabel : (change next.node).label = next.node.label := h.label.symm
  have hchanged :
      context.language.place site.node (change next.node) =
        { role := next.role, node := change next.node } := by
    rw [place_of_label_eq context.language site.node hlabel, ← hplace]
    rfl
  rw [Bool.and_eq_true] at hkept
  obtain ⟨hleading, hbeside⟩ := hkept
  rw [isLeading, Bool.and_eq_true, Option.isNone_iff_eq_none] at hleading
  refine ⟨[index], haddress, interchangeable_of_parts rfl rfl hattempt ?_⟩
  apply forall₂_tryParts_changeChild hchild hlabel
  · intro _ _
    rw [← hplace, hchanged]
    exact h
  · intro hbody
    rw [hbody, Option.all_some, haddress, bne_self_eq_false] at hbeside
    cases hbeside
  · have hnone : clausePart? { role := next.role, node := change next.node } = none := by
      have hnone := hleading.2
      unfold clausePart? at hnone ⊢
      unfold Site.role
      cases hrole : next.item.role <;> simp [hrole] at hnone ⊢
    rw [← hplace, hchanged, hleading.2, hnone]
    exact .none

/-- The step from a try node into its body, which is a block and so no clause. -/
theorem interchangeable_of_mem_body
    {site next : Site} {change : Node → Node}
    (hattempt : site.role = .attempt) (hblock : BlockBody context.language site.node)
    (hnext : next ∈ site.within context.language (bodyIndex? context.language site.node))
    (h : Interchangeable context next.item { role := next.role, node := change next.node }) :
    ∃ address, next.address = site.address ++ address ∧
      Interchangeable context site.item
        { role := site.role, node := site.node.changeAt change address } := by
  obtain ⟨position, body, hposition, hbody, hbelow⟩ := mem_within_iff.mp hnext
  obtain ⟨index, haddress, hchild, hplace⟩ := exists_index_of_mem_sitesBelow hbelow
  have hrole := hblock.role_of_bodyIndex? hposition hbody
  refine ⟨[position, index], by rw [haddress, List.append_assoc]; rfl,
    interchangeable_of_parts rfl rfl hattempt ?_⟩
  apply forall₂_tryParts_changeChild hbody rfl
  · intro _ hbeside
    exact absurd hposition hbeside
  · intro _
    exact forall₂_significant_of_site hchild hplace h
  · rw [clausePart?_eq_none_of_block hrole, clausePart?_eq_none_of_block hrole]
    exact .none

/-- The step from a try node into the body of a clause, which is neither ahead of the body
nor the body. -/
theorem interchangeable_of_mem_clause
    {site clause next : Site} {change : Node → Node}
    (hattempt : site.role = .attempt) (hblocks : BlockBodiesOf context.language site)
    (hclause : clause ∈ site.clauses context.language)
    (hnext : next ∈ (clauseStage context.language clause).sites)
    (h : Interchangeable context next.item { role := next.role, node := change next.node }) :
    ∃ address, next.address = site.address ++ address ∧
      Interchangeable context site.item
        { role := site.role, node := site.node.changeAt change address } := by
  obtain ⟨hbelow, hpart⟩ := mem_clauses_iff.mp hclause
  obtain ⟨position, hposition, hinside, hclausePlace⟩ := exists_index_of_mem_sitesBelow hbelow
  obtain ⟨bodyIndex, body, hindex, hbody, hbodyBelow⟩ := mem_within_iff.mp hnext
  obtain ⟨index, haddress, hchild, hplace⟩ := exists_index_of_mem_sitesBelow hbodyBelow
  refine ⟨[position, bodyIndex, index], ?_, interchangeable_of_parts rfl rfl hattempt ?_⟩
  · rw [haddress, hposition, List.append_assoc, List.append_assoc]
    rfl
  apply forall₂_tryParts_changeChild hinside rfl
  · intro hleading _
    rw [← hclausePlace, isLeading, Bool.and_eq_true, Option.isNone_iff_eq_none] at hleading
    rw [hleading.2] at hpart
    cases hpart
  · intro hown
    have hrole := hblocks.own.role_of_bodyIndex? hown hinside
    rw [hclausePlace, clausePart?_eq_none_of_block hrole] at hpart
    cases hpart
  · have hblock : clause.role = .handler → BlockBody context.language clause.node := by
      intro hrole
      apply hblocks.handlers
      exact List.mem_filter.mpr ⟨hbelow, beq_iff_eq.mpr hrole⟩
    have hitems := forall₂_significant_of_site hchild hplace h
    have hrel :=
      @rel_clausePart? context site.node
        (site.node.changeAt change [position, bodyIndex, index]) body clause bodyIndex
        (·.changeChild index change) hblock hindex hbody rfl hitems
    rw [Site.role, hclausePlace] at hrel
    exact hrel

/-- A change that puts an interchangeable node in the place of a node of a stage leaves the
node of the stage interchangeable with what it was. -/
theorem interchangeable_of_stage
    {site next : Site} {stage : Stage} {change : Node → Node}
    (hblocks : site.role = .attempt → BlockBodiesOf context.language site)
    (hstage : stage ∈ stages context.language site) (hnext : next ∈ stage.sites)
    (h : Interchangeable context next.item { role := next.role, node := change next.node }) :
    ∃ address, next.address = site.address ++ address ∧
      Interchangeable context site.item
        { role := site.role, node := site.node.changeAt change address } := by
  unfold stages at hstage
  split at hstage
  · next hrole =>
      have hattempt := beq_iff_eq.mp hrole
      rcases mem_tryStages_iff.mp hstage with rfl | rfl | ⟨clause, hclause, rfl⟩
      · exact interchangeable_of_mem_leading hattempt hnext h
      · exact interchangeable_of_mem_body hattempt (hblocks hattempt).own hnext h
      · exact interchangeable_of_mem_clause hattempt (hblocks hattempt) hclause hnext h
  · next hrole =>
      rw [List.mem_singleton] at hstage
      subst hstage
      have hattempt : site.role ≠ .attempt := mt beq_iff_eq.mpr hrole
      have hnext : next ∈ openedSites context.language site := hnext
      unfold openedSites at hnext
      split at hnext
      · cases hnext
      · next hstatement =>
          split at hnext
          · cases hnext
          · next expression rest hbelow =>
              split at hnext
              · cases hnext
              · next hthrow =>
                  exact interchangeable_of_mem_expression hstatement hbelow
                    (mt beq_iff_eq.mpr hthrow) hnext h
      · next hthrow hstatement =>
          exact interchangeable_of_mem_below ⟨hattempt, hthrow, hstatement⟩ hnext h

/-! ## The whole way -/

/-- Every try node that the search visits has blocks as bodies. -/
def BlockBodies (language : Language) (start : List Site) : Prop :=
  ∀ site, Visited language start site → site.role = .attempt → BlockBodiesOf language site

instance (language : Language) (start : List Site) :
    Decidable (BlockBodies language start) :=
  decidable_of_iff _ (forall_visited_attempt_iff (BlockBodiesOf language))

/-- An interchangeable node in the place of a visited node leaves the statements of the parse
tree as they are. -/
theorem statementsOf_changeAt
    {root : Node} {site : Site} {change : Node → Node}
    (hblocks : BlockBodies context.language (rootSites context.language root))
    (hvisited : Visited context.language (rootSites context.language root) site)
    (h : Interchangeable context site.item { role := site.role, node := change site.node }) :
    statementsOf context (root.changeAt change site.address) = statementsOf context root := by
  induction hvisited generalizing change with
  | start hmem =>
      obtain ⟨index, haddress, hchild, hplace⟩ := exists_index_of_mem_sitesBelow hmem
      rw [haddress, List.nil_append, Node.changeAt_singleton]
      exact (lowerItems_congr (forall₂_significant_of_site hchild hplace h)).symm
  | onward hsite hstage hnext ih =>
      -- A change inside a node is a change of the node, which the induction carries further up.
      obtain ⟨address, haddress, hcarried⟩ :=
        interchangeable_of_stage (hblocks _ hsite) hstage hnext h
      rw [haddress, Node.changeAt_append]
      exact ih hcarried

end HandlerLint.Search
