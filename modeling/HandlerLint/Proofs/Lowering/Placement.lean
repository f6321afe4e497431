import HandlerLint.Proofs.Diagnosis.Nesting
import HandlerLint.Proofs.Lowering.Simulation
import HandlerLint.Proofs.Lowering.Success
import HandlerLint.Proofs.Search.Origin
import HandlerLint.Proofs.Source.Everywhere

/-!
# Lowering keeps the order of the source

In a parse tree the children of a node lie inside it, one after another.  Lowering keeps
that order although it moves nodes about: a node that is searched through is replaced by
what is found inside it, and the children ahead of the body of a try node share a list with
the statements of the body.

Lowered statements are therefore compared with the nodes they come from as two lists of
spans, of which the second is finer: it is in order, and each of its spans lies inside a
span of the first.
-/

namespace HandlerLint.Lowering

open Source

variable {context : Context} {language : Language}

/-! ## Finer lists of spans -/

/-- Spans in order, each inside one of some outer spans. -/
structure Fit (outers spans : List Span) : Prop where
  inside : ∀ span ∈ spans, ∃ outer ∈ outers, span.Inside outer
  ordered : spans.Pairwise Span.Before

theorem Fit.nil
    (outers : List Span) :
    Fit outers [] :=
  ⟨fun _ hspan => (by cases hspan), .nil⟩

theorem Fit.trans
    {outers between spans : List Span} (houters : Fit outers between)
    (h : Fit between spans) :
    Fit outers spans := by
  refine ⟨?_, h.ordered⟩
  intro span hspan
  obtain ⟨middle, hmiddle, hinside⟩ := h.inside span hspan
  obtain ⟨outer, houter, hmiddleInside⟩ := houters.inside middle hmiddle
  exact ⟨outer, houter, hinside.trans hmiddleInside⟩

/-- Lists that fit into two lists of spans, one after the other, fit together. -/
theorem Fit.append
    {left right first second : List Span}
    (hordered : (left ++ right).Pairwise Span.Before)
    (hfirst : Fit left first) (hsecond : Fit right second) :
    Fit (left ++ right) (first ++ second) := by
  constructor
  · intro span hspan
    rcases List.mem_append.mp hspan with hspan | hspan
    · obtain ⟨outer, houter, hinside⟩ := hfirst.inside span hspan
      exact ⟨outer, List.mem_append_left _ houter, hinside⟩
    · obtain ⟨outer, houter, hinside⟩ := hsecond.inside span hspan
      exact ⟨outer, List.mem_append_right _ houter, hinside⟩
  · have hacross := (List.pairwise_append.mp hordered).2.2
    refine List.pairwise_append.mpr ⟨hfirst.ordered, hsecond.ordered, ?_⟩
    intro one hone other hother
    obtain ⟨left, hleft, honeInside⟩ := hfirst.inside one hone
    obtain ⟨right, hright, hotherInside⟩ := hsecond.inside other hother
    exact (hacross left hleft right hright).of_inside honeInside hotherInside

/-- What fits into one span is held by it. -/
theorem fit_singleton_iff
    {outer : Span} {spans : List Span} :
    Fit [outer] spans ↔ outer.Holds spans := by
  constructor
  · intro h
    refine ⟨?_, h.ordered⟩
    intro span hspan
    obtain ⟨_, houter, hinside⟩ := h.inside span hspan
    rw [List.mem_singleton] at houter
    exact houter ▸ hinside
  · intro h
    refine ⟨?_, h.ordered⟩
    intro span hspan
    exact ⟨outer, List.mem_singleton_self _, h.inside span hspan⟩

theorem Fit.holds
    {outer : Span} {outers spans : List Span} (h : Fit outers spans)
    (houter : outer.Holds outers) :
    outer.Holds spans :=
  fit_singleton_iff.mp ((fit_singleton_iff.mpr houter).trans h)

theorem Fit.refl
    {outer : Span} {spans : List Span} (h : outer.Holds spans) :
    Fit spans spans := by
  refine ⟨?_, h.ordered⟩
  intro span hspan
  obtain ⟨_, hproper, _⟩ := h.inside span hspan
  exact ⟨span, hspan, Nat.le_refl _, hproper, Nat.le_refl _⟩

/-! ## Well placed nodes -/

/-- The children of a try node by parts: those ahead of the body, the body, the handlers,
and the `else` and `finally` clauses. -/
def partNodes (language : Language) (node : Node) : List Node :=
  (leading language node).map Placed.node ++ (bodyOf? language node).toList ++
    childrenAs language .handler node ++ childrenAs language .orelse node ++
    childrenAs language .finalizer node

/-- The significant children of a try node are its parts in their order.  Nodes are told
apart by where they stand. -/
def PartsInOrder (language : Language) (node : Node) : Prop :=
  (partNodes language node).map Node.span =
    (language.significant node).map (·.node.span)

/-- The children of a node lie inside it, one after another, and those that are try nodes
have their parts in order. -/
structure WellPlaced (language : Language) (node : Node) : Prop where
  holds : node.span.Holds (node.children.map Node.span)
  tries : ∀ child ∈ node.children, language.role node.kind child.kind = .attempt →
    PartsInOrder language child

instance (language : Language) (node : Node) : Decidable (PartsInOrder language node) :=
  inferInstanceAs (Decidable (_ = _))

instance (language : Language) (node : Node) : Decidable (WellPlaced language node) :=
  decidable_of_iff
    (node.span.Holds (node.children.map Node.span) ∧
      ∀ child ∈ node.children, language.role node.kind child.kind = .attempt →
        PartsInOrder language child)
    ⟨fun h => ⟨h.1, h.2⟩, fun h => ⟨h.holds, h.tries⟩⟩

/-- Nodes one after another, with all below them well placed. -/
structure InOrder (language : Language) (items : List Placed) : Prop where
  proper : ∀ item ∈ items, item.node.span.Inside item.node.span
  ordered : (items.map (·.node.span)).Pairwise Span.Before
  below : ∀ item ∈ items, item.node.Everywhere (WellPlaced language)
  tries : ∀ item ∈ items, item.role = .attempt → PartsInOrder language item.node

theorem InOrder.tail
    {item : Placed} {items : List Placed} (h : InOrder language (item :: items)) :
    InOrder language items where
  proper other hother := h.proper other (List.mem_cons_of_mem _ hother)
  ordered := (List.pairwise_cons.mp h.ordered).2
  below other hother := h.below other (List.mem_cons_of_mem _ hother)
  tries other hother := h.tries other (List.mem_cons_of_mem _ hother)

section Children

variable {node : Node} {items : List Placed}

theorem holds_of_sublist
    (hplaced : WellPlaced language node)
    (hitems : items.Sublist (node.children.map (language.place node))) :
    node.span.Holds (items.map (·.node.span)) := by
  have hspans := hitems.map (·.node.span)
  rw [List.map_map] at hspans
  exact
    { inside := fun span hspan => hplaced.holds.inside span (hspans.subset hspan)
      ordered := hplaced.holds.ordered.sublist hspans }

/-- Some of the children of a well placed node are in order. -/
theorem inOrder_of_sublist
    (hplaced : node.Everywhere (WellPlaced language))
    (hitems : items.Sublist (node.children.map (language.place node))) :
    InOrder language items := by
  have hholds := holds_of_sublist hplaced.here hitems
  refine
    { proper := ?_
      ordered := hholds.ordered
      below := ?_
      tries := ?_ }
  · intro item hitem
    obtain ⟨_, hproper, _⟩ := hholds.inside _ (List.mem_map_of_mem hitem)
    exact ⟨Nat.le_refl _, hproper, Nat.le_refl _⟩
  · intro item hitem
    obtain ⟨child, hchild, rfl⟩ := List.mem_map.mp (hitems.subset hitem)
    exact hplaced.below hchild
  · intro item hitem hrole
    obtain ⟨child, hchild, rfl⟩ := List.mem_map.mp (hitems.subset hitem)
    exact hplaced.here.tries child hchild hrole

end Children

/-! ## Statements of nodes in order -/

/-- The statements of some nodes fit into the nodes and are well nested. -/
def LowersInOrder (context : Context) (items : List Placed) : Prop :=
  ∀ flatten depth binding statements, InOrder context.language items →
    lowerItems context flatten depth binding items = .ok statements →
      Fit (items.map (·.node.span)) (statements.map Statement.span) ∧
        WellNestedIn statements

/-- What lies below a well placed node is lowered to statements held by the node. -/
theorem holds_of_lowerItems_significant
    {node : Node} {flatten : Bool} {depth : Nat} {binding : Option String}
    {statements : List Statement}
    (hbelow : LowersInOrder context (context.language.significant node))
    (hplaced : node.Everywhere (WellPlaced context.language))
    (h : lowerItems context flatten depth binding (context.language.significant node) =
      .ok statements) :
    node.span.Holds (statements.map Statement.span) ∧ WellNestedIn statements := by
  obtain ⟨hfit, hnested⟩ :=
    hbelow _ _ _ _ (inOrder_of_sublist hplaced (significant_sublist _ _)) h
  exact ⟨hfit.holds (holds_of_sublist hplaced.here (significant_sublist _ _)), hnested⟩

/-- All that is lighter than a bound is lowered in order. -/
def LowersBelow (context : Context) (bound : Nat) : Prop :=
  ∀ inner, Placed.weightList inner < bound → LowersInOrder context inner

theorem LowersBelow.child
    {node child : Node} (h : LowersBelow context node.weight)
    (hchild : child ∈ node.children) :
    LowersBelow context child.weight := by
  intro inner hinner
  have hweight := Node.weight_lt_of_mem_children hchild
  exact h inner (by omega)

theorem LowersBelow.significant
    {node : Node} (h : LowersBelow context node.weight) :
    LowersInOrder context (context.language.significant node) := by
  have hweight := weightList_significant_lt context.language node
  exact h _ (by omega)

/-- What lies below a child of a well placed node is lowered to statements held by the
node. -/
theorem holds_of_lowerItems_child
    {node child : Node} {flatten : Bool} {depth : Nat} {binding : Option String}
    {statements : List Statement}
    (hbelow : LowersBelow context node.weight)
    (hplaced : node.Everywhere (WellPlaced context.language))
    (hchild : child ∈ node.children)
    (h : lowerItems context flatten depth binding (context.language.significant child) =
      .ok statements) :
    node.span.Holds (statements.map Statement.span) ∧ WellNestedIn statements := by
  obtain ⟨hholds, hnested⟩ :=
    holds_of_lowerItems_significant (hbelow.child hchild).significant
      (hplaced.below hchild) h
  have hinside := hplaced.here.holds.inside child.span (List.mem_map_of_mem hchild)
  exact ⟨hholds.widen hinside, hnested⟩

/-! ### Clauses -/

theorem wellNested_of_loweredClause
    {depth : Nat} {node : Node} {clause : HandlerClause}
    (hbelow : LowersBelow context node.weight)
    (hplaced : node.Everywhere (WellPlaced context.language))
    (h : LoweredClause context depth node clause) :
    clause.WellNested := by
  have hspan : clause.span = node.span := congrArg HandlerClause.span h.head
  rw [clause.wellNested_iff, hspan]
  cases hbody : presentBody? (context.language.handlerParts context.source node) with
  | none =>
      rw [h.noBody hbody, OptionalWellNested]
      exact ⟨.nil _, trivial⟩
  | some block =>
      obtain ⟨statements, hstatements, hlowered⟩ := h.body block hbody
      rw [hstatements, OptionalWellNested]
      exact holds_of_lowerItems_child hbelow hplaced (presentBody?_mem hbody) hlowered

/-- The statements of an `else` or `finally` clause are inside it. -/
theorem holds_of_loweredBlock
    {depth : Nat} {binding : Option String} {node : Node} {statements : List Statement}
    (hbelow : LowersBelow context node.weight)
    (hplaced : node.Everywhere (WellPlaced context.language))
    (h : LoweredBlock context depth binding node statements) :
    node.span.Holds (statements.map Statement.span) ∧ WellNestedIn statements := by
  unfold LoweredBlock at h
  cases hblock : clauseBlock? context.language node with
  | none =>
      rw [hblock] at h
      cases (lowerItems_nil _ _ _).symm.trans h
      rw [WellNestedIn]
      exact ⟨.nil _, trivial⟩
  | some block =>
      rw [hblock] at h
      exact holds_of_lowerItems_child hbelow hplaced (clauseBlock?_mem hblock) h

/-- The block that a construct keeps of some `else` or `finally` clauses fits into them. -/
theorem fit_of_loweredBlocks
    {depth : Nat} {binding : Option String} {node : Node} {role : Role}
    {blocks : List (List Statement)}
    (hbelow : LowersBelow context node.weight)
    (hplaced : node.Everywhere (WellPlaced context.language))
    (h : List.Forall₂ (LoweredBlock context depth binding)
      (childrenAs context.language role node) blocks) :
    Fit ((childrenAs context.language role node).map Node.span)
        ((blocks.getLast?.getD []).map Statement.span) ∧
      OptionalWellNested blocks.getLast? := by
  cases hlast : blocks.getLast? with
  | none =>
      rw [OptionalWellNested]
      exact ⟨.nil _, trivial⟩
  | some statements =>
      rw [OptionalWellNested, Option.getD_some]
      obtain ⟨clause, hclause, hlowered⟩ :=
        Search.exists_of_mem_right h (List.mem_of_getLast? hlast)
      have hchild := mem_children_of_mem_childrenAs hclause
      obtain ⟨hholds, hnested⟩ :=
        holds_of_loweredBlock (hbelow.child hchild) (hplaced.below hchild) hlowered
      refine ⟨⟨?_, hholds.ordered⟩, hnested⟩
      intro span hspan
      exact ⟨clause.span, List.mem_map_of_mem hclause, hholds.inside span hspan⟩

/-- The handlers of a construct are where those of the try node are. -/
theorem fit_of_loweredClauses
    {depth : Nat} {node : Node} {clauses : List HandlerClause}
    (hbelow : LowersBelow context node.weight)
    (hplaced : node.Everywhere (WellPlaced context.language))
    (h : List.Forall₂ (LoweredClause context depth)
      (childrenAs context.language .handler node) clauses) :
    Fit ((childrenAs context.language .handler node).map Node.span)
        (clauses.map HandlerClause.span) ∧
      HandlersWellNested clauses := by
  have hspans :
      clauses.map HandlerClause.span =
        (childrenAs context.language .handler node).map Node.span := by
    clear hbelow hplaced
    generalize childrenAs context.language .handler node = nodes at h
    induction h with
    | nil => rfl
    | cons hclause _ ih =>
        rw [List.map_cons, List.map_cons, ih]
        exact congrArg (· :: _) (congrArg HandlerClause.span hclause.head)
  constructor
  · rw [hspans]
    unfold childrenAs
    rw [List.map_map]
    exact .refl
      (holds_of_sublist hplaced.here (List.filter_sublist.trans (significant_sublist _ _)))
  · rw [handlersWellNested_iff]
    intro clause hclause
    obtain ⟨handler, hhandler, hlowered⟩ := Search.exists_of_mem_right h hclause
    have hchild := mem_children_of_mem_childrenAs hhandler
    exact wellNested_of_loweredClause (hbelow.child hchild) (hplaced.below hchild) hlowered

/-! ### Try nodes -/

theorem fit_body
    {node : Node} (hplaced : node.Everywhere (WellPlaced language)) :
    Fit ((bodyOf? language node).toList.map Node.span)
        ((blockItems language (bodyOf? language node)).map (·.node.span)) ∧
      InOrder language (blockItems language (bodyOf? language node)) := by
  cases hbody : bodyOf? language node with
  | none => exact ⟨.nil _, inOrder_of_sublist hplaced (List.nil_sublist _)⟩
  | some body =>
      rw [← Search.clauseBlock?_eq_bodyOf?] at hbody
      have hchild := hplaced.below (clauseBlock?_mem hbody)
      exact ⟨fit_singleton_iff.mpr (holds_of_sublist hchild.here (significant_sublist _ _)),
        inOrder_of_sublist hchild (significant_sublist _ _)⟩

/-- The nodes that become the body of a construct: the children ahead of the body of the
try node come before what is inside its body. -/
theorem fit_leading_body
    {node : Node} (hplaced : node.Everywhere (WellPlaced language))
    (hordered :
      ((leading language node).map (·.node.span) ++
        (bodyOf? language node).toList.map Node.span).Pairwise Span.Before) :
    Fit ((leading language node).map (·.node.span) ++
          (bodyOf? language node).toList.map Node.span)
        ((leading language node ++ blockItems language (bodyOf? language node)).map
          (·.node.span)) ∧
      InOrder language
        (leading language node ++ blockItems language (bodyOf? language node)) := by
  obtain ⟨hfit, hbody⟩ := fit_body hplaced
  have hleading := inOrder_of_sublist hplaced (leading_sublist _ _)
  have hself := Fit.refl (holds_of_sublist hplaced.here (leading_sublist _ _))
  have hboth := hself.append hordered hfit
  rw [← List.map_append] at hboth
  refine ⟨hboth, ?_⟩
  exact
    { proper := List.forall_mem_append.mpr ⟨hleading.proper, hbody.proper⟩
      ordered := hboth.ordered
      below := List.forall_mem_append.mpr ⟨hleading.below, hbody.below⟩
      tries := List.forall_mem_append.mpr ⟨hleading.tries, hbody.tries⟩ }

theorem weightList_leading_body_lt
    (language : Language) (node : Node) :
    Placed.weightList
        (leading language node ++ blockItems language (bodyOf? language node)) <
      node.weight := by
  have hleading := weightList_leading_le language node
  have hbeside := besideBody_add_bodyPart_le language node
  rw [Placed.weightList_append, Node.weight_eq]
  cases hbody : bodyOf? language node with
  | none =>
      simp only [blockItems, Option.map_none, Option.getD_none, Placed.weightList_nil]
      omega
  | some body =>
      rw [hbody] at hbeside
      simp only [bodyPart, partsWeight, Part.weight] at hbeside
      simp only [blockItems, Option.map_some, Option.getD_some]
      omega

/-- The parts of a try node one after another, each list of nodes for itself. -/
theorem holds_parts
    {node : Node} (hplaced : WellPlaced language node) (hparts : PartsInOrder language node) :
    node.span.Holds
      ((leading language node).map (·.node.span) ++
        (bodyOf? language node).toList.map Node.span ++
        (childrenAs language .handler node).map Node.span ++
        (childrenAs language .orelse node).map Node.span ++
        (childrenAs language .finalizer node).map Node.span) := by
  have hspans := holds_of_sublist hplaced (significant_sublist _ _)
  rw [← hparts] at hspans
  unfold partNodes at hspans
  simp only [List.map_append, List.map_map] at hspans
  exact hspans

/-- A construct lowered from a well placed try node is well nested. -/
theorem wellNested_of_loweredTry
    {depth : Nat} {binding : Option String} {node : Node} {construct : TryConstruct}
    (hbelow : LowersBelow context node.weight)
    (hplaced : node.Everywhere (WellPlaced context.language))
    (hparts : PartsInOrder context.language node)
    (h : LoweredTry context depth binding node construct) :
    construct.WellNested := by
  have hholds := holds_parts hplaced.here hparts
  -- With the list of all parts, each of its beginnings is in order.
  have hfour := (List.pairwise_append.mp hholds.ordered).1
  have hthree := (List.pairwise_append.mp hfour).1
  have htwo := (List.pairwise_append.mp hthree).1
  obtain ⟨hitems, hinOrder⟩ := fit_leading_body hplaced htwo
  obtain ⟨hbody, hbodyNested⟩ :=
    hbelow _ (weightList_leading_body_lt context.language node) _ _ _ _ hinOrder h.body
  obtain ⟨hhandlers, hhandlersNested⟩ := fit_of_loweredClauses hbelow hplaced h.handlers
  obtain ⟨elses, helses, helsesLast⟩ := h.orelse
  obtain ⟨horelse, horelseNested⟩ := fit_of_loweredBlocks hbelow hplaced helses
  obtain ⟨finals, hfinals, hfinalsLast⟩ := h.finalizer
  obtain ⟨hfinalizer, hfinalizerNested⟩ := fit_of_loweredBlocks hbelow hplaced hfinals
  rw [← helsesLast] at horelse horelseNested
  rw [← hfinalsLast] at hfinalizer hfinalizerNested
  have hfit :=
    (((hitems.trans hbody).append hthree hhandlers).append hfour horelse).append
      hholds.ordered hfinalizer
  rw [construct.wellNested_iff, h.span]
  exact ⟨hfit.holds hholds, hbodyNested, hhandlersNested, horelseNested, hfinalizerNested⟩

/-! ### Single nodes -/

theorem holds_of_lowerItems_openedItems
    {flatten : Bool} {depth : Nat} {binding : Option String} {item : Placed}
    {statements : List Statement}
    (hbelow : LowersBelow context item.node.weight)
    (hplaced : item.node.Everywhere (WellPlaced context.language))
    (h : lowerItems context flatten depth binding (openedItems context.language item) =
      .ok statements) :
    item.node.span.Holds (statements.map Statement.span) ∧ WellNestedIn statements := by
  rcases openedItems_cases context.language item with hnone | hown | ⟨child, hchild, hinside⟩
  · rw [hnone, lowerItems_nil] at h
    cases h
    rw [WellNestedIn]
    exact ⟨.nil _, trivial⟩
  · rw [hown] at h
    exact holds_of_lowerItems_significant hbelow.significant hplaced h
  · rw [hinside] at h
    exact holds_of_lowerItems_child hbelow hplaced hchild h

/-- A statement lowered from a well placed node is well nested. -/
theorem wellNested_of_lowerItem_eq_ok
    {depth : Nat} {binding : Option String} {item : Placed} {statement : Statement}
    (hbelow : LowersBelow context item.node.weight)
    (hplaced : item.node.Everywhere (WellPlaced context.language))
    (hparts : item.role = .attempt → PartsInOrder context.language item.node)
    (h : lowerItem context depth binding item = .ok statement) :
    statement.WellNested := by
  by_cases hrole : item.role = .attempt
  · obtain ⟨construct, rfl, htry⟩ := lowerItem_eq_ok_of_attempt hrole h
    rw [Statement.WellNested]
    exact wellNested_of_loweredTry hbelow hplaced (hparts hrole) htry
  · obtain ⟨hattempt, _, flatten, inner, hopened⟩ := lowerItem_eq_ok_of_ne_attempt hrole h
    obtain ⟨hholds, hnested⟩ := holds_of_lowerItems_openedItems hbelow hplaced hopened
    rw [← span_of_lowerItem_eq_ok h] at hholds
    exact Statement.wellNested_of_nested hattempt hholds hnested

/-- Nodes in order are lowered to statements in order. -/
theorem lowersInOrder
    (context : Context) (items : List Placed) :
    LowersInOrder context items := by
  induction items using items_induction with
  | nil =>
      intro flatten depth binding statements _ h
      rw [lowerItems_nil] at h
      cases h
      rw [WellNestedIn]
      exact ⟨.nil _, trivial⟩
  | cons item items hbelow ih =>
      -- Whether it is searched through or kept, the node gives statements inside it, and
      -- what follows it comes after it.
      intro flatten depth binding statements hinOrder h
      have hplaced := hinOrder.below item List.mem_cons_self
      have hordered := hinOrder.ordered
      rw [List.map_cons, ← List.singleton_append] at hordered ⊢
      by_cases hthrough : (flatten && item.role == .other) = true
      · rw [lowerItems_cons_of_through hthrough] at h
        obtain ⟨found, hfound, h⟩ := bind_eq_ok_iff.mp h
        obtain ⟨rest, hrest, h⟩ := bind_eq_ok_iff.mp h
        cases h
        obtain ⟨hholds, hfoundNested⟩ :=
          holds_of_lowerItems_significant (LowersBelow.significant hbelow) hplaced hfound
        obtain ⟨hfit, hrestNested⟩ := ih _ _ _ _ hinOrder.tail hrest
        rw [List.map_append]
        refine ⟨(fit_singleton_iff.mpr hholds).append hordered hfit, ?_⟩
        rw [wellNestedIn_iff] at hfoundNested hrestNested ⊢
        exact List.forall_mem_append.mpr ⟨hfoundNested, hrestNested⟩
      · rw [lowerItems_cons_of_kept hthrough] at h
        obtain ⟨statement, hstatement, h⟩ := bind_eq_ok_iff.mp h
        obtain ⟨rest, hrest, h⟩ := bind_eq_ok_iff.mp h
        cases h
        have hspan := span_of_lowerItem_eq_ok hstatement
        have hproper := hinOrder.proper item List.mem_cons_self
        have hnested :=
          wellNested_of_lowerItem_eq_ok hbelow hplaced
            (hinOrder.tries item List.mem_cons_self) hstatement
        obtain ⟨hfit, hrestNested⟩ := ih _ _ _ _ hinOrder.tail hrest
        have hown : Fit [item.node.span] [statement.span] := by
          rw [hspan]
          exact .refl ⟨by simpa using hproper, List.pairwise_singleton _ _⟩
        rw [WellNestedIn]
        exact ⟨hown.append hordered hfit, hnested, hrestNested⟩

/-- Models are well nested.  Where the children of a node lie inside it, one after another,
and the parts of a try node stand in their order, all that a statement, a clause or a
construct of the model holds lies inside its span, one thing after another, and findings
come in source order. -/
theorem lowered_models_are_well_nested
    {language : Language} {path : String} {source : List UInt8} {tree : Tree}
    {model : SyntaxTree}
    (hplaced : tree.root.Everywhere (WellPlaced language))
    (h : lower language path source tree = .ok model) :
    tree.root.span.Holds (model.statements.map Statement.span) ∧
      WellNestedIn model.statements ∧
      (model.classifyAll.map (·.clause.span.startByte)).Pairwise (· ≤ ·) := by
  have hlowers := lowersInOrder { language, source } (language.significant tree.root)
  obtain ⟨hholds, hnested⟩ :=
    holds_of_lowerItems_significant hlowers hplaced (statementsOf_of_lower_eq_ok h)
  exact ⟨hholds, hnested, SyntaxTree.pairwise_startByte_classifyAll hholds hnested⟩

/-- A source with a resource ahead of a body, a handler inside a handler and a `finally`
clause. -/
def resourceSource : List UInt8 :=
  "try (R r = f()) { } catch (E e) { try { } catch (F f) { } } finally { }".toUTF8.toList

/-- The parse tree of a source with a resource. -/
def resourceTree : Tree :=
  { root :=
      Search.lineNode "program" none 0 71
        [Search.lineNode "try_with_resources_statement" none 0 71
          [Search.lineNode "resource_specification" (some "resources") 4 15
              [Search.lineNode "resource" none 5 14 []],
            Search.lineNode "block" (some "body") 16 19 [],
            Search.lineNode "catch_clause" none 20 59
              [Search.lineNode "catch_formal_parameter" none 27 30 [],
                Search.lineNode "block" (some "body") 32 59
                  [Search.lineNode "try_statement" none 34 57
                    [Search.lineNode "block" (some "body") 38 41 [],
                      Search.lineNode "catch_clause" none 42 57
                        [Search.lineNode "catch_formal_parameter" none 49 52 [],
                          Search.lineNode "block" (some "body") 54 57 []]]]],
            Search.lineNode "finally_clause" none 60 71
              [Search.lineNode "block" none 68 71 []]]]
    hasError := false }

/-- The sample is well placed, and the two clauses of its model come in source order. -/
theorem resourceTree_well_nested :
    resourceTree.root.Everywhere (WellPlaced .java) ∧
      ∃ model, lower .java "A.java" resourceSource resourceTree = .ok model ∧
        resourceTree.root.span.Holds (model.statements.map Statement.span) ∧
        WellNestedIn model.statements ∧
        model.classifyAll.map (·.clause.span.startByte) = [20, 42] ∧
        (model.classifyAll.map (·.clause.span.startByte)).Pairwise (· ≤ ·) := by
  have hplaced : resourceTree.root.Everywhere (WellPlaced .java) := by
    decide +kernel
  have hstarts :
      (lower .java "A.java" resourceSource resourceTree).toOption.map
          (fun model => model.classifyAll.map (·.clause.span.startByte)) =
        some [20, 42] := by
    decide +kernel
  cases hmodel : lower .java "A.java" resourceSource resourceTree with
  | error error =>
      rw [hmodel] at hstarts
      cases hstarts
  | ok model =>
      rw [hmodel] at hstarts
      obtain ⟨hholds, hnested, hordered⟩ := lowered_models_are_well_nested hplaced hmodel
      exact ⟨hplaced, model, rfl, hholds, hnested, Option.some.inj hstarts, hordered⟩

end HandlerLint.Lowering
