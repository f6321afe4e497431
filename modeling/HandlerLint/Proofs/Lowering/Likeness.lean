import HandlerLint.Proofs.Diagnosis.Outline
import HandlerLint.Proofs.Lowering.Simulation
import HandlerLint.Proofs.Search.Site

/-!
# Two lowerings side by side

Nodes are alike when they have the same span and kind and their significant children,
their bodies and their clauses are alike again, in the same order.  Whatever else two
parse trees and their sources differ in, lowering alike nodes either fails with the same
error or gives statements with the same outline.

How much of the outline is the same depends on what is asked of alike handlers and alike
throws: with equal bindings and equal answers to whether a throw is a rethrow, all but the
exception types.
-/

namespace HandlerLint.Lowering

open Source

/-! ## Agreeing results -/

/-- Results that are the same error, or values that look the same. -/
def Agree {α β : Type} (view : α → β) (left right : Except LowerError α) : Prop :=
  left.map view = right.map view

theorem Agree.ok
    {α β : Type} {view : α → β} {left right : α} (h : view left = view right) :
    Agree view (.ok left) (.ok right) :=
  congrArg Except.ok h

theorem Agree.bind
    {α β γ δ : Type} {view : α → β} {viewNext : γ → δ}
    {left right : Except LowerError α} {next next' : α → Except LowerError γ}
    (h : Agree view left right)
    (hnext : ∀ value value', view value = view value' →
      Agree viewNext (next value) (next' value')) :
    Agree viewNext (left >>= next) (right >>= next') := by
  unfold Agree at h
  cases left with
  | error error =>
      cases right with
      | error other =>
          cases h
          rfl
      | ok value => cases h
  | ok value =>
      cases right with
      | error error => cases h
      | ok value' => exact hnext value value' (Except.ok.inj h)

/-- Agreeing results fail together or succeed together. -/
theorem Agree.cases
    {α β : Type} {view : α → β} {left right : Except LowerError α}
    (h : Agree view left right) :
    (∃ error, left = .error error ∧ right = .error error) ∨
      ∃ value value', left = .ok value ∧ right = .ok value' ∧ view value = view value' := by
  unfold Agree at h
  cases left with
  | error error =>
      cases right with
      | error other =>
          cases h
          exact .inl ⟨error, rfl, rfl⟩
      | ok value => cases h
  | ok value =>
      cases right with
      | error error => cases h
      | ok value' => exact .inr ⟨value, value', rfl, rfl, Except.ok.inj h⟩

/-! ## Alike nodes -/

/-- Nodes that are alike, in the same role. -/
def LikeItem (Like : Node → Node → Prop) (left right : Placed) : Prop :=
  left.role = right.role ∧ Like left.node right.node

/-- Parts of the same kind that are alike. -/
inductive LikePart (Like : Node → Node → Prop) : Part → Part → Prop
  | statements {left right : List Placed} :
      List.Forall₂ (LikeItem Like) left right →
        LikePart Like (.statements left) (.statements right)
  | handler {left right : Node} :
      Like left right → LikePart Like (.handler left) (.handler right)
  | orelse {left right : Node} :
      Like left right → LikePart Like (.orelse left) (.orelse right)
  | finalizer {left right : Node} :
      Like left right → LikePart Like (.finalizer left) (.finalizer right)

/-- A relation between the nodes of two parse trees that lowering cannot see through. -/
structure Likeness
    (detail : Detail) (first second : Context) (Like : Node → Node → Prop) : Prop where
  span : ∀ {left right}, Like left right → left.span = right.span
  kind : ∀ {left right}, Like left right → left.kind = right.kind
  significant : ∀ {left right}, Like left right →
    List.Forall₂ (LikeItem Like) (first.language.significant left)
      (second.language.significant right)
  leadingItems : ∀ {left right}, Like left right →
    List.Forall₂ (LikeItem Like) (leading first.language left)
      (leading second.language right)
  body : ∀ {left right}, Like left right →
    Option.Rel Like (bodyOf? first.language left) (bodyOf? second.language right)
  handlerBody : ∀ {left right}, Like left right →
    Option.Rel Like (presentBody? (first.language.handlerParts first.source left))
      (presentBody? (second.language.handlerParts second.source right))
  binding : ∀ {left right}, Like left right →
    detail.binding (first.language.handlerParts first.source left).binding =
      detail.binding (second.language.handlerParts second.source right).binding
  rethrow : ∀ {left right name name'}, Like left right →
    detail.binding name = detail.binding name' →
    detail.rethrow (first.language.isRethrow first.source name left) =
      detail.rethrow (second.language.isRethrow second.source name' right)

variable {detail : Detail} {first second : Context} {Like : Node → Node → Prop}

/-- Of two nodes that may be absent, both are or neither is. -/
theorem absent_or_alike
    {left right : Option Node} (h : Option.Rel Like left right) :
    (left = none ∧ right = none) ∨
      ∃ node node', left = some node ∧ right = some node' ∧ Like node node' := by
  cases h with
  | none => exact .inl ⟨rfl, rfl⟩
  | some hlike => exact .inr ⟨_, _, rfl, rfl, hlike⟩

theorem forall₂_leadingPart
    {left right : List Placed} (h : List.Forall₂ (LikeItem Like) left right) :
    List.Forall₂ (LikePart Like) (leadingPart left) (leadingPart right) := by
  cases h with
  | nil => exact .nil
  | cons hitem hitems => exact .cons (.statements (.cons hitem hitems)) .nil

theorem forall₂_filterMap_clausePart?
    {left right : List Placed} (h : List.Forall₂ (LikeItem Like) left right) :
    List.Forall₂ (LikePart Like) (left.filterMap clausePart?)
      (right.filterMap clausePart?) := by
  induction h with
  | nil => exact .nil
  | @cons item item' items items' hitem _ ih =>
      obtain ⟨hrole, hnode⟩ := hitem
      rw [List.filterMap_cons, List.filterMap_cons]
      unfold clausePart? at ih ⊢
      rw [← hrole]
      cases item.role with
      | handler => exact .cons (.handler hnode) ih
      | orelse => exact .cons (.orelse hnode) ih
      | finalizer => exact .cons (.finalizer hnode) ih
      | _ => exact ih

namespace Likeness

variable (h : Likeness detail first second Like)
include h

theorem line {left right : Node} (hlike : Like left right) :
    left.line = right.line :=
  congrArg Span.startLine (h.span hlike)

theorem block {left right : Node} (hlike : Like left right) :
    Option.Rel Like (clauseBlock? first.language left)
      (clauseBlock? second.language right) := by
  rw [Search.clauseBlock?_eq_bodyOf?, Search.clauseBlock?_eq_bodyOf?]
  exact h.body hlike

/-- Alike try nodes fall into alike parts. -/
theorem parts {left right : Node} (hlike : Like left right) :
    List.Forall₂ (LikePart Like) (tryParts first.language left)
      (tryParts second.language right) := by
  have hleading := forall₂_leadingPart (h.leadingItems hlike)
  have hbody :
      List.Forall₂ (LikePart Like) (bodyPart first.language (bodyOf? first.language left))
        (bodyPart second.language (bodyOf? second.language right)) := by
    rcases absent_or_alike (h.body hlike) with ⟨hleft, hright⟩ | ⟨node, node', hleft, hright, hnode⟩
    · rw [hleft, hright]
      exact .nil
    · rw [hleft, hright]
      exact .cons (.statements (h.significant hnode)) .nil
  have hclauses := forall₂_filterMap_clausePart? (h.significant hlike)
  exact List.rel_append (List.rel_append hleading hbody) hclauses

end Likeness

/-! ## Agreement of the lowerings -/

/-- Nodes that are lowered to statements with the same outline as any nodes alike. -/
def AgreesOn
    (detail : Detail) (first second : Context) (Like : Node → Node → Prop)
    (items : List Placed) : Prop :=
  ∀ (flatten : Bool) (depth : Nat) {name name' : Option String} {items' : List Placed},
    List.Forall₂ (LikeItem Like) items items' →
    detail.binding name = detail.binding name' →
    Agree (outlineIn detail) (lowerItems first flatten depth name items)
      (lowerItems second flatten depth name' items')

/-- The same of all nodes that weigh less than a bound. -/
def AgreesBelow
    (detail : Detail) (first second : Context) (Like : Node → Node → Prop)
    (bound : Nat) : Prop :=
  ∀ items, Placed.weightList items < bound → AgreesOn detail first second Like items

/-- A container of a try construct is filled alike. -/
theorem agree_meet_container
    {depth : Nat} {construct construct' : TryConstruct} {at_ at_' : Node}
    {name name' : Option String} {items items' : List Placed}
    {fill fill' : List Statement → TryConstruct → TryConstruct}
    (hline : at_.line = at_'.line)
    (hitems : Agree (outlineIn detail) (lowerItems first false (depth + 1) name items)
      (lowerItems second false (depth + 1) name' items'))
    (hfill : ∀ done done', outlineIn detail done = outlineIn detail done' →
      (fill done construct).outline detail = (fill' done' construct').outline detail) :
    Agree (TryConstruct.outline detail)
      ((Demand.container at_ name items fill).meet first depth construct)
      ((Demand.container at_' name' items' fill').meet second depth construct') := by
  rw [Demand.meet, Demand.meet, hline]
  by_cases hdeep : maxNesting ≤ depth
  · rw [if_pos hdeep, if_pos hdeep]
    rfl
  · rw [if_neg hdeep, if_neg hdeep]
    apply hitems.bind
    intro done done' hdone
    exact .ok (hfill done done' hdone)

/-- A clause with an optional block is filled alike. -/
theorem agree_meet_blockDemand
    (h : Likeness detail first second Like) {bound depth : Nat}
    (hbelow : AgreesBelow detail first second Like bound)
    {construct construct' : TryConstruct} {left right : Node} {name name' : Option String}
    {fill : List Statement → TryConstruct → TryConstruct}
    (hlike : Like left right) (hbound : left.weight ≤ bound)
    (hname : detail.binding name = detail.binding name')
    (hfill : ∀ done done', outlineIn detail done = outlineIn detail done' →
      (fill done construct).outline detail = (fill done' construct').outline detail) :
    Agree (TryConstruct.outline detail)
      ((blockDemand first name left fill).meet first depth construct)
      ((blockDemand second name' right fill).meet second depth construct') := by
  unfold blockDemand
  rcases absent_or_alike (h.block hlike) with
    ⟨hleft, hright⟩ | ⟨block, block', hleft, hright, hblock⟩
  · rw [hleft, hright]
    exact .ok (hfill [] [] rfl)
  · have hweight :=
      weightList_significant_child_lt first.language (clauseBlock?_mem hleft)
    rw [hleft, hright]
    apply agree_meet_container (h.line hlike) _ hfill
    exact hbelow _ (by omega) false _ (h.significant hblock) hname

/-- What alike parts ask for is done alike. -/
theorem agree_meet_demand
    (h : Likeness detail first second Like) {bound depth : Nat}
    (hbelow : AgreesBelow detail first second Like bound)
    {construct construct' : TryConstruct} {node node' : Node} {name name' : Option String}
    {part part' : Part} (hpart : LikePart Like part part') (hbound : part.weight ≤ bound)
    (hnode : Like node node') (hname : detail.binding name = detail.binding name')
    (hconstruct : construct.outline detail = construct'.outline detail) :
    Agree (TryConstruct.outline detail)
      ((part.demand first name node).meet first depth construct)
      ((part'.demand second name' node').meet second depth construct') := by
  rw [TryConstruct.outline_eq, TryConstruct.outline_eq] at hconstruct
  obtain ⟨hspan, hbody, hhandlers, horelse, hfinalizer⟩ := TryConstruct.mk.inj hconstruct
  cases hpart with
  | @statements items items' hitems =>
      rw [Part.weight] at hbound
      apply agree_meet_container (h.line hnode)
        (hbelow _ (by omega) false _ hitems hname)
      intro done done' hdone
      rw [TryConstruct.outline_eq, TryConstruct.outline_eq]
      simp only [outlineIn_append, hspan, hbody, hhandlers, horelse, hfinalizer, hdone]
  | @handler left right hlike =>
      have hblank :
          ∀ body body', optionalOutline detail body = optionalOutline detail body' →
            ({ blankClause left (first.language.handlerParts first.source left) with
                body } : HandlerClause).outline detail =
              ({ blankClause right (second.language.handlerParts second.source right) with
                body := body' } : HandlerClause).outline detail := by
        intro body body' hbodies
        rw [HandlerClause.outline_eq, HandlerClause.outline_eq]
        simp only [blankClause, h.span hlike, h.binding hlike, hbodies]
      have hadd :
          ∀ clause clause' : HandlerClause, clause.outline detail = clause'.outline detail →
            ({ construct with handlers := construct.handlers ++ [clause] } :
                TryConstruct).outline detail =
              ({ construct' with handlers := construct'.handlers ++ [clause'] } :
                TryConstruct).outline detail := by
        intro clause clause' hclause
        rw [TryConstruct.outline_eq, TryConstruct.outline_eq]
        simp only [handlersOutline_append, handlersOutline, hspan, hbody, hhandlers, horelse,
          hfinalizer, hclause]
      rw [Part.weight] at hbound
      rw [Part.demand, Part.demand]
      rcases absent_or_alike (h.handlerBody hlike) with
        ⟨hleft, hright⟩ | ⟨inner, inner', hleft, hright, hinner⟩
      · simp only [hleft, hright]
        exact .ok (hadd _ _ (hblank none none rfl))
      · have hweight :=
          weightList_significant_child_lt first.language (presentBody?_mem hleft)
        simp only [hleft, hright]
        apply agree_meet_container (h.line hlike)
        · exact hbelow _ (by omega) false _ (h.significant hinner) (h.binding hlike)
        · intro done done' hdone
          apply hadd
          apply hblank
          rw [optionalOutline, optionalOutline, hdone]
  | orelse hlike =>
      apply agree_meet_blockDemand h hbelow hlike hbound hname
      intro done done' hdone
      rw [TryConstruct.outline_eq, TryConstruct.outline_eq]
      simp only [optionalOutline, hspan, hbody, hhandlers, hfinalizer, hdone]
  | finalizer hlike =>
      apply agree_meet_blockDemand h hbelow hlike hbound hname
      intro done done' hdone
      rw [TryConstruct.outline_eq, TryConstruct.outline_eq]
      simp only [optionalOutline, hspan, hbody, hhandlers, horelse, hdone]

/-- Alike parts are lowered into constructs with the same outline. -/
theorem agree_lowerParts
    (h : Likeness detail first second Like) {bound depth : Nat}
    (hbelow : AgreesBelow detail first second Like bound)
    {construct construct' : TryConstruct} {node node' : Node} {name name' : Option String}
    {parts parts' : List Part} (hparts : List.Forall₂ (LikePart Like) parts parts')
    (hbound : partsWeight parts ≤ bound) (hnode : Like node node')
    (hname : detail.binding name = detail.binding name')
    (hconstruct : construct.outline detail = construct'.outline detail) :
    Agree (TryConstruct.outline detail)
      (lowerParts first depth name node construct parts)
      (lowerParts second depth name' node' construct' parts') := by
  induction hparts generalizing construct construct' with
  | nil =>
      rw [lowerParts_nil, lowerParts_nil]
      exact .ok hconstruct
  | cons hpart _ ih =>
      rw [partsWeight] at hbound
      rw [lowerParts_cons, lowerParts_cons]
      apply (agree_meet_demand h hbelow hpart (by omega) hnode hname hconstruct).bind
      intro next next' hnext
      exact ih (by omega) hnext

/-- A container becomes statements with the same outline. -/
theorem agree_perform_container
    {depth : Nat} {name name' : Option String} {node node' : Node} {flatten : Bool}
    {items items' : List Placed} {wrap wrap' : List Statement → Statement}
    (hline : node.line = node'.line)
    (hitems : Agree (outlineIn detail) (lowerItems first flatten (depth + 1) name items)
      (lowerItems second flatten (depth + 1) name' items'))
    (hwrap : ∀ children children', outlineIn detail children = outlineIn detail children' →
      (wrap children).outline detail = (wrap' children').outline detail) :
    Agree (Statement.outline detail)
      ((Task.container flatten items wrap).perform first depth name node)
      ((Task.container flatten items' wrap').perform second depth name' node') := by
  rw [Task.perform, Task.perform, hline]
  by_cases hdeep : maxNesting ≤ depth
  · rw [if_pos hdeep, if_pos hdeep]
    rfl
  · rw [if_neg hdeep, if_neg hdeep]
    apply hitems.bind
    intro children children' hchildren
    exact .ok (hwrap children children' hchildren)

/-- Alike nodes are lowered to statements with the same outline. -/
theorem agree_lowerItem
    (h : Likeness detail first second Like) {depth : Nat} {item item' : Placed}
    (hbelow : AgreesBelow detail first second Like item.node.weight)
    {name name' : Option String} (hitem : LikeItem Like item item')
    (hname : detail.binding name = detail.binding name') :
    Agree (Statement.outline detail) (lowerItem first depth name item)
      (lowerItem second depth name' item') := by
  obtain ⟨hrole, hlike⟩ := hitem
  have hspan := h.span hlike
  have hkind := h.kind hlike
  have hline := h.line hlike
  have hsignificant := h.significant hlike
  have hother :
      ∀ flatten,
        Agree (Statement.outline detail)
          ((Task.container flatten (first.language.significant item.node)
              (.other item.node.span item.node.kind)).perform first depth name item.node)
          ((Task.container flatten (second.language.significant item'.node)
              (.other item'.node.span item'.node.kind)).perform second depth name'
            item'.node) := by
    intro flatten
    have hweight := weightList_significant_lt first.language item.node
    apply agree_perform_container hline
      (hbelow _ (by omega) flatten _ hsignificant hname)
    intro children children' hchildren
    rw [Statement.outline, Statement.outline, hchildren, hspan, hkind]
  rw [lowerItem_eq_perform, lowerItem_eq_perform, Task.ofItem, Task.ofItem, ← hrole]
  cases item.role with
  | attempt =>
      have hweight := partsWeight_tryParts_lt first.language item.node
      simp only [Task.perform]
      apply (agree_lowerParts h hbelow (h.parts hlike) (by omega) hlike hname _).bind
      · intro construct construct' hconstruct
        apply Agree.ok
        rw [Statement.outline, Statement.outline, hconstruct]
      · rw [hspan]
  | throw =>
      dsimp only
      rw [← apply_ite Task.emit, ← apply_ite Task.emit]
      apply Agree.ok
      rw [outline_throw, outline_throw, h.rethrow hlike hname, hspan]
  | expressionStatement =>
      dsimp only
      generalize hbelowLeft : first.language.significant item.node = below
        at hsignificant ⊢
      generalize second.language.significant item'.node = below' at hsignificant ⊢
      cases hsignificant with
      | nil =>
          rw [hline, hkind]
          rfl
      | @cons expression expression' rest rest' hexpression hrest =>
          obtain ⟨hexpressionRole, hexpressionLike⟩ := hexpression
          dsimp only
          rw [← hexpressionRole]
          by_cases hthrow : (expression.role == .throw) = true
          · rw [if_pos hthrow, if_pos hthrow, ← apply_ite Task.emit, ← apply_ite Task.emit]
            apply Agree.ok
            rw [outline_expressionThrow, outline_expressionThrow,
              h.rethrow hexpressionLike hname, hspan]
          · have hmem : expression.node ∈ item.node.children :=
              node_mem_of_mem_significant (hbelowLeft ▸ List.mem_cons_self)
            have hweight := weightList_significant_child_lt first.language hmem
            rw [if_neg hthrow, if_neg hthrow]
            apply agree_perform_container hline
              (hbelow _ (by omega) true _ (h.significant hexpressionLike) hname)
            intro children children' hchildren
            rw [Statement.outline, Statement.outline, hchildren, hspan]
  | block => exact hother false
  | _ => exact hother true

/-- Alike nodes are lowered to statements with the same outline, whatever their number. -/
theorem agreesOn
    (h : Likeness detail first second Like) (items : List Placed) :
    AgreesOn detail first second Like items := by
  induction items using items_induction with
  | nil =>
      intro flatten depth name name' items' hitems hname
      cases hitems
      rw [lowerItems_nil, lowerItems_nil]
      rfl
  | cons item items ihInner ihRest =>
      intro flatten depth name name' all' hall hname
      cases hall with
      | @cons _ item' _ items' hitem hitems =>
          have hrest := ihRest flatten depth hitems hname
          by_cases hthrough : (flatten && item.role == .other) = true
          · have hweight := weightList_significant_lt first.language item.node
            have hinside :=
              ihInner _ (by omega) flatten depth (h.significant hitem.2) hname
            rw [lowerItems_cons_of_through hthrough,
              lowerItems_cons_of_through (hitem.1 ▸ hthrough)]
            apply hinside.bind
            intro found found' hfound
            apply hrest.bind
            intro rest rest' hrest
            apply Agree.ok
            rw [outlineIn_append, outlineIn_append, hfound, hrest]
          · rw [lowerItems_cons_of_kept hthrough,
              lowerItems_cons_of_kept (hitem.1 ▸ hthrough)]
            apply (agree_lowerItem h ihInner hitem hname).bind
            intro statement statement' hstatement
            apply hrest.bind
            intro rest rest' hrest
            apply Agree.ok
            rw [outlineIn, outlineIn, hstatement, hrest]

/-! ## Whole files -/

/-- Parse trees with alike roots are lowered to models with the same outline. -/
theorem agree_lower
    {language : Language} {source source' : List UInt8}
    (h : Likeness detail { language, source } { language, source := source' } Like)
    (path : String) {tree tree' : Tree}
    (hroot : Like tree.root tree'.root) (herror : tree.hasError = tree'.hasError) :
    Agree (SyntaxTree.outline detail) (lower language path source tree)
      (lower language path source' tree') := by
  have hstatements :
      Agree (outlineIn detail) (lowerRoot { language, source } tree.root)
        (lowerRoot { language, source := source' } tree'.root) := by
    rw [lowerRoot_eq_statementsOf, lowerRoot_eq_statementsOf]
    exact agreesOn h _ false 1 (h.significant hroot) rfl
  unfold lower
  rcases hstatements.cases with ⟨error, hleft, hright⟩ | ⟨left, right, hleft, hright, houtline⟩
  · rw [hleft, hright]
    rfl
  · rw [hleft, hright]
    apply Agree.ok
    simp only [SyntaxTree.outline, houtline, herror]

/-- Models that agree but for texts have the same reports, and where the lowering of one
fails the other fails with the same error. -/
theorem reports_of_agree
    {first second : Except LowerError SyntaxTree}
    (h : Agree (SyntaxTree.outline detail) first second) :
    (∃ error, first = .error error ∧ second = .error error) ∨
      ∃ model model', first = .ok model ∧ second = .ok model' ∧
        model.outline detail = model'.outline detail ∧
        model.classifyAll.map (Finding.outline detail) =
          model'.classifyAll.map (Finding.outline detail) ∧
        ∀ rule : Rule, rule.run model = rule.run model' ∧
          ∀ (σ : Type) (accept : σ → Diagnostic → σ) (start : σ),
            rule.runInto model accept start = rule.runInto model' accept start := by
  rcases h.cases with hfails | ⟨model, model', hfirst, hsecond, houtline⟩
  · exact .inl hfails
  · refine .inr ⟨model, model', hfirst, hsecond, houtline,
      SyntaxTree.map_outline_classifyAll_eq houtline, ?_⟩
    intro rule
    have hrun := SyntaxTree.run_eq_of_outline_eq houtline rule
    refine ⟨hrun, ?_⟩
    intro σ accept start
    rw [rule.runInto_eq, rule.runInto_eq, hrun]

/-! ## The text of a file -/

/-- A node is like itself under any two texts: texts decide only exception types, bound
names and rethrows. -/
theorem likeness_of_texts
    (language : Language) (source source' : List UInt8) :
    Likeness .shape { language, source } { language, source := source' } Eq := by
  have hitems : ∀ items : List Placed, List.Forall₂ (LikeItem Eq) items items :=
    fun items => List.forall₂_same.mpr fun item _ => ⟨rfl, rfl⟩
  have hoptional : ∀ node : Option Node, Option.Rel Eq node node := by
    intro node
    cases node with
    | none => exact .none
    | some node => exact .some rfl
  refine
    { span := congrArg Node.span
      kind := congrArg Node.kind
      significant := ?_
      leadingItems := ?_
      body := ?_
      handlerBody := ?_
      binding := fun _ => rfl
      rethrow := fun _ _ => rfl }
  · rintro node _ rfl
    exact hitems _
  · rintro node _ rfl
    exact hitems _
  · rintro node _ rfl
    exact hoptional _
  · rintro node _ rfl
    rw [Search.presentBody?_eq, Search.presentBody?_eq]
    exact hoptional _

/-- Verdicts do not depend on texts.  Under any two texts a parse tree fails to be lowered
with the same error, or is lowered to models that are equal but for exception types, bound
names and whether a throw is a rethrow; the findings of both have the same spans and
verdicts, in the same order, and every rule reports the same of both. -/
theorem verdicts_independent_of_text
    (language : Language) (path : String) (tree : Tree) (source source' : List UInt8) :
    (∃ error, lower language path source tree = .error error ∧
        lower language path source' tree = .error error) ∨
      ∃ model model', lower language path source tree = .ok model ∧
        lower language path source' tree = .ok model' ∧
        model.outline .shape = model'.outline .shape ∧
        model.classifyAll.map (fun finding =>
            (finding.construct.span, finding.clause.span, finding.verdict)) =
          model'.classifyAll.map (fun finding =>
            (finding.construct.span, finding.clause.span, finding.verdict)) ∧
        ∀ rule : Rule, rule.run model = rule.run model' ∧
          ∀ (σ : Type) (accept : σ → Diagnostic → σ) (start : σ),
            rule.runInto model accept start = rule.runInto model' accept start := by
  have hagree :=
    agree_lower (likeness_of_texts language source source') path (rfl : tree.root = tree.root)
      (rfl : tree.hasError = tree.hasError)
  rcases reports_of_agree hagree with
    hfails | ⟨model, model', hmodel, hmodel', houtline, hfindings, hreports⟩
  · exact .inl hfails
  · refine .inr ⟨model, model', hmodel, hmodel', houtline, ?_, hreports⟩
    have hspans := congrArg
      (List.map fun finding : Finding =>
        (finding.construct.span, finding.clause.span, finding.verdict)) hfindings
    simpa only [List.map_map, Function.comp_def, Finding.outline, TryConstruct.outline_eq,
      HandlerClause.outline_eq] using hspans

end HandlerLint.Lowering
