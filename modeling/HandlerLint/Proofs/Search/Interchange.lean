import HandlerLint.Proofs.Search.Report

/-!
# Nodes that lowering cannot tell apart

Two nodes are interchangeable when they have the same label, play the same role and are
lowered to the same, whatever is around them.  Nodes whose significant children are
interchangeable are interchangeable again, and so are try nodes with interchangeable parts.

Nothing is asked of what is inside a container, so nodes may be interchangeable with quite
different nodes below them.
-/

namespace HandlerLint.Search

open Source
open Lowering

variable {context : Context}

/-- Placed nodes that no lowering tells apart. -/
structure Interchangeable (context : Context) (left right : Placed) : Prop where
  role : left.role = right.role
  label : left.node.label = right.node.label
  lowering : ∀ flatten depth binding,
    lowerItems context flatten depth binding [left] =
      lowerItems context flatten depth binding [right]

theorem Interchangeable.refl (item : Placed) : Interchangeable context item item :=
  ⟨rfl, rfl, fun _ _ _ => rfl⟩

/-- Lists of interchangeable nodes are lowered to the same. -/
theorem lowerItems_congr
    {flatten : Bool} {depth : Nat} {binding : Option String} {left right : List Placed}
    (h : List.Forall₂ (Interchangeable context) left right) :
    lowerItems context flatten depth binding left =
      lowerItems context flatten depth binding right := by
  induction h with
  | nil => rfl
  | @cons item other items others hitem _ ih =>
      rw [← List.singleton_append, lowerItems_append, hitem.lowering, ih, ← lowerItems_append]
      rfl

/-- Nodes that are lowered to the same statement, and through which the same is found, are
interchangeable. -/
theorem interchangeable_of_lowerItem
    {left right : Placed} (hrole : left.role = right.role)
    (hlabel : left.node.label = right.node.label)
    (hitem : ∀ depth binding,
      lowerItem context depth binding left = lowerItem context depth binding right)
    (hthrough : left.role = .other → ∀ depth binding,
      lowerItems context true depth binding (context.language.significant left.node) =
        lowerItems context true depth binding (context.language.significant right.node)) :
    Interchangeable context left right := by
  refine ⟨hrole, hlabel, ?_⟩
  intro flatten depth binding
  by_cases hflatten : (flatten && left.role == .other) = true
  · have hother : (flatten && right.role == .other) = true := hrole ▸ hflatten
    rw [lowerItems_cons_of_through hflatten, lowerItems_cons_of_through hother]
    rw [Bool.and_eq_true, beq_iff_eq] at hflatten
    rw [hflatten.1, hthrough hflatten.2]
  · have hother : ¬(flatten && right.role == .other) = true := hrole ▸ hflatten
    rw [lowerItems_cons_of_kept hflatten, lowerItems_cons_of_kept hother, hitem]

theorem span_eq_of_label_eq
    {left right : Node} (h : left.label = right.label) :
    left.span = right.span := by
  unfold Node.span
  rw [h]

theorem line_eq_of_label_eq
    {left right : Node} (h : left.label = right.label) :
    left.line = right.line :=
  congrArg Span.startLine (span_eq_of_label_eq h)

theorem perform_container_congr
    {flatten : Bool} {depth : Nat} {binding : Option String} {left right : Node}
    {items others : List Placed} {wrap : List Statement → Statement}
    (hlabel : left.label = right.label)
    (hitems : ∀ depth binding, lowerItems context flatten depth binding items =
      lowerItems context flatten depth binding others) :
    (Task.container flatten items wrap).perform context depth binding left =
      (Task.container flatten others wrap).perform context depth binding right := by
  rw [Task.perform, Task.perform, hitems, line_eq_of_label_eq hlabel]

/-- Nodes that open a container with their significant children are interchangeable if these
are lowered to the same. -/
theorem interchangeable_of_below
    {left right : Placed} (hrole : left.role = right.role)
    (hlabel : left.node.label = right.node.label)
    (hopens : left.role ≠ .attempt ∧ left.role ≠ .throw ∧ left.role ≠ .expressionStatement)
    (hbelow : ∀ depth binding,
      lowerItems context (left.role != .block) depth binding
          (context.language.significant left.node) =
        lowerItems context (left.role != .block) depth binding
          (context.language.significant right.node)) :
    Interchangeable context left right := by
  have hspan := span_eq_of_label_eq hlabel
  have hkind : left.node.kind = right.node.kind := congrArg Label.kind hlabel
  obtain ⟨hattempt, hthrow, hexpression⟩ := hopens
  apply interchangeable_of_lowerItem hrole hlabel
  · intro depth binding
    rw [lowerItem_eq_perform, lowerItem_eq_perform, Task.ofItem, Task.ofItem, ← hrole]
    cases hcase : left.role with
    | attempt => exact absurd hcase hattempt
    | throw => exact absurd hcase hthrow
    | expressionStatement => exact absurd hcase hexpression
    | _ =>
        rw [hcase] at hbelow
        dsimp only
        rw [hspan, hkind]
        exact perform_container_congr hlabel hbelow
  · intro hother depth binding
    have h := hbelow depth binding
    rw [hother] at h
    exact h

/-- Expression statements are interchangeable if what is below their expressions is lowered
to the same. -/
theorem interchangeable_of_expression
    {left right expression other : Placed} {rest others : List Placed}
    (hrole : left.role = right.role) (hlabel : left.node.label = right.node.label)
    (hstatement : left.role = .expressionStatement)
    (hleft : context.language.significant left.node = expression :: rest)
    (hright : context.language.significant right.node = other :: others)
    (hexpression : expression.role ≠ .throw) (hother : other.role ≠ .throw)
    (hbelow : ∀ depth binding,
      lowerItems context true depth binding (context.language.significant expression.node) =
        lowerItems context true depth binding (context.language.significant other.node)) :
    Interchangeable context left right := by
  apply interchangeable_of_lowerItem hrole hlabel
  · intro depth binding
    rw [lowerItem_eq_perform, lowerItem_eq_perform, Task.ofItem, Task.ofItem, ← hrole,
      hstatement]
    simp only [hleft, hright]
    rw [if_neg (mt beq_iff_eq.mp hexpression), if_neg (mt beq_iff_eq.mp hother),
      span_eq_of_label_eq hlabel]
    exact perform_container_congr hlabel hbelow
  · intro hcontrary
    rw [hstatement] at hcontrary
    cases hcontrary

/-! ## Parts of try nodes -/

/-- Parts of two try nodes that ask for the same. -/
def SamePart (context : Context) (left right : Node) (part other : Part) : Prop :=
  ∀ binding depth construct,
    (part.demand context binding left).meet context depth construct =
      (other.demand context binding right).meet context depth construct

theorem lowerParts_congr
    {depth : Nat} {binding : Option String} {left right : Node} {construct : TryConstruct}
    {parts others : List Part}
    (h : List.Forall₂ (SamePart context left right) parts others) :
    lowerParts context depth binding left construct parts =
      lowerParts context depth binding right construct others := by
  induction h generalizing construct with
  | nil => rw [lowerParts_nil, lowerParts_nil]
  | cons hpart _ ih =>
      rw [lowerParts_cons, lowerParts_cons, hpart]
      simp only [ih]

/-- Try nodes whose parts ask for the same are interchangeable. -/
theorem interchangeable_of_parts
    {left right : Placed} (hrole : left.role = right.role)
    (hlabel : left.node.label = right.node.label) (hattempt : left.role = .attempt)
    (hparts : List.Forall₂ (SamePart context left.node right.node)
      (tryParts context.language left.node) (tryParts context.language right.node)) :
    Interchangeable context left right := by
  apply interchangeable_of_lowerItem hrole hlabel
  · intro depth binding
    rw [lowerItem_eq_perform, lowerItem_eq_perform, Task.ofItem, Task.ofItem, ← hrole,
      hattempt]
    dsimp only [Task.perform]
    rw [lowerParts_congr hparts, span_eq_of_label_eq hlabel]
  · intro hcontrary
    rw [hattempt] at hcontrary
    cases hcontrary

theorem meet_container_congr
    {depth : Nat} {binding : Option String} {left right : Node} {items others : List Placed}
    {construct : TryConstruct} {fill : List Statement → TryConstruct → TryConstruct}
    (hlabel : left.label = right.label)
    (hitems : ∀ depth binding, lowerItems context false depth binding items =
      lowerItems context false depth binding others) :
    (Demand.container left binding items fill).meet context depth construct =
      (Demand.container right binding others fill).meet context depth construct := by
  rw [Demand.meet, Demand.meet, hitems, line_eq_of_label_eq hlabel]

theorem samePart_statements
    {left right : Node} {items others : List Placed} (hlabel : left.label = right.label)
    (hitems : List.Forall₂ (Interchangeable context) items others) :
    SamePart context left right (.statements items) (.statements others) :=
  fun _ _ _ => meet_container_congr hlabel fun _ _ => lowerItems_congr hitems

/-- A part asks for the same at try nodes with one label. -/
theorem samePart_self
    {left right : Node} (hlabel : left.label = right.label) (part : Part) :
    SamePart context left right part part := by
  cases part with
  | statements items =>
      apply samePart_statements hlabel
      exact List.forall₂_same.mpr fun item _ => .refl item
  | _ clause => exact fun _ _ _ => rfl

theorem forall₂_leadingPart
    {left right : Node} {items others : List Placed} (hlabel : left.label = right.label)
    (hitems : List.Forall₂ (Interchangeable context) items others) :
    List.Forall₂ (SamePart context left right) (leadingPart items) (leadingPart others) := by
  cases hitems with
  | nil => exact .nil
  | cons hitem hitems =>
      exact .cons (samePart_statements hlabel (.cons hitem hitems)) .nil

end HandlerLint.Search
