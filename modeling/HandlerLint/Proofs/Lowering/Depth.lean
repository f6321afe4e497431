import HandlerLint.Proofs.Lowering.Success

/-!
# Depths of statements

A statement of a file has depth one, and a statement directly inside a statement of some
depth is one deeper.  A try construct has its body, the bodies of its handlers and its `else`
and `finally` blocks directly inside it.

In a model that was lowered, whatever is inside a statement was lowered with one more
container open, for which there had to be room.  Depths are therefore limited.
-/

namespace HandlerLint

/-- The statements directly inside a construct. -/
def TryConstruct.inside (construct : TryConstruct) : List Statement :=
  construct.body ++ construct.handlers.flatMap (fun clause => clause.body.getD []) ++
    construct.orelse.getD [] ++ construct.finalizer.getD []

/-- The statements directly inside a statement. -/
def Statement.inside : Statement → List Statement
  | .attempt construct => construct.inside
  | statement => statement.nested

theorem Statement.inside_eq_nested
    {statement : Statement} (h : ∀ construct, statement ≠ .attempt construct) :
    statement.inside = statement.nested := by
  cases statement with
  | attempt construct => exact absurd rfl (h construct)
  | _ => rfl

/-- The statements of a given depth among some statements and all that is inside them. -/
inductive AtDepth (statements : List Statement) : Nat → Statement → Prop
  | top {statement : Statement} : statement ∈ statements → AtDepth statements 1 statement
  | inside {depth : Nat} {outer statement : Statement} :
      AtDepth statements depth outer → statement ∈ outer.inside →
        AtDepth statements (depth + 1) statement

theorem TryConstruct.mem_inside_iff
    {construct : TryConstruct} {statement : Statement} :
    statement ∈ construct.inside ↔
      statement ∈ construct.body ∨
        (∃ clause ∈ construct.handlers, statement ∈ clause.body.getD []) ∨
        statement ∈ construct.orelse.getD [] ∨ statement ∈ construct.finalizer.getD [] := by
  unfold TryConstruct.inside
  simp only [List.mem_append, List.mem_flatMap, or_assoc]

namespace Lowering

open Source

variable {context : Context}

/-- A statement that a node of some depth was lowered to. -/
def LoweredAt (context : Context) (depth : Nat) (statement : Statement) : Prop :=
  ∃ binding item, lowerItem context depth binding item = .ok statement

/-- A statement that was lowered in a container for which there was room at some depth. -/
def LoweredInside (context : Context) (depth : Nat) (statement : Statement) : Prop :=
  depth < maxNesting ∧ LoweredAt context (depth + 1) statement

theorem loweredAt_of_mem
    {flatten : Bool} {depth : Nat} {binding : Option String} {items : List Placed}
    {statements : List Statement}
    (h : lowerItems context flatten depth binding items = .ok statements) :
    ∀ statement ∈ statements, LoweredAt context depth statement := by
  induction items using items_induction generalizing statements with
  | nil =>
      rw [lowerItems_nil] at h
      cases h
      exact fun _ hmem => (by cases hmem)
  | cons item items hbelow ih =>
      by_cases hthrough : (flatten && item.role == .other) = true
      · have hweight := weightList_significant_lt context.language item.node
        rw [lowerItems_cons_of_through hthrough] at h
        obtain ⟨found, hfound, h⟩ := bind_eq_ok_iff.mp h
        obtain ⟨rest, hrest, h⟩ := bind_eq_ok_iff.mp h
        cases h
        exact List.forall_mem_append.mpr ⟨hbelow _ (by omega) hfound, ih hrest⟩
      · rw [lowerItems_cons_of_kept hthrough] at h
        obtain ⟨first, hfirst, h⟩ := bind_eq_ok_iff.mp h
        obtain ⟨rest, hrest, h⟩ := bind_eq_ok_iff.mp h
        cases h
        exact List.forall_mem_cons.mpr ⟨⟨binding, item, hfirst⟩, ih hrest⟩

theorem loweredInside_of_mem
    {flatten : Bool} {depth : Nat} {binding : Option String} {items : List Placed}
    {statements : List Statement} (hroom : depth < maxNesting)
    (h : lowerItems context flatten (depth + 1) binding items = .ok statements) :
    ∀ statement ∈ statements, LoweredInside context depth statement :=
  fun statement hstatement => ⟨hroom, loweredAt_of_mem h statement hstatement⟩

/-! ## Try constructs -/

theorem loweredInside_of_meet_container
    {depth : Nat} {binding : Option String} {at_ : Node} {items : List Placed}
    {fill : List Statement → TryConstruct → TryConstruct} {construct next : TryConstruct}
    (h : (Demand.container at_ binding items fill).meet context depth construct = .ok next) :
    ∃ done, next = fill done construct ∧
      ∀ statement ∈ done, LoweredInside context depth statement := by
  obtain ⟨hroom, done, hdone, rfl⟩ := Demand.meet_container_eq_ok h
  exact ⟨done, rfl, loweredInside_of_mem hroom hdone⟩

theorem loweredInside_of_meet_blockDemand
    {depth : Nat} {binding : Option String} {clause : Node}
    {fill : List Statement → TryConstruct → TryConstruct} {construct next : TryConstruct}
    (h : (blockDemand context binding clause fill).meet context depth construct = .ok next) :
    ∃ done, next = fill done construct ∧
      ∀ statement ∈ done, LoweredInside context depth statement := by
  unfold blockDemand at h
  cases hblock : clauseBlock? context.language clause with
  | none =>
      simp only [hblock] at h
      cases h
      exact ⟨[], rfl, fun _ hmem => (by cases hmem)⟩
  | some block =>
      simp only [hblock] at h
      exact loweredInside_of_meet_container h

/-- What a part of a construct asks for puts no statement into the construct but those that
it lowers. -/
theorem loweredInside_of_meet
    {depth : Nat} {binding : Option String} {node : Node} {part : Part}
    {construct next : TryConstruct}
    (h : (part.demand context binding node).meet context depth construct = .ok next) :
    ∀ statement ∈ next.inside,
      statement ∈ construct.inside ∨ LoweredInside context depth statement := by
  simp only [TryConstruct.mem_inside_iff]
  cases part with
  | statements items =>
      obtain ⟨done, rfl, hdone⟩ := loweredInside_of_meet_container h
      grind
  | handler clause =>
      rw [Part.demand] at h
      cases hbody : presentBody? (context.language.handlerParts context.source clause) with
      | none =>
          simp only [hbody] at h
          cases h
          grind [blankClause]
      | some body =>
          simp only [hbody] at h
          obtain ⟨done, rfl, hdone⟩ := loweredInside_of_meet_container h
          grind
  | orelse clause =>
      obtain ⟨done, rfl, hdone⟩ := loweredInside_of_meet_blockDemand h
      grind
  | finalizer clause =>
      obtain ⟨done, rfl, hdone⟩ := loweredInside_of_meet_blockDemand h
      grind

theorem loweredInside_of_lowerParts
    {depth : Nat} {binding : Option String} {node : Node} {parts : List Part}
    {construct result : TryConstruct}
    (h : lowerParts context depth binding node construct parts = .ok result) :
    ∀ statement ∈ result.inside,
      statement ∈ construct.inside ∨ LoweredInside context depth statement := by
  induction parts generalizing construct with
  | nil =>
      rw [lowerParts_nil] at h
      cases h
      exact fun _ hmem => .inl hmem
  | cons part parts ih =>
      rw [lowerParts_cons] at h
      obtain ⟨next, hmeet, hrest⟩ := bind_eq_ok_iff.mp h
      intro statement hstatement
      rcases ih hrest statement hstatement with hnext | hinside
      · exact loweredInside_of_meet hmeet statement hnext
      · exact .inr hinside

/-! ## Statements -/

/-- Whatever is directly inside a statement was lowered one container deeper. -/
theorem loweredInside_of_lowerItem
    {depth : Nat} {binding : Option String} {item : Placed} {statement : Statement}
    (h : lowerItem context depth binding item = .ok statement) :
    ∀ inner ∈ statement.inside, LoweredInside context depth inner := by
  intro inner hinner
  rcases lowerItem_eq_ok_cases h with ⟨construct, rfl, hparts⟩ | ⟨hattempt, _, hnested⟩
  · rcases loweredInside_of_lowerParts hparts inner hinner with hblank | hinside
    · cases hblank
    · exact hinside
  · rw [Statement.inside_eq_nested hattempt] at hinner
    rcases hnested with hnone | ⟨hroom, flatten, items, hlowered⟩
    · rw [hnone] at hinner
      cases hinner
    · exact loweredInside_of_mem hroom hlowered inner hinner

/-- A statement of a lowered file was lowered at its depth, which is within the limit. -/
theorem depth_le_of_atDepth
    {items : List Placed} {statements : List Statement} {depth : Nat} {statement : Statement}
    {binding : Option String}
    (h : lowerItems context false 1 binding items = .ok statements)
    (hdepth : AtDepth statements depth statement) :
    depth ≤ maxNesting ∧ LoweredAt context depth statement := by
  induction hdepth with
  | top hmem => exact ⟨by decide, loweredAt_of_mem h _ hmem⟩
  | inside _ hmem ih =>
      obtain ⟨_, binding, item, hitem⟩ := ih
      obtain ⟨hroom, hlowered⟩ := loweredInside_of_lowerItem hitem _ hmem
      exact ⟨hroom, hlowered⟩

end Lowering

end HandlerLint
