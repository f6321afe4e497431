import HandlerLint.Proofs.Search.Site

/-!
# The search for handlers

The search starts at the significant children of the root.  From a node it goes on in
stages, each a list of sites:

* nowhere from a throw, or from an expression statement whose expression is a throw;
* below the expression from any other expression statement;
* from a try node, to the leading children, into the body, into the present body of each
  handler, and into the blocks of the `else` and `finally` clauses;
* below the node from any other node.

A node is visited when the search gets there.  The tour is the list of everything that
the search passes, in the order in which it passes it: visited nodes, and the handlers of
visited try nodes, each ahead of what is found inside it.
-/

namespace HandlerLint.Search

open Source
open Lowering

/-- A list of sites at which the search goes on, with the handler they are inside of, if
they are inside one. -/
structure Stage where
  clause : Option Site
  sites : List Site

/-- The clauses of a try node: the handlers, then the `else` and `finally` clauses. -/
def Site.clauses (language : Language) (site : Site) : List Site :=
  site.childrenAs language .handler ++ site.childrenAs language .orelse ++
    site.childrenAs language .finalizer

/-- Which child of a clause the search goes into: its block, or its present body if it
is a handler. -/
def clauseBodyIndex? (language : Language) (clause : Site) : Option Nat :=
  if clause.role = .handler then presentBodyIndex? language clause.node
  else bodyIndex? language clause.node

/-- The stage of a clause. -/
def clauseStage (language : Language) (clause : Site) : Stage :=
  { clause := if clause.role = .handler then some clause else none
    sites := clause.within language (clauseBodyIndex? language clause) }

/-- The stages of a try node. -/
def tryStages (language : Language) (site : Site) : List Stage :=
  { clause := none, sites := site.leading language } ::
    { clause := none, sites := site.within language (bodyIndex? language site.node) } ::
    (site.clauses language).map (clauseStage language)

/-- Where the search goes on from a node that is no try node. -/
def openedSites (language : Language) (site : Site) : List Site :=
  match site.role with
  | .throw => []
  | .expressionStatement =>
      match site.below language with
      | [] => []
      | expression :: _ =>
          if expression.role == .throw then [] else expression.below language
  | _ => site.below language

/-- The opened sites are nothing, all that is below the node, or all that is below one of
its children. -/
theorem openedSites_cases
    (language : Language) (site : Site) :
    openedSites language site = [] ∨
      openedSites language site = site.below language ∨
      ∃ expression ∈ site.below language,
        openedSites language site = expression.below language := by
  unfold openedSites
  split
  · exact .inl rfl
  · split
    · exact .inl rfl
    · next expression rest hexpression =>
        split
        · exact .inl rfl
        · refine .inr (.inr ⟨expression, ?_, rfl⟩)
          rw [hexpression]
          exact List.mem_cons_self
  · exact .inr (.inl rfl)

/-- Where the search goes on from a node. -/
def stages (language : Language) (site : Site) : List Stage :=
  if site.role == .attempt then tryStages language site
  else [⟨none, openedSites language site⟩]

/-- The nodes that the search visits from some sites: the least set that holds the sites
and, with a node, the nodes of its stages. -/
inductive Visited (language : Language) (start : List Site) : Site → Prop
  | start {site : Site} : site ∈ start → Visited language start site
  | onward {site next : Site} {stage : Stage} :
      Visited language start site → stage ∈ stages language site → next ∈ stage.sites →
        Visited language start next

/-! ## Weights -/

/-- A bound on the search from some sites. -/
def sitesWeight (sites : List Site) : Nat :=
  Placed.weightList (sites.map Site.item)

theorem sitesWeight_cons
    (site : Site) (sites : List Site) :
    sitesWeight (site :: sites) = site.node.weight + sitesWeight sites := by
  unfold sitesWeight
  rw [List.map_cons, Placed.weightList_cons]
  rfl

theorem sitesWeight_below_lt
    (language : Language) (site : Site) :
    sitesWeight (site.below language) < site.node.weight := by
  have hlt := weightList_significant_lt language site.node
  unfold sitesWeight Site.below
  rw [map_item_sitesBelow]
  omega

theorem node_mem_children_of_mem_below
    {language : Language} {site child : Site} (h : child ∈ site.below language) :
    child.node ∈ site.node.children := by
  obtain ⟨index, node, hnode, rfl, _⟩ := mem_sitesBelow_iff.mp h
  exact List.mem_of_getElem? hnode

theorem weight_lt_of_mem_below
    {language : Language} {site child : Site} (h : child ∈ site.below language) :
    child.node.weight < site.node.weight :=
  Node.weight_lt_of_mem_children (node_mem_children_of_mem_below h)

theorem sitesWeight_within_lt
    (language : Language) (site : Site) (index : Option Nat) :
    sitesWeight (site.within language index) < site.node.weight := by
  have hpos := Node.weight_pos site.node
  unfold sitesWeight
  rw [map_item_within]
  cases index with
  | none => simpa [blockItems] using hpos
  | some index =>
      rw [Option.bind_some]
      cases hchild : site.node.children[index]? with
      | none => simpa [blockItems] using hpos
      | some child =>
          have hlt := weightList_significant_child_lt language (List.mem_of_getElem? hchild)
          simp only [blockItems, Option.map_some, Option.getD_some]
          omega

theorem sitesWeight_leading_lt
    (language : Language) (site : Site) :
    sitesWeight (site.leading language) < site.node.weight := by
  have hleading := weightList_leading_le language site.node
  have hbeside := besideBody_add_bodyPart_le language site.node
  unfold sitesWeight
  rw [map_item_leading, Node.weight_eq]
  omega

theorem sitesWeight_openedSites_lt
    (language : Language) (site : Site) :
    sitesWeight (openedSites language site) < site.node.weight := by
  rcases openedSites_cases language site with hnone | hbelow | ⟨expression, hmem, hinside⟩
  · rw [hnone]
    exact Node.weight_pos site.node
  · rw [hbelow]
    exact sitesWeight_below_lt language site
  · rw [hinside]
    exact Nat.lt_trans (sitesWeight_below_lt language expression)
      (weight_lt_of_mem_below hmem)

theorem mem_below_of_mem_childrenAs
    {language : Language} {role : Role} {site child : Site}
    (h : child ∈ site.childrenAs language role) :
    child ∈ site.below language ∧ child.role = role := by
  obtain ⟨hbelow, hrole⟩ := List.mem_filter.mp h
  exact ⟨hbelow, beq_iff_eq.mp hrole⟩

theorem mem_clauses_iff
    {language : Language} {site clause : Site} :
    clause ∈ site.clauses language ↔
      clause ∈ site.below language ∧ (clausePart? clause.item).isSome := by
  have hrole :
      (clausePart? clause.item).isSome = true ↔
        clause.role = .handler ∨ clause.role = .orelse ∨ clause.role = .finalizer := by
    unfold clausePart? Site.role
    cases clause.item.role <;> simp
  unfold Site.clauses Site.childrenAs
  rw [hrole]
  simp only [List.mem_append, List.mem_filter, beq_iff_eq]
  tauto

/-- The stages of a try node, one kind after another. -/
theorem mem_tryStages_iff
    {language : Language} {site : Site} {stage : Stage} :
    stage ∈ tryStages language site ↔
      stage = { clause := none, sites := site.leading language } ∨
        stage =
          { clause := none
            sites := site.within language (bodyIndex? language site.node) } ∨
        ∃ clause ∈ site.clauses language, stage = clauseStage language clause := by
  unfold tryStages
  simp only [List.mem_cons, List.mem_map, eq_comm]

/-- Only a try node has stages inside handlers, and these are its handlers. -/
theorem clause_eq_some
    {language : Language} {site handler : Site} {stage : Stage}
    (hstage : stage ∈ stages language site) (h : stage.clause = some handler) :
    site.role = .attempt ∧ handler ∈ site.childrenAs language .handler ∧
      stage = clauseStage language handler := by
  unfold stages at hstage
  split at hstage
  · next hrole =>
      refine ⟨beq_iff_eq.mp hrole, ?_⟩
      rcases mem_tryStages_iff.mp hstage with rfl | rfl | ⟨clause, hclause, rfl⟩
      · cases h
      · cases h
      · by_cases hhandler : clause.role = .handler
        · simp only [clauseStage, if_pos hhandler] at h
          cases h
          exact ⟨List.mem_filter.mpr
            ⟨(mem_clauses_iff.mp hclause).1, beq_iff_eq.mpr hhandler⟩, rfl⟩
        · simp only [clauseStage, if_neg hhandler] at h
          cases h
  · rw [List.mem_singleton] at hstage
    subst hstage
    cases h

theorem sitesWeight_stage_lt
    {language : Language} {site : Site} {stage : Stage}
    (h : stage ∈ stages language site) :
    sitesWeight stage.sites < site.node.weight := by
  unfold stages at h
  split at h
  · rcases mem_tryStages_iff.mp h with rfl | rfl | ⟨clause, hclause, rfl⟩
    · exact sitesWeight_leading_lt language site
    · exact sitesWeight_within_lt language site _
    · exact Nat.lt_trans (sitesWeight_within_lt language clause _)
        (weight_lt_of_mem_below (mem_clauses_iff.mp hclause).1)
  · rw [List.mem_singleton] at h
    subst h
    exact sitesWeight_openedSites_lt language site

/-- What holds of no sites, and of some sites whenever it holds of every stage of the
first site and of the other sites, holds of any sites. -/
theorem sites_induction
    (language : Language) {motive : List Site → Prop}
    (nil : motive [])
    (cons : ∀ site sites,
      (∀ stage ∈ stages language site, motive stage.sites) → motive sites →
        motive (site :: sites))
    (sites : List Site) : motive sites := by
  induction hweight : sitesWeight sites using Nat.strongRecOn
    generalizing sites with
  | _ weight ih =>
      cases sites with
      | nil => exact nil
      | cons site sites =>
          have hpos := Node.weight_pos site.node
          rw [sitesWeight_cons] at hweight
          apply cons
          · intro stage hstage
            have hlt := sitesWeight_stage_lt hstage
            exact ih _ (by omega) stage.sites rfl
          · exact ih _ (by omega) sites rfl

/-! ## The tour -/

/-- What the search passes: a visited node, or a handler of a visited try node. -/
inductive Stop where
  | node (site : Site)
  | clause (attempt handler : Site)

/-- Where a stop is. -/
def Stop.address : Stop → List Nat
  | .node site => site.address
  | .clause _ handler => handler.address

/-- The try node at a stop. -/
def Stop.attempt? : Stop → Option Site
  | .node site => if site.role = .attempt then some site else none
  | .clause _ _ => none

/-- The node that the search passes at a stop, if it does not enter a handler there. -/
def Stop.node? : Stop → Option Site
  | .node site => some site
  | .clause _ _ => none

theorem Stop.attempt?_eq_some_iff
    {stop : Stop} {site : Site} :
    stop.attempt? = some site ↔ stop = .node site ∧ site.role = .attempt := by
  cases stop with
  | node other =>
      rw [Stop.attempt?]
      split
      · next hrole => grind
      · next hrole => grind
  | clause attempt handler => simp [Stop.attempt?]

/-- The handler that a stage is inside of. -/
def Stage.entry (site : Site) (stage : Stage) : List Stop :=
  (stage.clause.map (Stop.clause site)).toList

/-- Everything that the search passes from some sites, in order. -/
def tour (language : Language) : List Site → List Stop
  | [] => []
  | site :: sites =>
      .node site ::
        ((stages language site).attach.flatMap (fun stage =>
            stage.1.entry site ++ tour language stage.1.sites) ++
          tour language sites)
termination_by sites => sitesWeight sites
decreasing_by
  · have := sitesWeight_stage_lt stage.2
    rw [sitesWeight_cons]
    omega
  · have := Node.weight_pos site.node
    rw [sitesWeight_cons]
    omega

/-- Everything that the search passes in one stage of a node. -/
def stageStops (language : Language) (site : Site) (stage : Stage) : List Stop :=
  stage.entry site ++ tour language stage.sites

@[simp] theorem tour_nil
    (language : Language) :
    tour language [] = [] := by
  rw [tour]

theorem tour_cons
    (language : Language) (site : Site) (sites : List Site) :
    tour language (site :: sites) =
      .node site ::
        ((stages language site).flatMap (stageStops language site) ++
          tour language sites) := by
  have hstages :
      (stages language site).attach.flatMap (fun stage =>
          stage.1.entry site ++ tour language stage.1.sites) =
        (stages language site).flatMap (stageStops language site) := by
    conv_rhs => rw [← List.attach_map_subtype_val (stages language site), List.flatMap_map]
    rfl
  rw [tour, hstages]

theorem mem_stageStops_iff
    {language : Language} {site : Site} {stage : Stage} {stop : Stop} :
    stop ∈ stageStops language site stage ↔
      (∃ handler, stage.clause = some handler ∧ stop = .clause site handler) ∨
        stop ∈ tour language stage.sites := by
  unfold stageStops Stage.entry
  rw [List.mem_append, Option.mem_toList, Option.map_eq_some_iff]
  simp only [eq_comm]

theorem mem_tour_cons_iff
    {language : Language} {site : Site} {sites : List Site} {stop : Stop} :
    stop ∈ tour language (site :: sites) ↔
      stop = .node site ∨
        (∃ stage ∈ stages language site, stop ∈ stageStops language site stage) ∨
        stop ∈ tour language sites := by
  rw [tour_cons, List.mem_cons, List.mem_append, List.mem_flatMap]

/-- With a node, a tour passes everything that it finds in the stages of the node. -/
theorem mem_tour_of_mem_stageStops
    {language : Language} {sites : List Site} {site : Site} {stage : Stage} {stop : Stop}
    (hsite : Stop.node site ∈ tour language sites) (hstage : stage ∈ stages language site)
    (hstop : stop ∈ stageStops language site stage) :
    stop ∈ tour language sites := by
  induction sites using sites_induction language with
  | nil => simp at hsite
  | cons first rest ihStages ihRest =>
      rw [mem_tour_cons_iff] at hsite ⊢
      rcases hsite with hfirst | ⟨other, hother, hsite⟩ | hrest
      · cases hfirst
        exact .inr (.inl ⟨stage, hstage, hstop⟩)
      · rcases mem_stageStops_iff.mp hsite with ⟨handler, _, hclause⟩ | hsite
        · cases hclause
        · exact .inr (.inl ⟨other, hother,
            mem_stageStops_iff.mpr (.inr (ihStages other hother hsite))⟩)
      · exact .inr (.inr (ihRest hrest))

theorem mem_tour_of_mem
    {language : Language} {site : Site} {sites : List Site} (h : site ∈ sites) :
    Stop.node site ∈ tour language sites := by
  induction sites with
  | nil => cases h
  | cons first rest ih =>
      rw [mem_tour_cons_iff]
      rcases List.mem_cons.mp h with rfl | h
      · exact .inl rfl
      · exact .inr (.inr (ih h))

theorem Visited.trans
    {language : Language} {start between : List Site} {site : Site}
    (h : Visited language between site)
    (hbetween : ∀ site ∈ between, Visited language start site) :
    Visited language start site := by
  induction h with
  | start hmem => exact hbetween _ hmem
  | onward _ hstage hnext ih => exact .onward ih hstage hnext

/-- The nodes on a tour are the visited ones, and the handlers on it are those of the
visited try nodes. -/
theorem visited_of_mem_tour
    {language : Language} {sites : List Site} {stop : Stop}
    (h : stop ∈ tour language sites) :
    match stop with
    | .node site => Visited language sites site
    | .clause attempt handler =>
        Visited language sites attempt ∧ attempt.role = .attempt ∧
          handler ∈ attempt.childrenAs language .handler := by
  induction sites using sites_induction language generalizing stop with
  | nil => simp at h
  | cons site rest ihStages ihRest =>
      have hsite : Visited language (site :: rest) site := .start List.mem_cons_self
      have hrest :
          ∀ next ∈ rest, Visited language (site :: rest) next :=
        fun next hnext => .start (List.mem_cons_of_mem _ hnext)
      rcases mem_tour_cons_iff.mp h with rfl | ⟨stage, hstage, hstop⟩ | hstop
      · exact hsite
      · have hsites : ∀ next ∈ stage.sites, Visited language (site :: rest) next :=
          fun next hnext => .onward hsite hstage hnext
        rcases mem_stageStops_iff.mp hstop with ⟨handler, hclause, rfl⟩ | hstop
        · obtain ⟨hrole, hhandler, _⟩ := clause_eq_some hstage hclause
          exact ⟨hsite, hrole, hhandler⟩
        · have hinner := ihStages stage hstage hstop
          cases stop with
          | node next => exact hinner.trans hsites
          | clause attempt handler => exact ⟨hinner.1.trans hsites, hinner.2⟩
      · have hinner := ihRest hstop
        cases stop with
        | node next => exact hinner.trans hrest
        | clause attempt handler => exact ⟨hinner.1.trans hrest, hinner.2⟩

theorem mem_tour_iff_visited
    {language : Language} {sites : List Site} {site : Site} :
    Stop.node site ∈ tour language sites ↔ Visited language sites site := by
  constructor
  · intro h
    exact visited_of_mem_tour h
  · intro h
    induction h with
    | start hmem => exact mem_tour_of_mem hmem
    | onward _ hstage hnext ih =>
        exact mem_tour_of_mem_stageStops ih hstage
          (mem_stageStops_iff.mpr (.inr (mem_tour_of_mem hnext)))

theorem mem_tour_clause_iff
    {language : Language} {sites : List Site} {attempt handler : Site} :
    Stop.clause attempt handler ∈ tour language sites ↔
      Visited language sites attempt ∧ attempt.role = .attempt ∧
        handler ∈ attempt.childrenAs language .handler := by
  constructor
  · intro h
    exact visited_of_mem_tour h
  · rintro ⟨hvisited, hrole, hhandler⟩
    obtain ⟨_, hkind⟩ := mem_below_of_mem_childrenAs hhandler
    have hclause : handler ∈ attempt.clauses language :=
      List.mem_append_left _ (List.mem_append_left _ hhandler)
    have hstage : clauseStage language handler ∈ stages language attempt := by
      rw [stages, hrole]
      exact mem_tryStages_iff.mpr (.inr (.inr ⟨handler, hclause, rfl⟩))
    have hentered : (clauseStage language handler).clause = some handler :=
      if_pos hkind
    exact mem_tour_of_mem_stageStops (mem_tour_iff_visited.mpr hvisited) hstage
      (mem_stageStops_iff.mpr (.inl ⟨handler, hentered, rfl⟩))

/-- What holds of all nodes on a tour holds of all visited nodes. -/
theorem forall_visited_iff
    {language : Language} {sites : List Site} (property : Site → Prop) :
    (∀ stop ∈ tour language sites, ∀ site ∈ stop.node?, property site) ↔
      ∀ site, Visited language sites site → property site := by
  constructor
  · intro h site hvisited
    exact h _ (mem_tour_iff_visited.mpr hvisited) site rfl
  · intro h stop hstop site hsite
    cases stop with
    | node other =>
        cases hsite
        exact h site (mem_tour_iff_visited.mp hstop)
    | clause attempt handler => cases hsite

/-- What holds of all try nodes on a tour holds of all visited try nodes. -/
theorem forall_visited_attempt_iff
    {language : Language} {sites : List Site} (property : Site → Prop) :
    (∀ stop ∈ tour language sites, ∀ site ∈ stop.attempt?, property site) ↔
      ∀ site, Visited language sites site → site.role = .attempt → property site := by
  constructor
  · intro h site hvisited hrole
    exact h _ (mem_tour_iff_visited.mpr hvisited) site
      (Stop.attempt?_eq_some_iff.mpr ⟨rfl, hrole⟩)
  · intro h stop hstop site hsite
    obtain ⟨hnode, hrole⟩ := Stop.attempt?_eq_some_iff.mp hsite
    rw [hnode] at hstop
    exact h site (mem_tour_iff_visited.mp hstop) hrole

end HandlerLint.Search
