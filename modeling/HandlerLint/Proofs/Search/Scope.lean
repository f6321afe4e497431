import HandlerLint.Proofs.Search.Distinct

/-!
# Handlers around visited nodes

On its way to a node the search may have gone into the bodies of handlers.  The last of
them is the innermost handler around the node, and none is where the search has gone into
no handler.  It depends on the way alone, not on what the search has passed elsewhere.

An itinerary lists where the search goes on from each node, in an order of its own and
perhaps leaving some stages out.  Its visits are the nodes it gets to, each with the
innermost handler around it.  Two itineraries matter: the one that takes the clauses of a
try node in source order, and the one that takes what a try construct keeps of them.
-/

namespace HandlerLint.Search

open Source
open Lowering

variable {language : Language}

/-- The nodes that the search visits from some sites, each with the innermost handler that
the search has gone into on its way there.  The sites themselves are inside `outer`. -/
inductive VisitedInside (language : Language) (outer : Option Site) (start : List Site) :
    Option Site → Site → Prop
  | start {site : Site} : site ∈ start → VisitedInside language outer start outer site
  | onward {handler : Option Site} {site next : Site} {stage : Stage} :
      VisitedInside language outer start handler site →
        stage ∈ stages language site → next ∈ stage.sites →
          VisitedInside language outer start (stage.clause.or handler) next

theorem VisitedInside.visited
    {outer handler : Option Site} {start : List Site} {site : Site}
    (h : VisitedInside language outer start handler site) :
    Visited language start site := by
  induction h with
  | start hmem => exact .start hmem
  | onward _ hstage hnext ih => exact .onward ih hstage hnext

theorem VisitedInside.trans
    {outer between handler : Option Site} {start inner : List Site} {site : Site}
    (h : VisitedInside language between inner handler site)
    (hinner : ∀ site ∈ inner, VisitedInside language outer start between site) :
    VisitedInside language outer start handler site := by
  induction h with
  | start hmem => exact hinner _ hmem
  | onward _ hstage hnext ih => exact .onward ih hstage hnext

/-- What the search visits from a site is at or below the site. -/
theorem prefix_of_mem_stage
    {site next : Site} {stage : Stage}
    (hstage : stage ∈ stages language site) (hnext : next ∈ stage.sites) :
    site.address <+: next.address := by
  obtain ⟨branch, ⟨index, rfl⟩, hunder⟩ := (through_children hstage).sites next hnext
  exact (List.prefix_append _ _).trans hunder

/-- A node is inside the body of the innermost handler around it. -/
theorem VisitedInside.below_body
    {outer handler : Option Site} {start : List Site} {site clause : Site}
    (h : VisitedInside language outer start handler site)
    (hhandler : handler = some clause) (houter : outer ≠ some clause) :
    ∃ index, presentBodyIndex? language clause.node = some index ∧
      clause.address ++ [index] <+: site.address := by
  induction h with
  | start _ => exact absurd hhandler houter
  | @onward handler site next stage _ hstage hnext ih =>
      cases hclause : stage.clause with
      | none =>
          rw [hclause, Option.none_or] at hhandler
          obtain ⟨index, hindex, hbelow⟩ := ih hhandler
          exact ⟨index, hindex, hbelow.trans (prefix_of_mem_stage hstage hnext)⟩
      | some entered =>
          rw [hclause, Option.some_or] at hhandler
          cases hhandler
          obtain ⟨_, hmem, rfl⟩ := clause_eq_some hstage hclause
          have hindex :
              clauseBodyIndex? language clause = presentBodyIndex? language clause.node :=
            if_pos (mem_below_of_mem_childrenAs hmem).2
          have hnext : next ∈ clause.within language (clauseBodyIndex? language clause) :=
            hnext
          obtain ⟨position, child, hposition, _, hbelow⟩ := mem_within_iff.mp hnext
          obtain ⟨last, haddress⟩ := exists_address_eq_of_mem_sitesBelow hbelow
          refine ⟨position, hindex ▸ hposition, ?_⟩
          rw [haddress]
          exact List.prefix_append _ _

/-! ## Itineraries -/

/-- A visited node and the innermost handler around it. -/
structure Visit where
  handler : Option Site
  site : Site

/-- Where a search goes on from each node: to some of the stages of the node. -/
structure Itinerary (language : Language) where
  onward : Site → List Stage
  mem_stages : ∀ {site stage}, stage ∈ onward site → stage ∈ stages language site

namespace Itinerary

/-- Everything that a search with an itinerary visits from some sites, in order. -/
def visits (itinerary : Itinerary language) (handler : Option Site) :
    List Site → List Visit
  | [] => []
  | site :: sites =>
      { handler, site } ::
        ((itinerary.onward site).attach.flatMap (fun stage =>
            itinerary.visits (stage.1.clause.or handler) stage.1.sites) ++
          itinerary.visits handler sites)
termination_by sites => sitesWeight sites
decreasing_by
  · have := sitesWeight_stage_lt (itinerary.mem_stages stage.2)
    rw [sitesWeight_cons]
    omega
  · have := Node.weight_pos site.node
    rw [sitesWeight_cons]
    omega

/-- Everything that a search with an itinerary visits in one stage of a node. -/
def stageVisits
    (itinerary : Itinerary language) (handler : Option Site) (stage : Stage) : List Visit :=
  itinerary.visits (stage.clause.or handler) stage.sites

variable {itinerary : Itinerary language}

@[simp] theorem visits_nil
    (itinerary : Itinerary language) (handler : Option Site) :
    itinerary.visits handler [] = [] := by
  rw [visits]

theorem visits_cons
    (itinerary : Itinerary language) (handler : Option Site) (site : Site)
    (sites : List Site) :
    itinerary.visits handler (site :: sites) =
      { handler, site } ::
        ((itinerary.onward site).flatMap (itinerary.stageVisits handler) ++
          itinerary.visits handler sites) := by
  have hstages :
      (itinerary.onward site).attach.flatMap (fun stage =>
          itinerary.visits (stage.1.clause.or handler) stage.1.sites) =
        (itinerary.onward site).flatMap (itinerary.stageVisits handler) := by
    conv_rhs => rw [← List.attach_map_subtype_val (itinerary.onward site), List.flatMap_map]
    rfl
  rw [visits, hstages]

theorem mem_visits_cons_iff
    {handler : Option Site} {site : Site} {sites : List Site} {visit : Visit} :
    visit ∈ itinerary.visits handler (site :: sites) ↔
      visit = { handler, site } ∨
        (∃ stage ∈ itinerary.onward site, visit ∈ itinerary.stageVisits handler stage) ∨
        visit ∈ itinerary.visits handler sites := by
  rw [visits_cons, List.mem_cons, List.mem_append, List.mem_flatMap]

theorem mem_visits_of_mem
    {handler : Option Site} {site : Site} {sites : List Site} (h : site ∈ sites) :
    { handler, site } ∈ itinerary.visits handler sites := by
  induction sites with
  | nil => cases h
  | cons first rest ih =>
      rw [mem_visits_cons_iff]
      rcases List.mem_cons.mp h with rfl | h
      · exact .inl rfl
      · exact .inr (.inr (ih h))

/-- With a node, an itinerary visits the nodes of the stages that it lists for the node. -/
theorem mem_visits_of_mem_onward
    {outer handler : Option Site} {sites : List Site} {site next : Site} {stage : Stage}
    (hsite : { handler, site } ∈ itinerary.visits outer sites)
    (hstage : stage ∈ itinerary.onward site) (hnext : next ∈ stage.sites) :
    { handler := stage.clause.or handler, site := next } ∈ itinerary.visits outer sites := by
  induction sites using sites_induction language generalizing outer with
  | nil => simp at hsite
  | cons first rest ihStages ihRest =>
      rw [mem_visits_cons_iff] at hsite ⊢
      rcases hsite with hfirst | ⟨other, hother, hsite⟩ | hrest
      · cases hfirst
        exact .inr (.inl ⟨stage, hstage, mem_visits_of_mem hnext⟩)
      · exact .inr (.inl ⟨other, hother, ihStages other (itinerary.mem_stages hother) hsite⟩)
      · exact .inr (.inr (ihRest hrest))

/-- An itinerary gets to visited nodes only, each inside the handler it says. -/
theorem visitedInside_of_mem_visits
    {outer : Option Site} {sites : List Site} {visit : Visit}
    (h : visit ∈ itinerary.visits outer sites) :
    VisitedInside language outer sites visit.handler visit.site := by
  induction sites using sites_induction language generalizing outer with
  | nil => simp at h
  | cons site rest ihStages ihRest =>
      rcases mem_visits_cons_iff.mp h with rfl | ⟨stage, hstage, hvisit⟩ | hvisit
      · exact .start List.mem_cons_self
      · refine (ihStages stage (itinerary.mem_stages hstage) hvisit).trans ?_
        intro next hnext
        exact .onward (.start List.mem_cons_self) (itinerary.mem_stages hstage) hnext
      · refine (ihRest hvisit).trans ?_
        intro next hnext
        exact .start (List.mem_cons_of_mem _ hnext)

/-- An itinerary that leaves out no stage of a visited node gets to every visited node. -/
theorem mem_visits_of_visitedInside
    {outer handler : Option Site} {sites : List Site} {site : Site}
    (hfull : ∀ site, Visited language sites site →
      ∀ stage ∈ stages language site, stage ∈ itinerary.onward site)
    (h : VisitedInside language outer sites handler site) :
    { handler, site } ∈ itinerary.visits outer sites := by
  induction h with
  | start hmem => exact mem_visits_of_mem hmem
  | onward hsite hstage hnext ih =>
      exact mem_visits_of_mem_onward ih (hfull _ hsite.visited _ hstage) hnext

/-! ## Orders of the clauses -/

/-- The stages of a node when those of a try node take some of its clauses, in an order. -/
def stagesOf
    (language : Language) (clauses : Site → List Site) (site : Site) : List Stage :=
  if site.role == .attempt then
    { clause := none, sites := site.leading language } ::
      { clause := none, sites := site.within language (bodyIndex? language site.node) } ::
      (clauses site).map (clauseStage language)
  else [{ clause := none, sites := openedSites language site }]

/-- The itinerary that takes some of the clauses of each try node, in an order. -/
def ofClauses
    (clauses : Site → List Site)
    (hclauses : ∀ site, ∀ clause ∈ clauses site, clause ∈ site.clauses language) :
    Itinerary language where
  onward := stagesOf language clauses
  mem_stages := by
    intro site stage hstage
    unfold stagesOf at hstage
    unfold stages
    split at hstage
    · next hrole =>
        rw [if_pos hrole, mem_tryStages_iff]
        rcases List.mem_cons.mp hstage with rfl | hstage
        · exact .inl rfl
        rcases List.mem_cons.mp hstage with rfl | hstage
        · exact .inr (.inl rfl)
        obtain ⟨clause, hclause, rfl⟩ := List.mem_map.mp hstage
        exact .inr (.inr ⟨clause, hclauses site clause hclause, rfl⟩)
    · next hrole => rwa [if_neg hrole]

section

variable {clauses : Site → List Site}
  {hclauses : ∀ site, ∀ clause ∈ clauses site, clause ∈ site.clauses language}

theorem onward_of_attempt
    {site : Site} (hrole : site.role = .attempt) :
    (ofClauses clauses hclauses).onward site =
      { clause := none, sites := site.leading language } ::
        { clause := none, sites := site.within language (bodyIndex? language site.node) } ::
        (clauses site).map (clauseStage language) :=
  if_pos (beq_iff_eq.mpr hrole)

theorem onward_of_ne_attempt
    {site : Site} (hrole : site.role ≠ .attempt) :
    (ofClauses clauses hclauses).onward site =
      [{ clause := none, sites := openedSites language site }] :=
  if_neg (mt beq_iff_eq.mp hrole)

/-- An itinerary leaves out no stage of a node if it takes every clause of a try node. -/
theorem mem_onward_ofClauses
    {site : Site} {stage : Stage}
    (hall : site.role = .attempt → ∀ clause ∈ site.clauses language, clause ∈ clauses site)
    (hstage : stage ∈ stages language site) :
    stage ∈ (ofClauses clauses hclauses).onward site := by
  unfold stages at hstage
  split at hstage
  · next hrole =>
      have hrole := beq_iff_eq.mp hrole
      rw [onward_of_attempt hrole]
      rcases mem_tryStages_iff.mp hstage with rfl | rfl | ⟨clause, hclause, rfl⟩
      · exact List.mem_cons_self
      · exact List.mem_cons_of_mem _ List.mem_cons_self
      · refine List.mem_cons_of_mem _ (List.mem_cons_of_mem _ (List.mem_map.mpr ?_))
        exact ⟨clause, hall hrole clause hclause, rfl⟩
  · next hrole =>
      rw [onward_of_ne_attempt (mt beq_iff_eq.mpr hrole)]
      exact hstage

end

end Itinerary

/-- The clauses of a try node in source order. -/
def Site.clausesInOrder (language : Language) (site : Site) : List Site :=
  (site.below language).filter fun clause => (clausePart? clause.item).isSome

/-- The clauses of a try node that its construct keeps: the handlers, the last `else` and the
last `finally` clause. -/
def Site.keptClauses (language : Language) (site : Site) : List Site :=
  site.childrenAs language .handler ++
    (site.childrenAs language .orelse).getLast?.toList ++
    (site.childrenAs language .finalizer).getLast?.toList

theorem mem_clausesInOrder_iff
    {site clause : Site} :
    clause ∈ site.clausesInOrder language ↔ clause ∈ site.clauses language := by
  rw [mem_clauses_iff]
  exact List.mem_filter

theorem mem_clauses_of_mem_keptClauses
    {site clause : Site} (h : clause ∈ site.keptClauses language) :
    clause ∈ site.clauses language := by
  unfold Site.keptClauses at h
  unfold Site.clauses
  simp only [List.mem_append, Option.mem_toList] at h ⊢
  rcases h with (hhandler | horelse) | hfinalizer
  · exact .inl (.inl hhandler)
  · exact .inl (.inr (List.mem_of_getLast? horelse))
  · exact .inr (List.mem_of_getLast? hfinalizer)

theorem toList_getLast?_of_length_le_one
    {α : Type} {values : List α} (h : values.length ≤ 1) :
    values.getLast?.toList = values := by
  match values with
  | [] => rfl
  | [value] => rfl
  | _ :: _ :: _ => simp at h

/-- The construct of a tidy try node keeps all its clauses. -/
theorem TidyTry.keptClauses_eq
    {site : Site} (h : TidyTry language site.node) :
    site.keptClauses language = site.clauses language := by
  have hlength :
      ∀ role, (site.childrenAs language role).length =
        (childrenAs language role site.node).length := by
    intro role
    rw [← map_node_childrenAs, List.length_map]
  unfold Site.keptClauses Site.clauses
  rw [toList_getLast?_of_length_le_one (hlength .orelse ▸ h.orelse),
    toList_getLast?_of_length_le_one (hlength .finalizer ▸ h.finalizer)]

/-- The search that takes the clauses of a try node in source order. -/
def sourceItinerary (language : Language) : Itinerary language :=
  .ofClauses (Site.clausesInOrder language) fun _ _ h => mem_clausesInOrder_iff.mp h

/-- The search that takes the clauses of a try node that its construct keeps. -/
def keptItinerary (language : Language) : Itinerary language :=
  .ofClauses (Site.keptClauses language) fun _ _ h => mem_clauses_of_mem_keptClauses h

/-- In source order the search gets to every visited node, inside every handler that is the
innermost one on a way there. -/
theorem mem_sourceItinerary_visits_iff
    {outer : Option Site} {sites : List Site} {visit : Visit} :
    visit ∈ (sourceItinerary language).visits outer sites ↔
      VisitedInside language outer sites visit.handler visit.site := by
  constructor
  · exact Itinerary.visitedInside_of_mem_visits
  · intro h
    apply Itinerary.mem_visits_of_visitedInside _ h
    intro site _ stage hstage
    exact Itinerary.mem_onward_ofClauses
      (fun _ clause hclause => mem_clausesInOrder_iff.mpr hclause) hstage

/-- Where all try nodes are tidy, a construct keeps every visited node. -/
theorem mem_keptItinerary_visits_iff
    {outer : Option Site} {sites : List Site} {visit : Visit}
    (htidy : TidyTries language sites) :
    visit ∈ (keptItinerary language).visits outer sites ↔
      VisitedInside language outer sites visit.handler visit.site := by
  constructor
  · exact Itinerary.visitedInside_of_mem_visits
  · intro h
    apply Itinerary.mem_visits_of_visitedInside _ h
    intro site hvisited stage hstage
    apply Itinerary.mem_onward_ofClauses _ hstage
    intro hrole clause hclause
    rwa [(htidy site hvisited hrole).keptClauses_eq]

end HandlerLint.Search
