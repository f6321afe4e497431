import Mathlib.Data.List.Nodup
import Mathlib.Data.List.Perm.Subperm
import HandlerLint.Proofs.Search.Report

/-!
# Which try nodes become constructs

The try constructs of a model stand one for one for the try nodes that the search visits.
Whether they stand one for one for all try nodes of the parse tree is another matter.
The search does not go below a throw, so a try node inside what is thrown, say in a
closure, has no construct.  All try nodes have their construct exactly if the search
visits all of them.
-/

namespace HandlerLint.Search

open Source
open Lowering

/-! ## Try nodes that can be reached -/

/-- The nodes that can be reached from the root through named nodes that are not
comments. -/
inductive Reached (language : Language) (root : Node) : Site → Prop
  | start {site : Site} : site ∈ rootSites language root → Reached language root site
  | child {site next : Site} :
      Reached language root site → next ∈ site.below language → Reached language root next

/-- Whether the child with some index, if there is one, is named and not a comment. -/
def significantChild (language : Language) (node : Node) (index : Option Nat) : Bool :=
  (index.bind (node.children[·]?)).all fun child =>
    child.isNamed && (language.place node child).role != .comment

/-- A tidy try node whose body, and whose clauses' bodies, are named and not comments. -/
structure ProperTry (language : Language) (site : Site) : Prop where
  tidy : TidyTry language site.node
  body : significantChild language site.node (bodyIndex? language site.node) = true
  clauses : ∀ clause ∈ site.clauses language,
    significantChild language clause.node (clauseBodyIndex? language clause) = true

/-- Every try node that the search visits is proper. -/
def ProperTries (language : Language) (start : List Site) : Prop :=
  ∀ site, Visited language start site → site.role = .attempt → ProperTry language site

instance (language : Language) (site : Site) : Decidable (ProperTry language site) :=
  decidable_of_iff
    (TidyTry language site.node ∧
      significantChild language site.node (bodyIndex? language site.node) = true ∧
      ∀ clause ∈ site.clauses language,
        significantChild language clause.node (clauseBodyIndex? language clause) = true)
    ⟨fun h => ⟨h.1, h.2.1, h.2.2⟩, fun h => ⟨h.tidy, h.body, h.clauses⟩⟩

instance (language : Language) (start : List Site) :
    Decidable (ProperTries language start) :=
  decidable_of_iff _ (forall_visited_attempt_iff (ProperTry language))

theorem ProperTries.tidy
    {language : Language} {start : List Site} (h : ProperTries language start) :
    TidyTries language start :=
  fun site hvisited hrole => (h site hvisited hrole).tidy

/-- What is inside a significant child is below a child. -/
theorem exists_between_of_mem_within
    {language : Language} {site next : Site} {index : Option Nat}
    (hchild : significantChild language site.node index = true)
    (h : next ∈ site.within language index) :
    ∃ child ∈ site.below language, next ∈ child.below language := by
  obtain ⟨position, child, rfl, hposition, hnext⟩ := mem_within_iff.mp h
  simp only [significantChild, Option.bind_some, hposition, Option.all_some,
    Bool.and_eq_true, bne_iff_ne] at hchild
  refine ⟨childSite language site.address site.node (child, position), ?_, hnext⟩
  exact mem_sitesBelow_iff.mpr ⟨position, child, hposition, rfl, hchild.1, hchild.2⟩

/-- From a node that can be reached, a stage goes on to nodes that can be reached. -/
theorem Reached.of_stage
    {language : Language} {root : Node} {site next : Site} {stage : Stage}
    (h : Reached language root site)
    (hproper : site.role = .attempt → ProperTry language site)
    (hstage : stage ∈ stages language site) (hnext : next ∈ stage.sites) :
    Reached language root next := by
  unfold stages at hstage
  split at hstage
  · next hrole =>
      have hproper := hproper (beq_iff_eq.mp hrole)
      rcases mem_tryStages_iff.mp hstage with rfl | rfl | ⟨clause, hclause, rfl⟩
      · exact h.child (List.mem_filter.mp hnext).1
      · obtain ⟨body, hbody, hinside⟩ := exists_between_of_mem_within hproper.body hnext
        exact (h.child hbody).child hinside
      · obtain ⟨body, hbody, hinside⟩ :=
          exists_between_of_mem_within (hproper.clauses clause hclause) hnext
        exact ((h.child (mem_clauses_iff.mp hclause).1).child hbody).child hinside
  · rw [List.mem_singleton] at hstage
    subst hstage
    simp only at hnext
    rcases openedSites_cases language site with hnone | hbelow | ⟨expression, hmem, hinside⟩
    · rw [hnone] at hnext
      cases hnext
    · rw [hbelow] at hnext
      exact h.child hnext
    · rw [hinside] at hnext
      exact (h.child hmem).child hnext

/-- Through proper try nodes, the search visits only nodes that can be reached. -/
theorem reached_of_visited
    {language : Language} {root : Node} {site : Site}
    (hproper : ProperTries language (rootSites language root))
    (h : Visited language (rootSites language root) site) :
    Reached language root site := by
  induction h with
  | start hmem => exact .start hmem
  | onward hvisited hstage hnext ih => exact ih.of_stage (hproper _ hvisited) hstage hnext

/-! ## Nothing below a throw -/

/-- From a node that throws by itself the search does not go on. -/
theorem openedSites_eq_nil_of_throws
    {language : Language} {site : Site}
    (h : throwsItself language site.item = true) :
    openedSites language site = [] := by
  have hitems : openedItems language site.item = [] := by
    unfold throwsItself at h
    unfold openedItems
    cases hrole : site.item.role with
    | throw => rfl
    | expressionStatement =>
        simp only [hrole] at h
        cases hbelow : language.significant site.item.node with
        | nil => rfl
        | cons expression rest =>
            rw [hbelow, List.head?_cons, Option.any_some] at h
            exact if_pos h
    | _ =>
        simp only [hrole] at h
        cases h
  rw [← map_item_openedSites] at hitems
  exact List.map_eq_nil_iff.mp hitems

/-- A try node does not throw by itself. -/
theorem role_ne_attempt_of_throws
    {language : Language} {site : Site}
    (h : throwsItself language site.item = true) :
    site.role ≠ .attempt := by
  intro hrole
  rw [Site.role] at hrole
  rw [throwsItself, hrole] at h
  cases h

/-- No try node below a visited node that throws by itself is visited. -/
theorem not_visited_below_throw
    {language : Language} {root : Node} {thrower site : Site}
    (htidy : TidyTries language (rootSites language root))
    (hthrower : Visited language (rootSites language root) thrower)
    (hthrows : throwsItself language thrower.item = true)
    (hrole : site.role = .attempt) (hbelow : thrower.address <+: site.address) :
    ¬ Visited language (rootSites language root) site := by
  have hthrowerRole := role_ne_attempt_of_throws hthrows
  intro hvisited
  rcases mem_stageStops_of_below htidy (apartSites_sitesBelow language [] root)
      (mem_tour_iff_visited.mpr hthrower) (mem_tour_iff_visited.mpr hvisited) hbelow with
    hsame | ⟨stage, hstage, hstop⟩
  · cases hsame
    exact hthrowerRole hrole
  · rw [stages, beq_eq_false_iff_ne.mpr hthrowerRole, openedSites_eq_nil_of_throws hthrows]
      at hstage
    obtain rfl := List.mem_singleton.mp hstage
    rcases mem_stageStops_iff.mp hstop with ⟨handler, hclause, _⟩ | hstop
    · cases hclause
    · simp at hstop

/-! ## Correspondence -/

/-- The try nodes of a parse tree that the search visits, in order. -/
def visitedTries (language : Language) (root : Node) : List Site :=
  (tour language (rootSites language root)).filterMap Stop.attempt?

theorem mem_visitedTries_iff
    {language : Language} {root : Node} {site : Site} :
    site ∈ visitedTries language root ↔
      Visited language (rootSites language root) site ∧ site.role = .attempt := by
  unfold visitedTries
  rw [List.mem_filterMap]
  constructor
  · rintro ⟨stop, hstop, hsite⟩
    obtain ⟨rfl, hrole⟩ := Stop.attempt?_eq_some_iff.mp hsite
    exact ⟨mem_tour_iff_visited.mp hstop, hrole⟩
  · rintro ⟨hvisited, hrole⟩
    exact ⟨.node site, mem_tour_iff_visited.mpr hvisited,
      Stop.attempt?_eq_some_iff.mpr ⟨rfl, hrole⟩⟩

theorem nodup_visitedTries
    {language : Language} {root : Node}
    (htidy : TidyTries language (rootSites language root)) :
    ((visitedTries language root).map Site.address).Nodup := by
  apply nodup_address_filterMap_tour htidy (apartSites_sitesBelow language [] root)
  intro stop site hsite
  obtain ⟨rfl, _⟩ := Stop.attempt?_eq_some_iff.mp hsite
  rfl

/-- Constructs that stand one for one for some sites: none is without a site, none
shares its site, no site is left out, and each construct renders its site. -/
def Corresponds
    (context : Context) (wanted : Site → Prop) (constructs : List TryConstruct) : Prop :=
  ∃ sites : List Site,
    (sites.map Site.address).Nodup ∧ (∀ site, site ∈ sites ↔ wanted site) ∧
      List.Forall₂ (Renders context) sites constructs

/-- One list of constructs cannot stand for some sites and for more sites. -/
theorem Corresponds.mem_of_subset
    {context : Context} {fewer more : Site → Prop} {constructs : List TryConstruct}
    (hfewer : Corresponds context fewer constructs)
    (hmore : Corresponds context more constructs)
    (hsubset : ∀ site, fewer site → more site) {site : Site} (hsite : more site) :
    fewer site := by
  obtain ⟨sites, hnodup, hsites, hrenders⟩ := hfewer
  obtain ⟨others, _, hothers, hothersRender⟩ := hmore
  have hcontained : sites ⊆ others := by
    intro member hmember
    exact (hothers member).mpr (hsubset member ((hsites member).mp hmember))
  have hlength : others.length ≤ sites.length :=
    Nat.le_of_eq (hothersRender.length_eq.trans hrenders.length_eq.symm)
  have hperm : sites.Perm others :=
    (List.subperm_of_subset (List.Nodup.of_map _ hnodup) hcontained).perm_of_length_le hlength
  exact (hsites site).mp (hperm.mem_iff.mpr ((hothers site).mpr hsite))

/-- For a parse tree with proper try nodes that could be lowered, the constructs of the
model stand one for one for the try nodes that the search visits, with the same spans and
with their handlers in order.  They stand one for one for all try nodes that can be
reached from the root exactly if the search visits all of these.  So they do not if there
is a try node inside what a visited node throws. -/
theorem constructs_correspond_to_reached_iff_visited
    {language : Language} {path : String} {source : List UInt8} {tree : Tree}
    {model : SyntaxTree}
    (hproper : ProperTries language (rootSites language tree.root))
    (h : lower language path source tree = .ok model) :
    Corresponds { language, source }
        (fun site =>
          Visited language (rootSites language tree.root) site ∧ site.role = .attempt)
        (constructsIn model.statements) ∧
      (Corresponds { language, source }
          (fun site => Reached language tree.root site ∧ site.role = .attempt)
          (constructsIn model.statements) ↔
        ∀ site, Reached language tree.root site → site.role = .attempt →
          Visited language (rootSites language tree.root) site) ∧
      ∀ thrower site, Visited language (rootSites language tree.root) thrower →
        throwsItself language thrower.item = true →
        Reached language tree.root site → site.role = .attempt →
        thrower.address <+: site.address →
          ¬ Corresponds { language, source }
            (fun site => Reached language tree.root site ∧ site.role = .attempt)
            (constructsIn model.statements) := by
  obtain ⟨_, hfollows⟩ := follows_of_lower_eq_ok hproper.tidy h
  have hvisited :
      Corresponds { language, source }
        (fun site =>
          Visited language (rootSites language tree.root) site ∧ site.role = .attempt)
        (constructsIn model.statements) :=
    ⟨visitedTries language tree.root, nodup_visitedTries hproper.tidy,
      fun site => mem_visitedTries_iff, hfollows.constructs⟩
  have hexact :
      Corresponds { language, source }
          (fun site => Reached language tree.root site ∧ site.role = .attempt)
          (constructsIn model.statements) ↔
        ∀ site, Reached language tree.root site → site.role = .attempt →
          Visited language (rootSites language tree.root) site := by
    constructor
    · intro hreached site hsite hrole
      refine (hvisited.mem_of_subset hreached ?_ ⟨hsite, hrole⟩).1
      rintro other ⟨hother, hotherRole⟩
      exact ⟨reached_of_visited hproper hother, hotherRole⟩
    · intro hall
      obtain ⟨sites, hnodup, hsites, hrenders⟩ := hvisited
      refine ⟨sites, hnodup, ?_, hrenders⟩
      intro site
      rw [hsites]
      constructor
      · rintro ⟨hsite, hrole⟩
        exact ⟨reached_of_visited hproper hsite, hrole⟩
      · rintro ⟨hsite, hrole⟩
        exact ⟨hall site hsite hrole, hrole⟩
  refine ⟨hvisited, hexact, ?_⟩
  intro thrower site hthrower hthrows hreached hrole hbelow hcorresponds
  exact not_visited_below_throw hproper.tidy hthrower hthrows hrole hbelow
    (hexact.mp hcorresponds site hreached hrole)

/-- A source with a try construct inside what a handler throws. -/
def thrownSource : List UInt8 :=
  "try {} catch (e) { throw [() => { try {} catch {} }] }".toUTF8.toList

/-- The parse tree of a source with a try construct inside what a handler throws. -/
def thrownTree : Tree :=
  { root :=
      lineNode "program" none 0 54
        [lineNode "try_statement" none 0 54
          [lineNode "statement_block" (some "body") 4 6 [],
            lineNode "catch_clause" (some "handler") 7 54
              [lineNode "identifier" (some "parameter") 14 15 [],
                lineNode "statement_block" (some "body") 17 54
                  [lineNode "throw_statement" none 19 52
                    [lineNode "array" none 25 52
                      [lineNode "arrow_function" none 26 51
                        [lineNode "formal_parameters" (some "parameters") 26 28 [],
                          lineNode "statement_block" (some "body") 32 51
                            [lineNode "try_statement" none 34 49
                              [lineNode "statement_block" (some "body") 38 40 [],
                                lineNode "catch_clause" (some "handler") 41 49
                                  [lineNode "statement_block" (some "body") 47 49
                                    []]]]]]]]]]]
    hasError := false }

/-- The try construct inside what is thrown is lost. -/
theorem thrownTree_loses_construct :
    ProperTries .javascript (rootSites .javascript thrownTree.root) ∧
      ∃ model, lower .javascript "a.js" thrownSource thrownTree = .ok model ∧
        ¬ Corresponds { language := .javascript, source := thrownSource }
          (fun site => Reached .javascript thrownTree.root site ∧ site.role = .attempt)
          (constructsIn model.statements) := by
  have hproper : ProperTries .javascript (rootSites .javascript thrownTree.root) := by
    decide +kernel
  have hok : (lower .javascript "a.js" thrownSource thrownTree).isOk = true := by
    decide +kernel
  obtain ⟨model, hmodel⟩ := exists_eq_ok_of_isOk hok
  refine ⟨hproper, model, hmodel, ?_⟩
  obtain ⟨_, _, hlost⟩ := constructs_correspond_to_reached_iff_visited hproper hmodel
  -- The throw is visited inside the handler.
  have hthrower :
      ∃ thrower, Visited .javascript (rootSites .javascript thrownTree.root) thrower ∧
        throwsItself .javascript thrower.item = true ∧ thrower.address = [0, 1, 1, 0] :=
    ⟨_, .onward (.start (.head _)) (.tail _ (.tail _ (.head _))) (.head _), rfl, rfl⟩
  -- The inner try statement is below the throw, its array and its closure.
  have hinner :
      ∃ site, Reached .javascript thrownTree.root site ∧ site.role = .attempt ∧
        site.address = [0, 1, 1, 0, 0, 0, 1, 0] :=
    ⟨_,
      (((((((Reached.start (.head _)).child (.tail _ (.head _))).child
        (.tail _ (.head _))).child (.head _)).child (.head _)).child (.head _)).child
        (.tail _ (.head _))).child (.head _),
      rfl, rfl⟩
  obtain ⟨thrower, hvisited, hthrows, hthrowerAddress⟩ := hthrower
  obtain ⟨site, hreached, hrole, haddress⟩ := hinner
  apply hlost thrower site hvisited hthrows hreached hrole
  rw [hthrowerAddress, haddress]
  decide

end HandlerLint.Search
